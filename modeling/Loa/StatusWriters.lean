import Loa.CortexVaultFiles
import Loa.SharedProgram

/-!
# Two threads and one status file

The door's thread and the power thread both write the public status, both by way
of `status.tmp`.  A thread that opens `status.tmp` while the other one is not
between opening and placing it has the file for itself until its own rename;
what it then puts in place is one complete status.
-/

namespace Vault

open FileDirectory RustText Program
open Json (Value)

/-- The threads that work in the vault's directory. -/
inductive Side
  | door
  | power
  deriving DecidableEq

def Side.other : Side → Side
  | .door => .power
  | .power => .door

@[simp]
theorem Side.other_other (side : Side) : side.other.other = side := by
  cases side <;> rfl

theorem Side.eq_other_of_ne {side other : Side} (differ : other ≠ side) :
    other = side.other := by
  cases side <;> cases other <;> simp_all [Side.other]

/-- The host, and which threads have opened `status.tmp` and are still to rename
it. -/
structure Desk where
  host : Host
  writing : Side → Bool

/-- What a call of a thread means for the writing of the status. -/
def mark (side : Side) (writing : Side → Bool) : Op → Side → Bool
  | .openTruncated name _ =>
      if name = "status.tmp" then Function.update writing side true else writing
  | .rename source _ =>
      if source = "status.tmp" then Function.update writing side false
      else writing
  | _ => writing

@[simp]
theorem mark_open (side : Side) (writing : Side → Bool) (mode : Nat) :
    mark side writing (.openTruncated "status.tmp" mode) =
      Function.update writing side true := by
  simp [mark]

@[simp]
theorem mark_rename (side : Side) (writing : Side → Bool) (target : String) :
    mark side writing (.rename "status.tmp" target) =
      Function.update writing side false := by
  simp [mark]

/-- Serve a call of one of the threads. -/
def Desk.serve (side : Side) (op : Op) (desk : Desk) : Reply op × Desk :=
  ((FileDirectory.serve op desk.host).1,
    ⟨(FileDirectory.serve op desk.host).2, mark side desk.writing op⟩)

/-- A thread opens `status.tmp` only while the other one is not writing it. -/
def InTurn (side : Side) (desk : Desk) (op : Op) : Prop :=
  ∀ mode, op = .openTruncated "status.tmp" mode →
    desk.writing side.other = false

variable (v : Vault)

/-- The bytes of one complete status. -/
def StatusText (bytes : Bytes) : Prop :=
  ∃ (accessCount entries : Nat) (hash marker : Value) (sealed : Bool),
    bytes = asBytes (v.text.displayPretty (.object
      [("access_count", .ofNat accessCount), ("entries", .ofNat entries),
        ("hash", hash), ("marker", marker), ("sealed", .bool sealed)]) ++ "\n")

/-- There is no status, or a complete one. -/
def WholeStatus (host : Host) : Prop :=
  ∀ bytes, host.file "status.json" = some bytes → v.StatusText bytes

def statusFiles : List String :=
  ["status.tmp", "status.json"]

/-- What one thread notices of a step: not its own writing, while it has
`status.tmp` for itself not that file either, never half a status, and, if it
is the door's thread, no other file but the named ones. -/
structure Yields (side : Side) (names : List String) (before after : Desk) :
    Prop where
  mine : after.writing side = before.writing side
  alone : before.writing side = true → before.writing side.other = false →
    after.writing side.other = false
  kept : before.writing side = true → before.writing side.other = false →
    after.host.directory.names "status.tmp" =
        before.host.directory.names "status.tmp" ∧
      after.host.file "status.tmp" = before.host.file "status.tmp"
  status : v.WholeStatus before.host → v.WholeStatus after.host
  files : side = .door → KeepsOff names before.host after.host

variable {v} {side : Side} {names : List String}

theorem Yields.refl (desk : Desk) : v.Yields side names desk desk :=
  ⟨rfl, fun _ alone => alone, fun _ _ => ⟨rfl, rfl⟩, fun whole => whole,
    fun _ => KeepsOff.refl names desk.host⟩

theorem Yields.trans {first second third : Desk}
    (early : v.Yields side names first second)
    (late : v.Yields side names second third) :
    v.Yields side names first third := by
  have still (writing : first.writing side = true) :
      second.writing side = true := early.mine.trans writing
  refine ⟨late.mine.trans early.mine, fun writing alone => ?_,
    fun writing alone => ?_, fun whole => late.status (early.status whole),
    fun door => (early.files door).trans (late.files door)⟩
  · exact late.alone (still writing) (early.alone writing alone)
  · obtain ⟨pointer, file⟩ := early.kept writing alone
    obtain ⟨laterPointer, laterFile⟩ :=
      late.kept (still writing) (early.alone writing alone)
    exact ⟨laterPointer.trans pointer, laterFile.trans file⟩

theorem Yields.mono {wider : List String} {before after : Desk}
    (yields : v.Yields side names before after) (included : names ⊆ wider) :
    v.Yields side wider before after :=
  ⟨yields.mine, yields.alone, yields.kept, yields.status,
    fun door => (yields.files door).mono included⟩

instance : Std.Refl (v.Yields side names) :=
  ⟨Yields.refl⟩

instance : IsTrans Desk (v.Yields side names) :=
  ⟨fun _ _ _ => Yields.trans⟩

/-- A program of one thread, whatever the other one does in its turn. -/
abbrev Works {α : Type} (v : Vault) (side : Side) (post : α → Desk → Prop)
    (program : FileProgram α) (desk : Desk) : Prop :=
  Shielded (Desk.serve side) (v.Yields side statusFiles)
    (v.Yields side.other statusFiles) (InTurn side) post program desk

theorem mark_reading {op : Op} (reading : op.Reading)
    (writing : Side → Bool) : mark side writing op = writing := by
  cases op <;> first
    | exact reading.elim
    | rfl

theorem yields_reading {op : Op} (reading : op.Reading) (actor : Side)
    (desk : Desk) :
    v.Yields side names desk (desk.serve actor op).2 := by
  have keeps := keepsOff_serve_reading reading desk.host
  have same : (desk.serve actor op).2.writing = desk.writing :=
    mark_reading reading desk.writing
  refine ⟨congrFun same side, fun _ alone => ?_, fun _ _ => ⟨?_, ?_⟩, ?_,
    fun _ => keeps.mono (List.nil_subset names)⟩
  · exact (congrFun same side.other).trans alone
  · exact keeps.pointers "status.tmp" List.not_mem_nil
  · exact keeps.files "status.tmp" List.not_mem_nil
  · intro whole bytes found
    exact whole bytes
      ((keeps.files "status.json" List.not_mem_nil).symm.trans found)

theorem works_reading {α : Type} {program : FileProgram α}
    (uses : Uses Op.Reading program) (desk : Desk) :
    Works v side (fun _ after => v.Yields side statusFiles desk after) program
      desk :=
  uses.shielded (fun _ world reading =>
    ⟨yields_reading reading side world, yields_reading reading side world⟩) desk

/-- System calls whose failure ends a program. -/
theorem works_orFail {α β : Type} {context : String}
    {call : FileProgram (Except OsError α)} {next : α → Fallible β}
    {post : Except String β → Desk → Prop} {desk : Desk}
    (first : Works v side
      (fun reply after =>
        match reply with
        | .ok value => Works v side post (next value).run after
        | .error error => ∀ later, v.Yields side statusFiles after later →
            post (.error (context ++ error.text)) later) call desk) :
    Works v side post (orFail context call >>= next).run desk := by
  apply shielded_exceptBind
  apply shielded_bind
  apply first.mono
  intro reply after met
  cases reply with
  | ok value => exact shielded_pure fun later moved => met.later moved
  | error error =>
      refine shielded_pure fun later moved last after => ?_
      exact met last (moved.trans after)

/-- The thread has `status.tmp` open for itself, with these bytes in it. -/
structure Holding (side : Side) (inode : Nat) (bytes : Bytes) (desk : Desk) :
    Prop where
  writing : desk.writing side = true
  alone : desk.writing side.other = false
  pointed : desk.host.directory.names "status.tmp" = some inode
  file : desk.host.file "status.tmp" = some bytes

theorem Holding.later {inode : Nat} {bytes : Bytes} {desk later : Desk}
    (holding : Holding side inode bytes desk)
    (moved : v.Yields side names desk later) :
    Holding side inode bytes later := by
  obtain ⟨pointer, file⟩ := moved.kept holding.writing holding.alone
  exact ⟨moved.mine.trans holding.writing,
    moved.alone holding.writing holding.alone, pointer.trans holding.pointed,
    file.trans holding.file⟩

/-- What the other thread notices of a call on the two status files by a thread
that has `status.tmp` for itself. -/
theorem Holding.yields {inode : Nat} {bytes : Bytes} {before after : Desk}
    (holding : Holding side inode bytes before)
    (mine : after.writing side.other = before.writing side.other)
    (status : v.WholeStatus before.host → v.WholeStatus after.host)
    (keeps : KeepsOff statusFiles before.host after.host) :
    v.Yields side.other statusFiles before after := by
  have never : ¬before.writing side.other = true := by
    rw [holding.alone]
    exact Bool.false_ne_true
  exact ⟨mine, fun writing => absurd writing never,
    fun writing => absurd writing never, status, fun _ => keeps⟩

theorem wholeStatus_of_keepsOff {before after : Host} {names : List String}
    (keeps : KeepsOff names before after) (off : "status.json" ∉ names)
    (whole : v.WholeStatus before) : v.WholeStatus after :=
  fun bytes found => whole bytes
    ((keeps.files "status.json" off).symm.trans found)

theorem Side.other_ne (side : Side) : side.other ≠ side := by
  cases side <;> decide

/-- A call does not touch the other thread's mark. -/
theorem mark_other (side : Side) (writing : Side → Bool) (op : Op) :
    mark side writing op side.other = writing side.other := by
  unfold mark
  split
  · split
    · exact Function.update_of_ne side.other_ne ..
    · rfl
  · split
    · exact Function.update_of_ne side.other_ne ..
    · rfl
  · rfl

/-- A thread opens `status.tmp` in its turn. -/
theorem openTruncated_inTurn (mode : Nat) {desk : Desk}
    (turn : InTurn side desk (.openTruncated "status.tmp" mode)) :
    ∃ inode, (desk.serve side (.openTruncated "status.tmp" mode)).1 =
        .ok inode ∧
      Holding side inode []
        (desk.serve side (.openTruncated "status.tmp" mode)).2 ∧
      v.Yields side.other statusFiles desk
        (desk.serve side (.openTruncated "status.tmp" mode)).2 ∧
      KeepsOff statusFiles desk.host
        (desk.serve side (.openTruncated "status.tmp" mode)).2.host := by
  obtain ⟨inode, answer, pointed, empty, keeps⟩ :=
    openTruncated_pointed "status.tmp" mode desk.host
  have alone : desk.writing side.other = false := turn mode rfl
  have marked : (desk.serve side (.openTruncated "status.tmp" mode)).2.writing =
      Function.update desk.writing side true :=
    mark_open side desk.writing mode
  have same : (desk.serve side (.openTruncated "status.tmp" mode)).2.writing
      side.other = desk.writing side.other :=
    mark_other side desk.writing (.openTruncated "status.tmp" mode)
  have never : ¬desk.writing side.other = true := by
    rw [alone]
    exact Bool.false_ne_true
  have keepsBoth := keeps.mono (by simp [statusFiles] :
    ["status.tmp"] ⊆ statusFiles)
  refine ⟨inode, answer, ⟨?_, same.trans alone, pointed, empty⟩,
    ⟨same, fun writing => absurd writing never,
      fun writing => absurd writing never,
      wholeStatus_of_keepsOff keeps (by decide), fun _ => keepsBoth⟩, keepsBoth⟩
  rw [marked, Function.update_self]

/-- A thread writes what it holds open. -/
theorem Holding.write {inode : Nat} {desk : Desk}
    (holding : Holding side inode [] desk) (bytes : Bytes) :
    Holding side inode bytes (desk.serve side (.write inode bytes)).2 ∧
      v.Yields side.other statusFiles desk
        (desk.serve side (.write inode bytes)).2 ∧
      KeepsOff statusFiles desk.host
        (desk.serve side (.write inode bytes)).2.host := by
  have keeps := keepsOff_write holding.pointed bytes
  have keepsBoth := keeps.mono (by simp [statusFiles] :
    ["status.tmp"] ⊆ statusFiles)
  have filled := file_overwrite holding.pointed bytes "status.tmp"
  rw [if_pos rfl, holding.file, Option.map_some, List.drop_nil,
    List.append_nil] at filled
  exact ⟨⟨holding.writing, holding.alone, holding.pointed, filled⟩,
    holding.yields rfl (wholeStatus_of_keepsOff keeps (by decide)) keepsBoth,
    keepsBoth⟩

/-- A thread puts the complete status that it holds in place. -/
theorem Holding.rename {inode : Nat} {bytes : Bytes} {desk : Desk}
    (holding : Holding side inode bytes desk)
    (complete : v.StatusText bytes) :
    (desk.serve side (.rename "status.tmp" "status.json")).1 = .ok () ∧
      (desk.serve side (.rename "status.tmp" "status.json")).2.writing side =
        false ∧
      v.WholeStatus
        (desk.serve side (.rename "status.tmp" "status.json")).2.host ∧
      v.Yields side.other statusFiles desk
        (desk.serve side (.rename "status.tmp" "status.json")).2 ∧
      KeepsOff statusFiles desk.host
        (desk.serve side (.rename "status.tmp" "status.json")).2.host := by
  obtain ⟨answer, replaced, keeps⟩ :=
    rename_present holding.pointed "status.json"
  have marked : (desk.serve side
      (.rename "status.tmp" "status.json")).2.writing =
        Function.update desk.writing side false :=
    mark_rename side desk.writing "status.json"
  have whole : v.WholeStatus
      (desk.serve side (.rename "status.tmp" "status.json")).2.host := by
    intro other found
    have same := found.symm.trans (replaced.trans holding.file)
    rw [Option.some.inj same]
    exact complete
  refine ⟨answer, ?_, whole, holding.yields ?_ (fun _ => whole) keeps, keeps⟩
  · rw [marked, Function.update_self]
  · exact mark_other side desk.writing (.rename "status.tmp" "status.json")

/-- The last system call of a program. -/
theorem works_lastCall {α : Type} {context : String}
    {call : FileProgram (Except OsError α)}
    {post : Except String α → Desk → Prop} {desk : Desk}
    (last : Works v side
      (fun reply after =>
        match reply with
        | .ok value => ∀ later, v.Yields side statusFiles after later →
            post (.ok value) later
        | .error error => ∀ later, v.Yields side statusFiles after later →
            post (.error (context ++ error.text)) later) call desk) :
    Works v side post (orFail context call).run desk := by
  apply shielded_bind
  apply last.mono
  intro reply after met
  cases reply with
  | ok value => exact shielded_pure met
  | error error => exact shielded_pure met

/-- Writing a complete status: it ends well, and what becomes visible is the
complete status. -/
theorem works_writeStatusFile {bytes : Bytes} (complete : v.StatusText bytes)
    (mode : Nat) {desk : Desk} (idle : desk.writing side = false) :
    Works v side
      (fun result after => result = .ok () ∧
        v.Yields side statusFiles desk after)
      (v.writeMode "status.json" bytes mode).run desk := by
  have temporary : withExtension "status.json" "tmp" = "status.tmp" := by
    decide
  unfold writeMode
  rw [temporary]
  dsimp only
  apply works_orFail
  apply shielded_perform (Op.openTruncated "status.tmp" mode)
  intro start moved turn
  obtain ⟨inode, answer, holding, yields, keeps⟩ :=
    openTruncated_inTurn (v := v) mode turn
  refine ⟨yields, fun opened opening => ?_⟩
  rw [answer]
  apply works_orFail
  apply shielded_perform (Op.write inode bytes)
  intro filling movedFilling _
  have openHolding := (holding.later opening).later movedFilling
  obtain ⟨fullHolding, fillYields, fillKeeps⟩ :=
    openHolding.write (v := v) bytes
  refine ⟨fillYields, fun filled filledMoved => ?_⟩
  dsimp only [Desk.serve, serve]
  apply works_orFail
  apply shielded_perform (Op.sync inode)
  intro syncing movedSyncing _
  have syncs : Op.Reading (.sync inode) := trivial
  have synced : v.Yields side statusFiles syncing
      (syncing.serve side (.sync inode)).2 :=
    yields_reading syncs side syncing
  refine ⟨yields_reading syncs side syncing, fun last lastMoved => ?_⟩
  dsimp only [Desk.serve, serve]
  apply works_lastCall
  apply shielded_perform (Op.rename "status.tmp" "status.json")
  intro placing movedPlacing _
  have beforeRename : v.Yields side statusFiles
      (filling.serve side (.write inode bytes)).2 placing :=
    filledMoved.trans (movedSyncing.trans
      (synced.trans (lastMoved.trans movedPlacing)))
  obtain ⟨renamed, done, whole, renameYields, renameKeeps⟩ :=
    (fullHolding.later beforeRename).rename complete
  refine ⟨renameYields, fun after movedAfter => ?_⟩
  rw [renamed]
  intro later movedLater
  have ending := movedAfter.trans movedLater
  have never : ¬desk.writing side = true := by
    rw [idle]
    exact Bool.false_ne_true
  refine ⟨rfl, (ending.mine.trans done).trans idle.symm,
    fun writing => absurd writing never, fun writing => absurd writing never,
    fun _ => ending.status whole, fun door => ?_⟩
  have opens := ((moved.files door).trans keeps).trans (opening.files door)
  have fills := (movedFilling.files door).trans fillKeeps
  have renames := (beforeRename.files door).trans renameKeeps
  exact ((opens.trans fills).trans renames).trans (ending.files door)

/-- A reading whose value the rest of the program gets, whatever it is. -/
theorem works_look {α β : Type} {program : FileProgram α}
    {next : α → Fallible β} {post : Except String β → Desk → Prop} {desk : Desk}
    (uses : Uses Op.Reading program)
    (later : ∀ value after, v.Yields side statusFiles desk after →
      Works v side post (next value).run after) :
    Works v side post (ExceptT.lift program >>= next).run desk := by
  have lifted : (ExceptT.lift program >>= next).run =
      program >>= fun value => (next value).run := ExceptT.run_bind_lift _ _
  rw [lifted]
  apply shielded_bind
  exact (works_reading uses desk).mono later

/-- What a thread leaves that only looks and writes the status. -/
theorem works_writeStatus {desk : Desk} (idle : desk.writing side = false) :
    Works v side
      (fun result after => result = .ok () ∧
        v.Yields side statusFiles desk after)
      v.writeStatus.run desk := by
  unfold writeStatus
  apply works_look (uses_reading (uses_readOrEmpty "vault.enc"))
  intro enc first moved
  apply works_look (uses_reading uses_load)
  intro sealed second movedSecond
  apply works_look (uses_reading uses_load)
  intro entries third movedThird
  apply works_look (uses_reading (uses_readToString "access.log"))
  intro log fourth movedFourth
  apply works_look (uses_reading (uses_readToString "marker.txt"))
  intro marker last movedLast
  have reached := moved.trans (movedSecond.trans
    (movedThird.trans (movedFourth.trans movedLast)))
  apply (works_writeStatusFile ⟨_, _, _, _, _, rfl⟩ 0o644
    (reached.mine.trans idle)).mono
  rintro result after ⟨answer, written⟩
  exact ⟨answer, reached.trans written⟩

theorem works_publicStatus {desk : Desk} (idle : desk.writing side = false) :
    Works v side (fun _ after => v.Yields side statusFiles desk after)
      v.publicStatus desk := by
  have aged : Op.Reading (.age "status.json") := trivial
  have fresh : Uses Op.Reading freshStatus := by
    apply uses_bind (uses_perform aged)
    intro age
    cases age with
    | none => exact uses_pure _
    | some seconds =>
        dsimp only
        split
        · exact uses_reading (uses_readToString _)
        · exact uses_pure _
  unfold publicStatus
  apply shielded_bind
  apply (works_reading fresh desk).mono
  intro text first moved
  split
  · exact shielded_pure fun later last => moved.trans last
  · apply shielded_bind
    apply (works_writeStatus (moved.mine.trans idle)).mono
    rintro _ written ⟨-, movedWritten⟩
    have uses := uses_reading (uses_readToString "status.json")
    apply shielded_bind
    apply (works_reading uses written).mono
    intro found read movedRead
    have reached := moved.trans (movedWritten.trans movedRead)
    split <;> exact shielded_pure fun later last => reached.trans last

theorem works_health {desk : Desk} (idle : desk.writing side = false) :
    Works v side (fun _ after => v.Yields side statusFiles desk after)
      v.health desk := by
  unfold health
  apply shielded_bind
  apply (works_reading (uses_reading uses_load) desk).mono
  intro entries first moved
  apply shielded_bind
  apply (works_publicStatus (moved.mine.trans idle)).mono
  intro status after movedAfter
  exact shielded_pure fun later last =>
    moved.trans (movedAfter.trans last)

end Vault
