import Loa.StatusTurns

/-!
# Two writers of one temporary file

Nothing makes the two threads take turns.  When the door's thread opens
`status.tmp` while the power thread has it written, the power thread's rename
puts an empty status in place and takes the file away from the door's thread,
whose own rename then fails: the append is answered as if the vault were gone.
-/

namespace Vault

open FileDirectory RustText Program
open Json (Value)

variable {v : Vault}

theorem host_run_desk {α : Type} (side : Side) (program : FileProgram α)
    (desk : Desk) :
    (program.run (Desk.serve side) desk).2.host =
      (program.run serve desk.host).2 := by
  induction program generalizing desk with
  | done value => rfl
  | call op next induction => exact induction _ _

/-- Operations are made in any world. -/
def anyTime : Side → Desk → Op → Prop :=
  fun _ _ _ => True

/-- One thread alone can come to have this left, on this host. -/
def ComesTo (v : Vault) (start shift : (twoThreads v).Shift) (side : Side)
    (rest : FileProgram ((twoThreads v).Result side)) (host : Host) : Prop :=
  ∃ writing, (twoThreads v).Reaches anyTime start shift side rest
    ⟨host, writing⟩

section ComesTo

variable {start shift : (twoThreads v).Shift} {side : Side} {host : Host}
  {α β : Type}

theorem ComesTo.then {program : FileProgram α}
    {next : α → FileProgram ((twoThreads v).Result side)}
    (reached : ComesTo v start shift side (program >>= next) host) :
    ComesTo v start shift side (next (run serve program host).1)
      (run serve program host).2 := by
  obtain ⟨writing, reached⟩ := reached
  have moved := reached.alone (fun _ _ (held : True) => held)
    (fun _ _ _ => trivial) trivial
  refine ⟨(program.run (Desk.serve side) ⟨host, writing⟩).2.writing, ?_⟩
  have value := run_desk side program ⟨host, writing⟩
  have after := host_run_desk side program ⟨host, writing⟩
  dsimp only at value after
  rw [← value, ← after]
  exact moved

/-- The first of two programs is what comes next. -/
theorem ComesTo.first {program : Fallible α} {next : α → Fallible β}
    {after : Except String β → FileProgram ((twoThreads v).Result side)}
    (reached : ComesTo v start shift side ((program >>= next).run >>= after)
      host) :
    ComesTo v start shift side
      (program.run >>= fun result =>
        (match result with
          | .ok value => (next value).run
          | .error text => pure (.error text)) >>= after) host := by
  rw [ExceptT.run_bind, LawfulMonad.bind_assoc] at reached
  convert reached using 3 with result
  cases result <;> rfl

/-- Past a program that ends well. -/
theorem ComesTo.ok {program : Fallible α} {next : α → Fallible β}
    {after : Except String β → FileProgram ((twoThreads v).Result side)}
    {value : α} {later : Host}
    (reached : ComesTo v start shift side ((program >>= next).run >>= after)
      host)
    (ended : run serve program.run host = (.ok value, later)) :
    ComesTo v start shift side ((next value).run >>= after) later := by
  have moved := reached.first.then
  rw [ended] at moved
  exact moved

theorem run_lift_looking {program : FileProgram α} (uses : Uses Looking program)
    (host : Host) :
    run serve (ExceptT.lift program : Fallible α).run host =
      (.ok (run serve program host).1, host) := by
  have same : id (run serve program host).2 = id host :=
    uses.run_eq (fun _ current looking => serve_looking looking current) host
  rw [run_exceptLift]
  exact Prod.ext rfl same

/-- Past a look. -/
theorem ComesTo.look {program : FileProgram α} {next : α → Fallible β}
    {after : Except String β → FileProgram ((twoThreads v).Result side)}
    (reached : ComesTo v start shift side
      ((ExceptT.lift program >>= next).run >>= after) host)
    (uses : Uses Looking program) :
    ComesTo v start shift side
      ((next (run serve program host).1).run >>= after) host :=
  reached.ok (run_lift_looking uses host)

/-- What is left of writing the status when `status.tmp` is open. -/
def fill (v : Vault) (inode : Nat) (bytes : Bytes) : Fallible Unit := do
  orFail ("write " ++ v.path "status.json" ++ ": ") (Os.write inode bytes)
  orFail ("sync " ++ v.path "status.json" ++ ": ") (Os.sync inode)
  orFail ("rename " ++ v.path "status.json" ++ ": ")
    (Os.rename "status.tmp" "status.json")

/-- What is left when it is written. -/
def place (v : Vault) (inode : Nat) : Fallible Unit := do
  orFail ("sync " ++ v.path "status.json" ++ ": ") (Os.sync inode)
  orFail ("rename " ++ v.path "status.json" ++ ": ")
    (Os.rename "status.tmp" "status.json")

/-- A thread has just opened `status.tmp`. -/
structure JustOpened (host : Host) (inode : Nat) (later : Host) : Prop where
  pointed : later.directory.names "status.tmp" = some inode
  empty : later.file "status.tmp" = some []
  keeps : KeepsOff ["status.tmp"] host later

/-- Past the opening of `status.tmp`. -/
theorem ComesTo.open_status
    {after : Except String Unit → FileProgram ((twoThreads v).Result side)}
    (reached : ComesTo v start shift side (v.writeStatus.run >>= after) host) :
    ∃ inode bytes later, JustOpened host inode later ∧
      ComesTo v start shift side ((v.fill inode bytes).run >>= after) later := by
  have temporary : withExtension "status.json" "tmp" = "status.tmp" := by
    decide
  unfold writeStatus at reached
  have written := ((((reached.look (uses_readOrEmpty "vault.enc")).look
    uses_load).look uses_load).look (uses_readToString "access.log")).look
      (uses_readToString "marker.txt")
  dsimp only at written
  unfold writeMode at written
  rw [temporary] at written
  obtain ⟨inode, answer, pointed, empty, keeps⟩ :=
    openTruncated_pointed "status.tmp" 0o644 host
  have opened : run serve (orFail ("open " ++ v.path "status.json" ++ ": ")
      (Os.openTruncated "status.tmp" 0o644)).run host =
        (.ok inode, (serve (.openTruncated "status.tmp" 0o644) host).2) := by
    rw [run_orFail, run_perform]
    have served : serve (.openTruncated "status.tmp" 0o644) host =
        (.ok inode, (serve (.openTruncated "status.tmp" 0o644) host).2) :=
      Prod.ext answer rfl
    rw [served]
  exact ⟨inode, _, _, ⟨pointed, empty, keeps⟩, written.ok opened⟩

/-- One thread has come so far, and the other one goes on from here. -/
theorem ComesTo.handed_over {rest : FileProgram ((twoThreads v).Result side)}
    (reached : ComesTo v start shift side rest host) :
    ∃ next, (twoThreads v).Run anyTime start next ∧
      next.workers side = { shift.workers side with rest := rest } ∧
      next.workers side.other = shift.workers side.other ∧
      next.world.host = host := by
  obtain ⟨writing, run⟩ := reached
  exact ⟨_, run, Workshop.turn_self .., Workshop.turn_of_ne _ side.other_ne ..,
    rfl⟩

theorem comesTo_of_run (run : (twoThreads v).Run anyTime start shift)
    (side : Side) :
    ComesTo v start shift side (shift.workers side).rest shift.world.host :=
  ⟨shift.world.writing, run.reaches side⟩

end ComesTo

section Phases

variable {start shift : (twoThreads v).Shift} {host : Host}

/-- The power thread, with a stale status, up to its rename. -/
theorem power_fills
    (reached : ComesTo v start shift .power v.publicStatus host)
    (stale : run serve freshStatus host = (none, host.spend)) :
    ∃ inode after later, KeepsOff ["status.tmp"] host later ∧
      ComesTo v start shift .power ((v.place inode).run >>= after) later := by
  have spent : KeepsOff ["status.tmp"] host host.spend :=
    ⟨⟨fun _ _ => rfl, rfl, Nat.le_succ _⟩, fun _ _ => rfl⟩
  unfold publicStatus at reached
  have looked := reached.then
  rw [stale] at looked
  obtain ⟨inode, bytes, opened, just, filling⟩ := looked.open_status
  have written : run serve (orFail ("write " ++ v.path "status.json" ++ ": ")
      (Os.write inode bytes)).run opened =
        (.ok (), (serve (.write inode bytes) opened).2) := by
    rw [run_orFail, run_perform]
    rfl
  refine ⟨inode, _, _, ?_, filling.ok written⟩
  exact (spent.trans just.keeps).trans (keepsOff_write just.pointed bytes)

/-- The answer of the door to an append. -/
def answerAppend (cx : Cortex) : Except String Nat → Cortex.Dispatched
  | .ok count =>
      ⟨.good (.object [("entries", .ofNat count), ("ok", .bool true),
        ("sealed", .bool true)]), none, cx⟩
  | .error _ => ⟨.good gone, none, cx⟩

theorem program_append {args : Value} {entry : String}
    (found : (args.get "entry").bind Value.asStr = some entry)
    (token : Option String) (cx : Cortex) :
    (⟨"vault.append", args, token⟩ : Command).program v cx =
      (do
        if ← v.checkToken (token.getD "") then
          let result ← (v.append entry).run
          pure (answerAppend cx result)
        else
          let _ ← (v.wipe "append without token").run
          pure ⟨.forbidden, none, cx⟩) := by
  have unfolded : (⟨"vault.append", args, token⟩ : Command).program v cx =
      Cortex.sealedCommand v token "append without token"
        (v.appendResponse entry) >>= fun out => pure ⟨out, none, cx⟩ := by
    simp only [Command.program, Cortex.dispatch, found]
    rfl
  rw [unfolded]
  unfold Cortex.sealedCommand appendResponse
  rw [LawfulMonad.bind_assoc]
  congr 1
  funext right
  split
  · simp only [LawfulMonad.bind_assoc, LawfulMonad.pure_bind]
    congr 1
    funext result
    cases result <;> rfl
  · simp only [LawfulMonad.bind_assoc, LawfulMonad.pure_bind]

/-- The door's thread, with the right token, up to its opening of
`status.tmp`. -/
theorem door_opens (reliable : Reliable v) {before : List Value}
    (opens : v.loaded host = some before) {token : Option String}
    (right : Matches v host token) (whole : TokenWhole host) {args : Value}
    {entry : String}
    (found : (args.get "entry").bind Value.asStr = some entry) (cx : Cortex)
    (reached : ComesTo v start shift .door
      ((⟨"vault.append", args, token⟩ : Command).program v cx) host) :
    ∃ inode bytes after later,
      later.directory.names "status.tmp" = some inode ∧
      later.file "status.tmp" = some [] ∧
      (∀ text, after (.error text) = pure ⟨.good gone, none, cx⟩) ∧
      ComesTo v start shift .door ((v.fill inode bytes).run >>= after)
        later := by
  obtain ⟨checks, sameHost⟩ := run_checkToken whole token
  have checked : run serve (v.checkToken (token.getD "")) host =
      (true, host) := Prod.ext (checks.mpr right) sameHost
  rw [program_append found] at reached
  have appending := reached.then
  rw [checked] at appending
  dsimp only at appending
  rw [if_pos rfl, append_eq] at appending
  rw [loaded_eq] at opens
  obtain ⟨-, entered, -⟩ := (guarded_enter reliable entry opens).run_post
  have settling := appending.ok (Prod.ext entered rfl)
  unfold settle at settling
  obtain ⟨-, logged, -⟩ := (guarded_logging (v := v) "APPEND"
    (toString (before.length + 1))
    (run serve (v.enter entry).run host).2).run_post
  have telling := settling.ok (Prod.ext logged rfl)
  obtain ⟨inode, bytes, later, just, filling⟩ := telling.first.open_status
  exact ⟨inode, bytes, _, later, just.pointed, just.empty, fun _ => rfl,
    filling⟩

/-- The power thread takes the opened file away. -/
theorem power_places {inode : Nat}
    {after : Except String Unit → FileProgram Value} {opened : Nat}
    (pointed : host.directory.names "status.tmp" = some opened)
    (empty : host.file "status.tmp" = some [])
    (reached : ComesTo v start shift .power ((v.place inode).run >>= after)
      host) :
    ∃ rest later, later.file "status.json" = some [] ∧
      later.directory.names "status.tmp" = none ∧
      ComesTo v start shift .power rest later := by
  obtain ⟨renamed, replaced, -⟩ :=
    rename_present pointed "status.json"
  have served : serve (.rename "status.tmp" "status.json") host =
      (.ok (), (serve (.rename "status.tmp" "status.json") host).2) :=
    Prod.ext renamed rfl
  have placed : run serve (v.place inode).run host =
      (.ok (), (serve (.rename "status.tmp" "status.json") host).2) := by
    unfold place
    rw [run_exceptBind, run_orFail, run_perform]
    change run serve (orFail _ (Os.rename "status.tmp" "status.json")).run
      host = _
    rw [run_orFail, run_perform, served]
  have ended := reached.then
  rw [placed] at ended
  exact ⟨_, _, replaced.trans empty, rename_unnamed (by decide) host, ended⟩

/-- The door's thread has lost its file. -/
theorem door_fails {inode : Nat} {bytes : Bytes}
    {after : Except String Unit → FileProgram Cortex.Dispatched}
    {dispatched : Cortex.Dispatched}
    (lost : host.directory.names "status.tmp" = none)
    (told : ∀ text, after (.error text) = pure dispatched)
    (reached : ComesTo v start shift .door
      ((v.fill inode bytes).run >>= after) host) :
    ∃ later, ComesTo v start shift .door (.done dispatched) later := by
  have written : run serve (orFail ("write " ++ v.path "status.json" ++ ": ")
      (Os.write inode bytes)).run host =
        (.ok (), (serve (.write inode bytes) host).2) := by
    rw [run_orFail, run_perform]
    rfl
  have stillLost : (serve (.write inode bytes) host).2.directory.names
      "status.tmp" = none := lost
  have synced : run serve (orFail ("sync " ++ v.path "status.json" ++ ": ")
      (Os.sync inode)).run (serve (.write inode bytes) host).2 =
        (.ok (), (serve (.write inode bytes) host).2) := by
    rw [run_orFail, run_perform]
    rfl
  have refused : serve (.rename "status.tmp" "status.json")
      (serve (.write inode bytes) host).2 =
        (.error .notFound, (serve (.write inode bytes) host).2) := by
    simp only [serve] at stillLost ⊢
    rw [stillLost]
  have ended := ((reached.ok written).ok synced).then
  rw [run_orFail, run_perform, refused] at ended
  dsimp only at ended
  rw [told] at ended
  exact ⟨_, ended⟩

end Phases

/-- An append with the right token, and a power thread that finds the status
stale: there is a run in which an empty status becomes visible, and one in which
the append is answered as if the vault were gone. -/
theorem collision (reliable : Reliable v) {host : Host} {before : List Value}
    (opens : v.loaded host = some before) {token : Option String}
    (right : Matches v host token) (whole : TokenWhole host)
    (stale : run serve freshStatus host = (none, host.spend)) {args : Value}
    {entry : String}
    (found : (args.get "entry").bind Value.asStr = some entry) (cx : Cortex) :
    let start := (twoThreads v).opening
      (tasks v cx ⟨"vault.append", args, token⟩) (Desk.quiet host)
    (∃ shift, (twoThreads v).Run anyTime start shift ∧
      shift.world.host.file "status.json" = some []) ∧
    ∃ shift, (twoThreads v).Run anyTime start shift ∧
      shift.workers .door =
        { start.workers .door with rest := .done ⟨.good gone, none, cx⟩ } := by
  intro start
  -- The power thread writes its status.
  obtain ⟨inode, after, filled, keeps, filling⟩ := power_fills
    (comesTo_of_run (.start : (twoThreads v).Run anyTime start start) .power)
    stale
  obtain ⟨first, firstRun, powerFirst, doorFirst, hostFirst⟩ :=
    filling.handed_over
  have token_file := keeps.files "token.bin" (by decide)
  have stillOpens : v.loaded filled = some before :=
    (loaded_of_agreeOff keeps.toAgreeOff (by decide)).trans opens
  have stillWhole : TokenWhole filled := fun bytes same =>
    whole bytes (token_file.symm.trans same)
  have stillRight : Matches v filled token := by
    obtain ⟨word, given, sealing⟩ := right
    refine ⟨word, given, ?_⟩
    rw [sealWord, token_file]
    exact sealing
  -- The door's thread opens the same file.
  have doorStarts := comesTo_of_run firstRun .door
  rw [hostFirst] at doorStarts
  have sameDoor : first.workers .door = start.workers .door := doorFirst
  rw [sameDoor] at doorStarts
  obtain ⟨doorInode, bytes, told, opened, pointed, empty, gone, opening⟩ :=
    door_opens reliable stillOpens stillRight stillWhole found cx doorStarts
  obtain ⟨second, secondRun, doorSecond, powerSecond, hostSecond⟩ :=
    opening.handed_over
  -- The power thread renames it.
  have powerGoesOn := comesTo_of_run secondRun .power
  have samePower : second.workers .power = first.workers .power := powerSecond
  rw [hostSecond, samePower, powerFirst] at powerGoesOn
  obtain ⟨rest, taken, visible, lost, placing⟩ :=
    power_places pointed empty powerGoesOn
  obtain ⟨third, thirdRun, powerThird, doorThird, hostThird⟩ :=
    placing.handed_over
  have sameDoorThird : third.workers .door = second.workers .door := doorThird
  refine ⟨⟨third, thirdRun, by rw [hostThird, visible]⟩, ?_⟩
  -- The door's thread comes too late.
  have doorGoesOn := comesTo_of_run thirdRun .door
  rw [hostThird, sameDoorThird, doorSecond] at doorGoesOn
  obtain ⟨later, failing⟩ := door_fails lost gone doorGoesOn
  obtain ⟨last, lastRun, doorLast, -, -⟩ := failing.handed_over
  refine ⟨last, lastRun, ?_⟩
  rw [doorLast, sameDoorThird, doorSecond, sameDoor]

/-- No status is without bytes. -/
theorem not_statusText_nil : ¬v.StatusText [] := by
  rintro ⟨accessCount, entries, hash, marker, sealed, empty⟩
  have newline : '\n'.utf8Size = 1 := by decide
  have sized := congrArg List.length empty
  simp [asBytes] at sized
  omega

/-- Both runs break what a door left in peace could rely on. -/
theorem disturbed (reliable : Reliable v) {host : Host} {before : List Value}
    (opens : v.loaded host = some before) {token : Option String}
    (right : Matches v host token) (whole : TokenWhole host)
    (stale : run serve freshStatus host = (none, host.spend)) {args : Value}
    {entry : String}
    (found : (args.get "entry").bind Value.asStr = some entry) (cx : Cortex) :
    let start := (twoThreads v).opening
      (tasks v cx ⟨"vault.append", args, token⟩) (Desk.quiet host)
    (∃ shift, (twoThreads v).Run anyTime start shift ∧
      ¬v.WholeStatus shift.world.host) ∧
    ∃ shift, (twoThreads v).Run anyTime start shift ∧
      (shift.workers .door).rest = .done ⟨.good gone, none, cx⟩ ∧
      ¬Undisturbed v shift := by
  intro start
  obtain ⟨⟨seen, seenRun, empty⟩, last, lastRun, door⟩ :=
    collision reliable opens right whole stale found cx
  refine ⟨⟨seen, seenRun, fun complete => ?_⟩, last, lastRun, ?_, ?_⟩
  · exact not_statusText_nil (complete [] empty)
  · rw [door]
  intro undisturbed
  have answered := undisturbed.answer ⟨.good gone, none, cx⟩ (by rw [door])
  rw [door] at answered
  have asks : Command.Asks ⟨"vault.append", args, token⟩ :=
    .inr ⟨rfl, entry, found⟩
  obtain ⟨-, told⟩ := answered asks right
  cases told

/-- Nothing that a program does changes how old a file looks. -/
theorem ages_run {α : Type} (program : FileProgram α) (host : Host) :
    (run serve program host).2.ages = host.ages := by
  have served (op : Op) (host : Host) : (serve op host).2.ages = host.ages := by
    cases op <;> simp only [serve] <;> first
      | rfl
      | (split <;> rfl)
  induction program generalizing host with
  | done value => rfl
  | call op next induction => exact (induction _ _).trans (served op host)

/-- A status of two seconds is stale. -/
theorem TrueStatus.stale {host : Host} (told : TrueStatus v host)
    (aged : ∀ used, host.ages used = 2) :
    run serve freshStatus host = (none, host.spend) := by
  obtain ⟨entries, text, status, -, written, -⟩ := told.told
  have there : (host.directory.names "status.json").isSome := by
    cases named : host.directory.names "status.json" with
    | some inode => rfl
    | none => simp [Host.file, Directory.file, named] at written
  have served : serve (.age "status.json") host = (some 2, host.spend) := by
    simp only [serve, there, aged, if_true]
  unfold freshStatus
  rw [run_bind, run_perform, served]
  rfl

namespace Vectors

theorem stale_booted : run serve freshStatus booted = (none, booted.spend) := by
  have aged (used : Nat) : booted.ages used = 2 := by
    rw [booted, boot, ages_run]
    rfl
  exact booted_ensured.2.2.stale aged

/-- Two threads over a vault that a boot made: an empty status becomes visible,
and an append with the right token is answered as if the vault were gone. -/
theorem disturbed_booted :
    (∃ shift, (twoThreads scribe).Run anyTime began shift ∧
      ¬scribe.WholeStatus shift.world.host) ∧
    ∃ shift, (twoThreads scribe).Run anyTime began shift ∧
      (shift.workers .door).rest = .done ⟨.good gone, none, {}⟩ ∧
      ¬Undisturbed scribe shift :=
  disturbed reliable_scribe loaded_booted matches_booted standing_booted.token
    stale_booted rfl {}

end Vectors

end Vault
