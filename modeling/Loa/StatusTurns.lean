import Loa.JournalAccount
import Loa.StatusWriters
import Loa.VaultSeal

/-!
# The door's commands beside the power thread

While the power thread writes the status once in a while, the door's thread
appends, reads and wipes.  Its own files are out of the other thread's way, so
that as long as the two take turns at `status.tmp` every append and read with
the right token succeeds.
-/

namespace Vault

open FileDirectory RustText Program
open Json (Value)

variable {v : Vault} {names : List String}

theorem Yields.file {before after : Desk} {name : String}
    (yields : v.Yields .door names before after) (off : name ∉ names) :
    after.host.file name = before.host.file name :=
  (yields.files rfl).files name off

theorem Yields.pointer {before after : Desk} {name : String}
    (yields : v.Yields .door names before after) (off : name ∉ names) :
    after.host.directory.names name = before.host.directory.names name :=
  (yields.files rfl).pointers name off

/-- A step on other files than the status. -/
theorem yields_of_keepsOff {side : Side} {wider : List String}
    {before after : Desk} (keeps : KeepsOff names before.host after.host)
    (same : after.writing = before.writing)
    (off : ∀ name ∈ statusFiles, name ∉ names)
    (files : side = .door → names ⊆ wider) :
    v.Yields side wider before after := by
  have temporary := off "status.tmp" (by simp [statusFiles])
  refine ⟨congrFun same side, fun _ alone => ?_, fun _ _ => ⟨?_, ?_⟩,
    wholeStatus_of_keepsOff keeps (off "status.json" (by simp [statusFiles])),
    fun door => keeps.mono (files door)⟩
  · exact (congrFun same side.other).trans alone
  · exact keeps.pointers "status.tmp" temporary
  · exact keeps.files "status.tmp" temporary

/-- What a program of the door's thread finds in files of its own is what it
would find by itself. -/
theorem run_desk {α : Type} (side : Side) (program : FileProgram α)
    (desk : Desk) :
    (program.run (Desk.serve side) desk).1 =
      (program.run serve desk.host).1 := by
  induction program generalizing desk with
  | done value => rfl
  | call op next induction => exact induction _ _

theorem works_reads {α : Type} {program : FileProgram α}
    (uses : Uses (Reads names) program)
    (off : ∀ name ∈ names, name ∉ statusFiles) (desk : Desk) :
    Works v .door
      (fun value after => value = (program.run serve desk.host).1 ∧
        v.Yields .door statusFiles desk after)
      program desk := by
  rw [← run_desk .door program desk]
  apply uses.shielded_run
  · rintro op world ⟨name, member, rfl⟩
    rfl
  · exact Yields.refl
  · rintro op later ⟨name, member, rfl⟩ moved
    have same := moved.file (off name member)
    simp only [Desk.serve, serve, same]

theorem works_lookOwn {α β : Type} {program : FileProgram α}
    {next : α → Fallible β} {post : Except String β → Desk → Prop} {desk : Desk}
    (uses : Uses (Reads names) program)
    (off : ∀ name ∈ names, name ∉ statusFiles)
    (later : ∀ after, v.Yields .door statusFiles desk after →
      Works v .door post (next (program.run serve desk.host).1).run after) :
    Works v .door post (ExceptT.lift program >>= next).run desk := by
  have lifted : (ExceptT.lift program >>= next).run =
      program >>= fun value => (next value).run := ExceptT.run_bind_lift _ _
  rw [lifted]
  apply shielded_bind
  apply (works_reads uses off desk).mono
  rintro value after ⟨rfl, moved⟩
  exact later after moved

theorem works_tick {β : Type} {side : Side} {next : F64 → Fallible β}
    {post : Except String β → Desk → Prop} {desk : Desk}
    (later : ∀ now after, v.Yields side statusFiles desk after →
      Works v side post (next now).run after) :
    Works v side post (ExceptT.lift Os.clock >>= next).run desk := by
  have ticks : Op.Reading .clock := trivial
  exact works_look (uses_perform ticks) later

theorem mark_of_ne {side : Side} {writing : Side → Bool} {op : Op}
    (opens : ∀ mode, op ≠ .openTruncated "status.tmp" mode)
    (renames : ∀ target, op ≠ .rename "status.tmp" target) :
    mark side writing op = writing := by
  unfold mark
  split
  · split
    · rename_i same
      exact absurd (by rw [same]) (opens _)
    · rfl
  · split
    · rename_i same
      exact absurd (by rw [same]) (renames _)
    · rfl
  · rfl

/-- What both threads notice of a call of the door's thread on files of its
own. -/
theorem yields_own {op : Op} {desk : Desk}
    (keeps : KeepsOff names desk.host (serve op desk.host).2)
    (same : mark .door desk.writing op = desk.writing)
    (off : ∀ name ∈ statusFiles, name ∉ names) :
    v.Yields .power statusFiles desk (desk.serve .door op).2 ∧
      v.Yields .door (names ++ statusFiles) desk (desk.serve .door op).2 :=
  ⟨yields_of_keepsOff keeps same off (fun impossible => by cases impossible),
    yields_of_keepsOff keeps same off fun _ => List.subset_append_left ..⟩

/-- The door's thread has a file of its own open, with these bytes in it. -/
structure Open (name : String) (inode : Nat) (bytes : Bytes) (desk : Desk) :
    Prop where
  pointed : desk.host.directory.names name = some inode
  file : desk.host.file name = some bytes

theorem Open.later {name : String} {inode : Nat} {bytes : Bytes}
    {desk later : Desk} (opened : Open name inode bytes desk)
    (moved : v.Yields .door names desk later) (off : name ∉ names) :
    Open name inode bytes later :=
  ⟨(moved.pointer off).trans opened.pointed,
    (moved.file off).trans opened.file⟩

/-- Writing a file of the door's own whole. -/
theorem works_writeMode (name : String) (bytes : Bytes) (mode : Nat)
    (off : ∀ other ∈ statusFiles, other ∉ [withExtension name "tmp", name])
    (desk : Desk) :
    Works v .door
      (fun result after => result = .ok () ∧
        after.host.file name = some bytes ∧
        v.Yields .door ([withExtension name "tmp", name] ++ statusFiles) desk
          after)
      (v.writeMode name bytes mode).run desk := by
  unfold writeMode
  generalize withExtension name "tmp" = temporary at off
  have offTemporary : temporary ∉ statusFiles := fun member =>
    off temporary member (by simp)
  have offName : name ∉ statusFiles := fun member => off name member (by simp)
  have offOne : ∀ other ∈ statusFiles, other ∉ [temporary] :=
    fun other member same => off other member (by simp_all)
  have differ : temporary ≠ "status.tmp" := by
    rintro rfl
    exact offTemporary (by simp [statusFiles])
  have wider : statusFiles ⊆ [temporary, name] ++ statusFiles :=
    List.subset_append_right ..
  have widerOne : [temporary] ++ statusFiles ⊆
      [temporary, name] ++ statusFiles := by simp
  apply works_orFail
  apply shielded_perform (Op.openTruncated temporary mode)
  intro start movedStart _
  obtain ⟨inode, answer, pointed, empty, keeps⟩ :=
    openTruncated_pointed temporary mode start.host
  obtain ⟨opening, ownOpening⟩ := yields_own (v := v) keeps
    (mark_of_ne (by simp [differ]) (by simp)) offOne
  have opened : Open temporary inode []
      (start.serve .door (.openTruncated temporary mode)).2 := ⟨pointed, empty⟩
  refine ⟨opening, fun before movedBefore => ?_⟩
  have reply : (start.serve .door (.openTruncated temporary mode)).1 =
      .ok inode := answer
  rw [reply]
  apply works_orFail
  apply shielded_perform (Op.write inode bytes)
  intro filling movedFilling _
  have stillOpen := (opened.later movedBefore offTemporary).later movedFilling
    offTemporary
  obtain ⟨writing, ownWriting⟩ := yields_own (v := v)
    (keepsOff_write stillOpen.pointed bytes) rfl offOne
  have filled : Open temporary inode bytes
      (filling.serve .door (.write inode bytes)).2 := by
    refine ⟨stillOpen.pointed, ?_⟩
    refine (file_overwrite stillOpen.pointed bytes temporary).trans ?_
    rw [if_pos rfl, stillOpen.file, Option.map_some, List.drop_nil,
      List.append_nil]
  refine ⟨writing, fun written movedWritten => ?_⟩
  dsimp only [Desk.serve, serve]
  apply works_orFail
  apply shielded_perform (Op.sync inode)
  intro syncing movedSyncing _
  have syncs : Op.Reading (.sync inode) := trivial
  have synced : v.Yields .door statusFiles syncing
      (syncing.serve .door (.sync inode)).2 :=
    yields_reading syncs .door syncing
  refine ⟨yields_reading syncs .door syncing, fun last movedLast => ?_⟩
  dsimp only [Desk.serve, serve]
  apply works_lastCall
  apply shielded_perform (Op.rename temporary name)
  intro placing movedPlacing _
  have between := movedWritten.trans (movedSyncing.trans
    (synced.trans (movedLast.trans movedPlacing)))
  have ready := filled.later between offTemporary
  obtain ⟨renamed, replaced, keepsRename⟩ :=
    rename_present ready.pointed name
  obtain ⟨moving, ownMoving⟩ := yields_own (v := v) keepsRename
    (mark_of_ne (by simp) (by simp [differ])) off
  refine ⟨moving, fun after movedAfter => ?_⟩
  have done : (placing.serve .door (.rename temporary name)).1 = .ok () :=
    renamed
  rw [done]
  intro later movedLater
  have ending := movedAfter.trans movedLater
  refine ⟨rfl, ?_, ?_⟩
  · exact (ending.file offName).trans (replaced.trans ready.file)
  · have opens := (movedStart.mono wider).trans (ownOpening.mono widerOne)
    have fills := ((movedBefore.trans movedFilling).mono wider).trans
      (ownWriting.mono widerOne)
    have renames := (between.mono wider).trans ownMoving
    exact ((opens.trans fills).trans renames).trans (ending.mono wider)

theorem works_logAccess (event detail : String) (desk : Desk) :
    Works v .door
      (fun result after => result = .ok () ∧
        v.Yields .door (["access.log"] ++ statusFiles) desk after)
      (v.logAccess event detail).run desk := by
  have off : ∀ name ∈ statusFiles, name ∉ ["access.log"] := by decide
  have offLog : "access.log" ∉ statusFiles := by decide
  have wider : statusFiles ⊆ ["access.log"] ++ statusFiles :=
    List.subset_append_right ..
  unfold logAccess
  apply works_tick
  intro now ticked movedTicked
  apply works_orFail
  apply shielded_perform (Op.openAppend "access.log" 0o600)
  intro start movedStart _
  obtain ⟨inode, answer, pointed, keeps⟩ :=
    openAppend_pointed "access.log" 0o600 start.host
  obtain ⟨opening, ownOpening⟩ := yields_own (v := v) keeps rfl off
  refine ⟨opening, fun before movedBefore => ?_⟩
  have reply : (start.serve .door (.openAppend "access.log" 0o600)).1 =
      .ok inode := answer
  rw [reply]
  apply works_orFail
  apply shielded_perform (Op.append inode _)
  intro lining movedLining _
  have between := movedBefore.trans movedLining
  have stillPointed := (between.pointer offLog).trans pointed
  obtain ⟨writing, ownWriting⟩ := yields_own (v := v)
    (keepsOff_append stillPointed _) rfl off
  refine ⟨writing, fun lined movedLined => ?_⟩
  dsimp only [Desk.serve, serve]
  apply works_lastCall
  apply shielded_perform (Op.append inode (asBytes "\n"))
  intro ending movedEnding _
  have further := movedLined.trans movedEnding
  have lastPointed := (further.pointer offLog).trans stillPointed
  obtain ⟨closing, ownClosing⟩ := yields_own (v := v)
    (keepsOff_append lastPointed (asBytes "\n")) rfl off
  refine ⟨closing, fun after movedAfter => ?_⟩
  dsimp only [Desk.serve, serve]
  intro later movedLater
  refine ⟨rfl, ?_⟩
  have opens := ((movedTicked.trans movedStart).mono wider).trans ownOpening
  have lines := (between.mono wider).trans ownWriting
  have ends := (further.mono wider).trans ownClosing
  exact ((opens.trans lines).trans ends).trans
    ((movedAfter.trans movedLater).mono wider)

theorem works_unlink (name : String)
    (off : ∀ other ∈ statusFiles, other ∉ [name]) (desk : Desk) :
    Works v .door
      (fun result after => result = .ok () ∧ after.host.file name = none ∧
        v.Yields .door ([name] ++ statusFiles) desk after)
      (unlink name).run desk := by
  have offName : name ∉ statusFiles := fun member => off name member (by simp)
  have wider : statusFiles ⊆ [name] ++ statusFiles :=
    List.subset_append_right ..
  apply shielded_bind
  apply shielded_perform (Op.remove name)
  intro start movedStart _
  obtain ⟨answer, gone, keeps⟩ := remove_gone name start.host
  obtain ⟨removing, ownRemoving⟩ := yields_own (v := v) keeps rfl off
  refine ⟨removing, fun after movedAfter => ?_⟩
  have ends (later : Desk) (moved : v.Yields .door statusFiles after later) :
      later.host.file name = none ∧
        v.Yields .door ([name] ++ statusFiles) desk later := by
    have ending := movedAfter.trans moved
    exact ⟨(ending.file offName).trans gone,
      ((movedStart.mono wider).trans ownRemoving).trans (ending.mono wider)⟩
  obtain reply | reply := answer
  · have removed : (start.serve .door (.remove name)).1 = .ok () := reply
    rw [removed]
    exact shielded_pure fun later moved => ⟨rfl, ends later moved⟩
  · have absent : (start.serve .door (.remove name)).1 = .error .notFound :=
      reply
    rw [absent]
    exact shielded_pure fun later moved => ⟨rfl, ends later moved⟩

theorem works_fernetEncrypt (reliable : Reliable v) (plain : Bytes)
    {desk : Desk} {stored sign enc : Bytes}
    (key : desk.host.file "key.bin" = some stored)
    (halves : v.keyHalves stored = .ok (sign, enc)) :
    Works v .door
      (fun result after => (∃ token, result = .ok token ∧
        v.opened (some stored) (some (asBytes token)) = v.entriesOf plain) ∧
        v.Yields .door statusFiles desk after)
      (v.fernetEncrypt plain).run desk := by
  unfold fernetEncrypt
  apply shielded_exceptBind
  apply (works_reads (reads_readKey (List.mem_singleton_self "key.bin"))
    (by decide) desk).mono
  rintro result keyed ⟨rfl, movedKeyed⟩
  rw [run_readKey, key]
  dsimp only
  rw [halves]
  dsimp only
  apply works_orFail
  apply shielded_perform Op.random
  intro drawing movedDrawing _
  have draws : Op.Reading .random := trivial
  have drawn : v.Yields .door statusFiles drawing
      (drawing.serve .door .random).2 :=
    yields_reading draws .door drawing
  refine ⟨yields_reading draws .door drawing, fun after movedAfter => ?_⟩
  dsimp only [Desk.serve, serve]
  generalize drawing.host.draws drawing.host.used = draw
  apply works_tick
  intro now ticked movedTicked
  have reached := movedKeyed.trans (movedDrawing.trans
    (drawn.trans (movedAfter.trans movedTicked)))
  have sized : (draw.val.take 16).length = 16 := by
    rw [List.length_take, draw.property]
    rfl
  obtain ⟨cipher, enciphers, deciphers⟩ := reliable.cipher enc
    (draw.val.take 16) plain (length_enc_of_keyHalves halves) sized
  apply shielded_exceptBind
  rw [enciphers]
  refine shielded_pure fun later moved => ?_
  refine shielded_pure fun last movedLast => ⟨⟨_, rfl, ?_⟩,
    reached.trans (moved.trans movedLast)⟩
  exact opened_token halves sized deciphers

theorem Yields.loaded {before after : Desk}
    (moved : v.Yields .door names before after)
    (key : "key.bin" ∉ names) (journal : "vault.enc" ∉ names) :
    v.loaded after.host = v.loaded before.host := by
  rw [loaded_eq, loaded_eq, moved.file key, moved.file journal]

theorem works_enter (reliable : Reliable v) (entry : String) {desk : Desk}
    {before : List Value} (opens : v.loaded desk.host = some before) :
    Works v .door
      (fun result after => result = .ok (before.length + 1) ∧
        (∃ now, v.loaded after.host =
          some (before ++ [entryValue entry now])) ∧
        v.Yields .door journalFiles desk after)
      (v.enter entry).run desk := by
  have own : ∀ other ∈ statusFiles, other ∉ ["vault.tmp", "vault.enc"] := by
    decide
  have temporary : withExtension "vault.enc" "tmp" = "vault.tmp" := by decide
  unfold enter
  apply works_lookOwn reads_load (by decide)
  intro loaded movedLoaded
  rw [run_load, ← loaded_eq, opens]
  dsimp only
  apply works_tick
  intro now ticked movedTicked
  have reached := movedLoaded.trans movedTicked
  have stillOpens : v.loaded ticked.host = some before :=
    (reached.loaded (by decide) (by decide)).trans opens
  have opened := (loaded_eq _).symm.trans stillOpens
  obtain ⟨stored, ⟨sign, enc⟩, key, halves⟩ := key_of_opened opened
  unfold writeEntry
  apply shielded_exceptBind
  apply (works_fernetEncrypt reliable _ key halves).mono
  rintro _ encrypted ⟨⟨token, rfl, opensToken⟩, movedEncrypted⟩
  dsimp only
  apply shielded_exceptBind
  have writing := works_writeMode (v := v) "vault.enc"
    (asBytes token) 0o600 (by rw [temporary]; exact own) encrypted
  rw [temporary] at writing
  apply writing.mono
  rintro _ written ⟨rfl, replaced, movedWritten⟩
  have all := (reached.trans movedEncrypted).mono
    (by decide : statusFiles ⊆ journalFiles)
  refine shielded_pure fun after moved => ⟨by simp, ⟨now, ?_⟩, ?_⟩
  · rw [moved.loaded (by decide) (by decide), loaded_eq, replaced,
      movedWritten.file (by decide), movedEncrypted.file (by decide), key,
      opensToken]
    exact entriesOf_display reliable
      (proper_grown (proper_of_opened reliable opened) entry now)
  · exact (all.trans (movedWritten.mono (by decide))).trans
      (moved.mono (by decide))

theorem works_settle (count : Nat) {desk : Desk}
    (idle : desk.writing .door = false) :
    Works v .door
      (fun result after => result = .ok count ∧
        v.Yields .door (["access.log"] ++ statusFiles) desk after)
      (v.settle count).run desk := by
  have wider : statusFiles ⊆ ["access.log"] ++ statusFiles :=
    List.subset_append_right ..
  unfold settle
  apply shielded_exceptBind
  apply (works_logAccess "APPEND" _ desk).mono
  rintro _ logged ⟨rfl, movedLogged⟩
  apply shielded_exceptBind
  apply (works_writeStatus (movedLogged.mine.trans idle)).mono
  rintro _ written ⟨rfl, movedWritten⟩
  refine shielded_pure fun after moved => ⟨rfl, ?_⟩
  exact movedLogged.trans ((movedWritten.trans moved).mono wider)

theorem works_append (reliable : Reliable v) (entry : String) {desk : Desk}
    {before : List Value} (opens : v.loaded desk.host = some before)
    (idle : desk.writing .door = false) :
    Works v .door
      (fun result after => result = .ok (before.length + 1) ∧
        (∃ now, v.loaded after.host =
          some (before ++ [entryValue entry now])) ∧
        v.Yields .door journalFiles desk after)
      (v.append entry).run desk := by
  rw [append_eq]
  apply shielded_exceptBind
  apply (works_enter reliable entry opens).mono
  rintro _ entered ⟨rfl, ⟨now, grown⟩, movedEntered⟩
  apply (works_settle _ (movedEntered.mine.trans idle)).mono
  rintro _ after ⟨rfl, moved⟩
  refine ⟨rfl, ⟨now, ?_⟩, movedEntered.trans (moved.mono (by decide))⟩
  rw [moved.loaded (by decide) (by decide)]
  exact grown

theorem works_read {desk : Desk} {entries : List Value}
    (opens : v.loaded desk.host = some entries)
    (idle : desk.writing .door = false) :
    Works v .door
      (fun result after => (∃ log, result = .ok (entries, log)) ∧
        v.Yields .door (["access.log"] ++ statusFiles) desk after)
      v.read.run desk := by
  have log : ∀ name ∈ ["access.log"], name ∉ statusFiles := by decide
  unfold Vault.read
  apply works_lookOwn reads_load (by decide)
  intro looked movedLooked
  apply shielded_exceptBind
  apply (works_logAccess "READ" _ looked).mono
  rintro _ logged ⟨rfl, movedLogged⟩
  have stillOpens : v.loaded logged.host = some entries :=
    (movedLogged.loaded (by decide) (by decide)).trans
      ((movedLooked.loaded (by decide) (by decide)).trans opens)
  apply works_lookOwn reads_load (by decide)
  intro loaded movedLoaded
  rw [run_load, ← loaded_eq, stillOpens]
  apply works_lookOwn (reads_readToString (List.mem_singleton_self _)) log
  intro tail movedTail
  have reached := (movedLooked.mono (List.subset_append_right _ _)).trans
    (movedLogged.trans ((movedLoaded.trans movedTail).mono
      (List.subset_append_right _ _)))
  apply shielded_exceptBind
  apply (works_writeStatus (reached.mine.trans idle)).mono
  rintro _ written ⟨rfl, movedWritten⟩
  refine shielded_pure fun after moved => ⟨⟨_, rfl⟩, ?_⟩
  exact reached.trans ((movedWritten.trans moved).mono
    (List.subset_append_right _ _))

/-- The vault between two commands: its journal opens, or the token is gone. -/
structure Standing (v : Vault) (host : Host) : Prop where
  token : TokenWhole host
  stands : host.file "token.bin" = none ∨
    ∃ entries, v.loaded host = some entries

theorem standing_of_absent {host : Host}
    (absent : host.file "token.bin" = none) : Standing v host := by
  refine ⟨fun bytes found => ?_, .inl absent⟩
  rw [absent] at found
  cases found

theorem Standing.of_yields {before after : Desk}
    (standing : Standing v before.host)
    (moved : v.Yields .door statusFiles before after) :
    Standing v after.host := by
  have same := moved.file (by decide : "token.bin" ∉ statusFiles)
  refine ⟨fun bytes found => standing.token bytes (same.symm.trans found), ?_⟩
  rw [same, moved.loaded (by decide) (by decide)]
  exact standing.stands

/-- A right token is the seal of a journal that opens. -/
theorem Standing.loaded_of_matches {host : Host} {token : Option String}
    (standing : Standing v host) (right : Matches v host token) :
    ∃ entries, v.loaded host = some entries := by
  obtain ⟨word, -, sealing⟩ := right
  refine standing.stands.resolve_left fun absent => ?_
  rw [sealWord, absent] at sealing
  cases sealing

/-- The door's thread between two commands. -/
structure DoorIdle (v : Vault) (desk : Desk) : Prop where
  standing : Standing v desk.host
  idle : desk.writing .door = false

theorem DoorIdle.of_yields {before after : Desk} (idle : DoorIdle v before)
    (moved : v.Yields .door statusFiles before after) : DoorIdle v after :=
  ⟨idle.standing.of_yields moved, moved.mine.trans idle.idle⟩

/-- A wipe leaves no token. -/
theorem works_wipe (reason : String) {desk : Desk}
    (idle : desk.writing .door = false) :
    Works v .door (fun _ after => DoorIdle v after) (v.wipe reason).run
      desk := by
  have temporary : withExtension "vault.enc" "tmp" = "vault.tmp" := by decide
  have markerTemporary : withExtension "marker.txt" "tmp" = "marker.tmp" := by
    decide
  have sizes : Op.Reading (.size "vault.enc") := trivial
  have sized : Uses Op.Reading (sizeOrOne "vault.enc") := by
    apply uses_bind (uses_perform sizes)
    intro reply
    cases reply with
    | ok size => exact uses_pure _
    | error error => exact uses_pure _
  have stamps : Op.Reading .stamp := trivial
  unfold wipe
  apply works_look sized
  intro size measured movedMeasured
  apply shielded_exceptBind
  apply (works_unlink "key.bin" (by decide) measured).mono
  rintro _ keyless ⟨rfl, -, movedKey⟩
  apply shielded_exceptBind
  apply (works_unlink "token.bin" (by decide) keyless).mono
  rintro _ tokenless ⟨rfl, absent, movedToken⟩
  have idleTokenless : tokenless.writing .door = false :=
    movedToken.mine.trans (movedKey.mine.trans (movedMeasured.mine.trans idle))
  apply shielded_exceptBind
  apply (works_writeMode "vault.enc"
    (List.replicate size 0) 0o600
    (by rw [temporary]; decide) tokenless).mono
  rintro _ zeroed ⟨rfl, -, movedZeroed⟩
  apply works_look (uses_perform stamps)
  intro stamp stamped movedStamped
  apply shielded_exceptBind
  apply (works_writeMode "marker.txt" _ 0o644
    (by rw [markerTemporary]; decide) stamped).mono
  rintro _ marked ⟨rfl, -, movedMarked⟩
  rw [temporary] at movedZeroed
  rw [markerTemporary] at movedMarked
  apply shielded_exceptBind
  apply (works_logAccess "WIPED" reason marked).mono
  rintro _ logged ⟨rfl, movedLogged⟩
  have idleLogged : logged.writing .door = false :=
    movedLogged.mine.trans (movedMarked.mine.trans
      (movedStamped.mine.trans (movedZeroed.mine.trans idleTokenless)))
  have absentLogged : logged.host.file "token.bin" = none := by
    rw [movedLogged.file (by decide), movedMarked.file (by decide),
      movedStamped.file (by decide), movedZeroed.file (by decide), absent]
  apply (works_writeStatus idleLogged).mono
  rintro _ after ⟨-, moved⟩
  exact ⟨standing_of_absent ((moved.file (by decide)).trans absentLogged),
    moved.mine.trans idleLogged⟩

/-- The answer of an append or a read that succeeds. -/
def Succeeds (out : Cortex.Out) : Prop :=
  out.status = 200 ∧ out.body.get "ok" = some (.bool true)

theorem works_sealedCommand {token : Option String} {reason : String}
    {answer : FileProgram Value} {desk : Desk} (idle : DoorIdle v desk)
    (answers : ∀ after entries, v.loaded after.host = some entries →
      DoorIdle v after →
        Works v .door
          (fun body last => DoorIdle v last ∧
            body.get "ok" = some (.bool true))
          answer after) :
    Works v .door
      (fun out after => DoorIdle v after ∧
        (Matches v desk.host token → Succeeds out))
      (Cortex.sealedCommand v token reason answer) desk := by
  obtain ⟨checked, -⟩ := run_checkToken idle.standing.token token
  unfold Cortex.sealedCommand
  apply shielded_bind
  apply (works_reads (reads_checkToken _) (by decide) desk).mono
  rintro right after ⟨rfl, moved⟩
  split
  · rename_i same
    obtain ⟨entries, opens⟩ :=
      idle.standing.loaded_of_matches (checked.mp same)
    apply shielded_bind
    apply (answers after entries
      ((moved.loaded (by decide) (by decide)).trans opens)
      (idle.of_yields moved)).mono
    rintro body answered ⟨still, told⟩
    exact shielded_pure fun later last =>
      ⟨still.of_yields last, fun _ => ⟨rfl, told⟩⟩
  · rename_i differ
    apply shielded_bind
    apply (works_wipe reason (idle.of_yields moved).idle).mono
    intro _ wiped still
    exact shielded_pure fun later last =>
      ⟨still.of_yields last, fun right => absurd (checked.mpr right) differ⟩

theorem works_appendResponse (reliable : Reliable v) (entry : String)
    {desk : Desk} {entries : List Value}
    (opens : v.loaded desk.host = some entries) (idle : DoorIdle v desk) :
    Works v .door
      (fun body last => DoorIdle v last ∧ body.get "ok" = some (.bool true))
      (v.appendResponse entry) desk := by
  unfold appendResponse
  apply shielded_bind
  apply (works_append reliable entry opens idle.idle).mono
  rintro _ after ⟨rfl, ⟨now, grown⟩, moved⟩
  have token : TokenWhole after.host := fun bytes found =>
    idle.standing.token bytes ((moved.file (by decide)).symm.trans found)
  have still : DoorIdle v after :=
    ⟨⟨token, .inr ⟨_, grown⟩⟩, moved.mine.trans idle.idle⟩
  exact shielded_pure fun later last => ⟨still.of_yields last, rfl⟩

theorem works_readResponse {desk : Desk} {entries : List Value}
    (opens : v.loaded desk.host = some entries) (idle : DoorIdle v desk) :
    Works v .door
      (fun body last => DoorIdle v last ∧ body.get "ok" = some (.bool true))
      v.readResponse desk := by
  unfold readResponse
  apply shielded_bind
  apply (works_read opens idle.idle).mono
  rintro _ after ⟨⟨log, rfl⟩, moved⟩
  have token : TokenWhole after.host := fun bytes found =>
    idle.standing.token bytes ((moved.file (by decide)).symm.trans found)
  have still : DoorIdle v after :=
    ⟨⟨token, .inr ⟨_, (moved.loaded (by decide) (by decide)).trans opens⟩⟩,
      moved.mine.trans idle.idle⟩
  exact shielded_pure fun later last => ⟨still.of_yields last, rfl⟩

theorem works_behind (reliable : Reliable v) {answer : FileProgram Value}
    (behind : Behind v answer) {desk : Desk} {entries : List Value}
    (opens : v.loaded desk.host = some entries) (idle : DoorIdle v desk) :
    Works v .door
      (fun body last => DoorIdle v last ∧ body.get "ok" = some (.bool true))
      answer desk := by
  cases behind with
  | read => exact works_readResponse opens idle
  | append entry => exact works_appendResponse reliable entry opens idle

/-- A command that does not ask for the token leaves the door idle. -/
theorem works_of_not_asks {cx : Cortex} {command : Command}
    (quiet : ¬command.Asks) {desk : Desk} (idle : DoorIdle v desk) :
    Works v .door (fun _ after => DoorIdle v after) (command.program v cx)
      desk := by
  have done (dispatched : Cortex.Dispatched) :
      Works v .door (fun _ after => DoorIdle v after) (pure dispatched) desk :=
    shielded_pure fun later moved => idle.of_yields moved
  unfold Command.program Cortex.dispatch
  split
  · exact done _
  split
  · exact done _
  split
  · exact done _
  split
  · apply shielded_bind
    apply (works_health idle.idle).mono
    intro body after moved
    exact shielded_pure fun later last =>
      (idle.of_yields moved).of_yields last
  split
  · rename_i appending
    split
    · exact done _
    · rename_i entry found
      exact absurd (Or.inr ⟨appending, entry, found⟩) quiet
  split
  · rename_i reading
    exact absurd (Or.inl reading) quiet
  · exact done _

/-- Every command leaves the door idle, and an append or a read with the right
token has succeeded. -/
theorem works_command (reliable : Reliable v) (cx : Cortex) (command : Command)
    {desk : Desk} (idle : DoorIdle v desk) :
    Works v .door
      (fun dispatched after => DoorIdle v after ∧
        (command.Asks → Matches v desk.host command.token →
          Succeeds dispatched.out))
      (command.program v cx) desk := by
  by_cases asks : command.Asks
  · obtain ⟨reason, answer, behind, same⟩ := program_of_asks (v := v) asks
    rw [same]
    apply shielded_bind
    apply (works_sealedCommand idle fun after entries opens still =>
      works_behind reliable behind opens still).mono
    rintro out after ⟨still, succeeds⟩
    exact shielded_pure fun later last =>
      ⟨still.of_yields last, fun _ right => succeeds right⟩
  · apply (works_of_not_asks asks idle).mono
    exact fun _ after still => ⟨still, fun impossible => absurd impossible asks⟩

/-- The door's thread with its commands and the power thread with its public
status. -/
def twoThreads (v : Vault) : Workshop Op Reply Side Desk where
  Job
    | .door => Cortex × Command
    | .power => Unit
  Result
    | .door => Cortex.Dispatched
    | .power => Value
  program
    | .door => fun (cx, command) => command.program v cx
    | .power => fun _ => v.publicStatus
  serve := Desk.serve

/-- What the two threads promise each other. -/
def turns (reliable : Reliable v) : Contract (twoThreads v) InTurn where
  rely side := v.Yields side statusFiles
  guarantee side := v.Yields side.other statusFiles
  idle
    | .door => DoorIdle v
    | .power => fun desk => desk.writing .power = false
  answers
    | .door => fun job began dispatched =>
        job.2.Asks → Matches v began.host job.2.token →
          Succeeds dispatched.out
    | .power => fun _ _ _ => True
  refl _ := inferInstance
  trans _ := inferInstance
  spares differ guaranteed := by
    rw [Side.eq_other_of_ne differ]
    exact guaranteed
  works
    | .door => fun (cx, command) desk idle =>
        works_command reliable cx command idle
    | .power => fun _ desk idle => by
        apply (works_publicStatus idle).mono
        exact fun _ after moved => ⟨moved.mine.trans idle, trivial⟩

/-- A host on which nobody is writing the status. -/
def Desk.quiet (host : Host) : Desk :=
  ⟨host, fun _ => false⟩

/-- Only complete statuses are visible, and when the door's thread has come to
the end of an append or a read with the right token, it has succeeded. -/
structure Undisturbed (v : Vault) (shift : (twoThreads v).Shift) : Prop where
  status : v.WholeStatus shift.world.host
  answer : ∀ dispatched, (shift.workers .door).rest = .done dispatched →
    (shift.workers .door).job.2.Asks →
      Matches v (shift.workers .door).began.host
        (shift.workers .door).job.2.token →
      Succeeds dispatched.out

/-- In a run in which the threads take turns at `status.tmp` neither disturbs
the other. -/
theorem undisturbed_in_turn (reliable : Reliable v) {host : Host}
    (standing : Standing v host) (whole : v.WholeStatus host)
    {jobs : (side : Side) → (twoThreads v).Job side}
    {shift : (twoThreads v).Shift}
    (run : (twoThreads v).Run InTurn
      ((twoThreads v).opening jobs (Desk.quiet host)) shift) :
    Undisturbed v shift := by
  have idle : ∀ side, (turns reliable).idle side (Desk.quiet host) := by
    intro side
    cases side with
    | door => exact ⟨standing, rfl⟩
    | power => rfl
  obtain ⟨stillWhole, working⟩ := (turns reliable).onTheWay_run
    (fun side _ _ kept => (kept : v.Yields _ _ _ _).status) idle whole run
  exact ⟨stillWhole, fun dispatched finished =>
    (working .door).answer finished⟩

/-- One command for the door's thread. -/
def tasks (v : Vault) (cx : Cortex) (command : Command) :
    (side : Side) → (twoThreads v).Job side
  | .door => (cx, command)
  | .power => ()

theorem wholeStatus_writeStatus (host : Host) :
    v.WholeStatus (run serve v.writeStatus.run host).2 := by
  obtain ⟨-, -, written⟩ := (guarded_writeStatus (v := v) host).run_post
  intro bytes found
  rw [written, Option.some.injEq] at found
  exact ⟨_, _, _, _, _, found.symm⟩

/-- A boot that ends well has written a complete status. -/
theorem wholeStatus_ensure {host : Host}
    (ended : (run serve v.ensure.run host).1 = .ok ()) :
    v.WholeStatus (run serve v.ensure.run host).2 := by
  obtain ⟨furnish, split⟩ : ∃ furnish : Fallible Unit,
      v.ensure = furnish >>= fun _ => v.writeStatus := by
    refine ⟨do
      orFail "vault dir: " Os.createDir
      ensureFile "key.bin" do
        let raw ← rand32
        v.writeMode "key.bin" (asBytes (Base64Url.encode raw.val)) 0o600
      ensureFile "token.bin" do
        let raw ← rand32
        v.writeMode "token.bin" raw.val 0o600
      ensureFile "vault.enc" do
        let token ← v.fernetEncrypt (asBytes "[]")
        v.writeMode "vault.enc" (asBytes token) 0o600, ?_⟩
    unfold ensure
    simp only [LawfulMonad.bind_assoc]
  rw [split, run_exceptBind] at ended ⊢
  rcases furnished : run serve furnish.run host with ⟨error | ⟨⟩, now⟩
  · rw [furnished] at ended
    cases ended
  · exact wholeStatus_writeStatus now

namespace Vectors

/-- A host on which a status is two seconds old whenever it is looked at. -/
def slow : Host :=
  { blank with ages := fun _ => 2 }

/-- The vault that a boot makes on it. -/
noncomputable def booted : Host :=
  boot slow

/-- The word that opens it. -/
def word : String :=
  hexEncode (vault.crypto.hmac (List.replicate 32 7) SEAL_DOMAIN).val

theorem logHolds_slow : LogHolds slow "" :=
  rfl

theorem booted_ensured :
    (run serve scribe.ensure.run slow).1 = .ok () ∧
      Sound scribe booted [] "" ∧ TrueStatus scribe booted := by
  rw [booted, boot]
  exact ensured_scribe rfl rfl logHolds_slow

theorem loaded_booted : scribe.loaded booted = some [] :=
  (loaded_eq booted).trans booted_ensured.2.1.journal

theorem token_booted : booted.file "token.bin" = some (List.replicate 32 7) := by
  rw [booted, boot]
  obtain ⟨booting, ready⟩ := (guarded_ensure (v := scribe) slow).run_post
  have present := (ready booted_ensured.1).token
  obtain same | ⟨-, index, -, made⟩ := booting.token
  · have absent : slow.file "token.bin" = none := rfl
    rw [same, absent] at present
    cases present
  · exact made

theorem wholeStatus_booted : scribe.WholeStatus booted := by
  rw [booted, boot]
  exact wholeStatus_ensure booted_ensured.1

theorem standing_booted : Standing scribe booted := by
  refine ⟨fun bytes found => ?_, .inr ⟨[], loaded_booted⟩⟩
  rw [token_booted, Option.some.injEq] at found
  rw [← found, List.length_replicate]

theorem matches_booted : Matches scribe booted (some word) := by
  refine ⟨word, rfl, ?_⟩
  rw [sealWord, token_booted]
  rfl

/-- An append with the right token. -/
def hello : Command :=
  ⟨"vault.append", .object [("entry", .string "hello")], some word⟩

/-- The door's thread appends and the power thread looks at the status. -/
noncomputable def began : (twoThreads scribe).Shift :=
  (twoThreads scribe).opening (tasks scribe {} hello) (Desk.quiet booted)

/-- The append, while the power thread waits. -/
noncomputable def appended : Cortex.Dispatched × Desk :=
  (hello.program scribe {}).run (Desk.serve .door) (Desk.quiet booted)

theorem run_appended :
    (twoThreads scribe).Run InTurn began
      (began.turn .door { began.workers .door with rest := .done appended.1 }
        appended.2) := by
  have keeps (op : Op) (desk : Desk) (waits : desk.writing .power = false) :
      (desk.serve .door op).2.writing .power = false :=
    (mark_other .door desk.writing op).trans waits
  have permits (op : Op) (desk : Desk) (waits : desk.writing .power = false) :
      InTurn .door desk op := fun _ _ => waits
  have reached := (Workshop.Run.start : (twoThreads scribe).Run InTurn began
    began).reaches .door
  have whole : (began.workers .door).rest =
      (hello.program scribe {} : FileProgram Cortex.Dispatched) >>= pure :=
    (bind_pure _).symm
  rw [whole] at reached
  exact reached.alone keeps permits rfl

theorem undisturbed_in_turn_booted :
    Undisturbed scribe
      (began.turn .door { began.workers .door with rest := .done appended.1 }
        appended.2) :=
  undisturbed_in_turn reliable_scribe standing_booted wholeStatus_booted
    run_appended

end Vectors

end Vault
