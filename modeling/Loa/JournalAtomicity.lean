import Loa.FailingCall
import Loa.JournalAccount

/-!
# An append with a failing call

A call that fails before the journal's rename ends the append with an error and
leaves the old journal.  Behind the rename the entry is in the journal, and the
log and the status are still to be written: a call that fails there and is not a
mere read ends the append with the same error, although the entry is in.
-/

namespace Vault

open FileDirectory RustText Program
open Json (Value)

variable {v : Vault}

/-- A system call that fails with an error; of a write some bytes may have gone
out before.  The clock does not fail. -/
def failing (error : OsError) (part : Nat) : (op : Op) → Host → Reply op × Host
  | .createDir, host => (.error error, host)
  | .present _, host => (false, host)
  | .read _, host => (.error error, host)
  | .size _, host => (.error error, host)
  | .age _, host => (none, host)
  | .openTruncated _ _, host => (.error error, host)
  | .openAppend _ _, host => (.error error, host)
  | .write file bytes, host =>
      (.error error, (serve (.write file (bytes.take part)) host).2)
  | .append file bytes, host =>
      (.error error, (serve (.append file (bytes.take part)) host).2)
  | .sync _, host => (.error error, host)
  | .rename _ _, host => (.error error, host)
  | .remove _, host => (.error error, host)
  | .random, host => (.error error, host)
  | .clock, host => serve .clock host
  | .stamp, host => serve .stamp host

/-- The calls that read the time. -/
def Timing : Op → Prop
  | .clock | .stamp => True
  | _ => False

/-- The calls that write a file, from its opening to its renaming. -/
def Filing : Op → Prop
  | .openTruncated _ _ | .openAppend _ _ | .write _ _ | .append _ _ | .sync _
  | .rename _ _ => True
  | _ => False

theorem failing_timing {error : OsError} {part : Nat} (op : Op) (host : Host)
    (timing : Timing op) : failing error part op host = serve op host := by
  cases op <;> first
    | exact timing.elim
    | rfl

theorem agreeOff_failing_looking {error : OsError} {part : Nat} {op : Op}
    (looking : Looking op) (host : Host) :
    AgreeOff [] host (failing error part op host).2 := by
  obtain ⟨name, rfl⟩ := looking
  exact AgreeOff.refl [] host

section Stops

variable (error : OsError) (part : Nat)

/-- A call that fails ends the program with an error, and only the named files
differ from the start. -/
def Stops {α : Type} (names : List String) (program : Fallible α) : Prop :=
  ∀ host, OneFault serve (failing error part)
    (fun op result after => ¬Timing op →
      (∃ text, result = .error text) ∧ AgreeOff names host after)
    program.run host

variable {error part} {α β : Type} {names : List String}

theorem stops_pure (result : Except String α) :
    Stops error part names (ExceptT.mk (pure result)) :=
  fun host => oneFault_pure result host

/-- What comes first stops the whole. -/
theorem Stops.first {program : Fallible α} {next : α → Fallible β}
    (early : Stops error part names program) (host : Host)
    (late : ∀ value, (run serve program.run host).1 = .ok value →
      OneFault serve (failing error part)
        (fun op result after => ¬Timing op →
          (∃ text, result = .error text) ∧ AgreeOff names host after)
        (next value).run (run serve program.run host).2) :
    OneFault serve (failing error part)
      (fun op result after => ¬Timing op →
        (∃ text, result = .error text) ∧ AgreeOff names host after)
      (program >>= next).run host := by
  refine oneFault_exceptBind ?_ late
  apply (early host).mono
  intro op result after ended
  cases result with
  | error text => exact fun timeless => ⟨⟨text, rfl⟩, (ended timeless).2⟩
  | ok value =>
      intro timeless
      obtain ⟨⟨text, impossible⟩, -⟩ := ended timeless
      cases impossible

theorem stops_bind {program : Fallible α} {next : α → Fallible β}
    (early : Stops error part names program)
    (confined : Confined names program.run)
    (late : ∀ value, Stops error part names (next value)) :
    Stops error part names (program >>= next) := by
  intro host
  apply early.first host
  intro value _
  apply (late value _).mono
  intro op result after ended timeless
  obtain ⟨failed, agree⟩ := ended timeless
  exact ⟨failed, (confined.files host).run_post.1.trans agree⟩

theorem Stops.mono {program : Fallible α} {wider : List String}
    (stops : Stops error part names program) (included : names ⊆ wider) :
    Stops error part wider program := by
  intro host
  apply (stops host).mono
  intro op result after ended timeless
  obtain ⟨failed, agree⟩ := ended timeless
  exact ⟨failed, agree.mono included⟩

theorem stops_timing {op : Op} (timing : Timing op) :
    Stops error part names
      (ExceptT.lift (perform op) : Fallible (Reply op)) := by
  intro host
  apply oneFault_bind
  · exact oneFault_perform op fun timeless => absurd timing timeless
  · exact oneFault_pure _ _

end Stops

theorem oneFault_orFail {α : Type} {error : OsError} {part : Nat}
    {ends : Op → Except String α → Host → Prop} {context : String}
    {call : FileProgram (Except OsError α)} {host : Host}
    (ended : OneFault serve (failing error part)
      (fun op reply after =>
        match reply with
        | .ok value => ends op (.ok value) after
        | .error error => ends op (.error (context ++ error.text)) after)
      call host) :
    OneFault serve (failing error part) ends (orFail context call).run
      host := by
  apply oneFault_bind
  · apply ended.mono
    intro op reply after met
    cases reply with
    | ok value => exact met
    | error error => exact met
  · cases (call.run serve host).1 with
    | ok value => exact oneFault_pure _ _
    | error error => exact oneFault_pure _ _

section Entering

variable {error : OsError} {part : Nat}

theorem stops_readKey : Stops error part [] v.readKey := by
  unfold readKey
  intro host
  apply oneFault_exceptBind
  · apply oneFault_orFail
    apply oneFault_perform (Op.read "key.bin")
    exact fun _ => ⟨⟨_, rfl⟩, AgreeOff.refl [] host⟩
  · exact fun stored _ => oneFault_pure _ _

theorem stops_fernetDecrypt (token : String) :
    Stops error part [] (v.fernetDecrypt token) := by
  unfold fernetDecrypt
  apply stops_bind (stops_pure _) (confined_pure _)
  intro blob
  apply stops_bind stops_readKey (confined_looking uses_readKey)
  rintro ⟨sign, enc⟩
  exact stops_pure _

/-- A load with a failing call finds nothing. -/
theorem oneFault_load (host : Host) :
    OneFault serve (failing error part)
      (fun op result after => ¬Timing op →
        result = none ∧ AgreeOff [] host after) v.load host := by
  unfold load
  apply oneFault_bind
  · apply oneFault_bind
    · apply oneFault_perform (Op.read "vault.enc")
      exact fun _ => ⟨rfl, AgreeOff.refl [] host⟩
    · split <;> exact oneFault_pure _ _
  cases (run serve (readToString "vault.enc") host).1 with
  | none => exact oneFault_pure _ _
  | some token =>
      rw [run_readToString]
      apply oneFault_bind
      · apply (stops_fernetDecrypt (trim token) host).mono
        intro op result after ended timeless
        obtain ⟨⟨text, rfl⟩, agree⟩ := ended timeless
        exact ⟨rfl, agree⟩
      · split <;> exact oneFault_pure _ _

theorem stops_fernetEncrypt (plain : Bytes) :
    Stops error part [] (v.fernetEncrypt plain) := by
  have draws : Op.Reading .random := trivial
  have ticks : Op.Reading .clock := trivial
  have timing : Timing .clock := trivial
  unfold fernetEncrypt
  apply stops_bind stops_readKey (confined_looking uses_readKey)
  rintro ⟨sign, enc⟩
  apply stops_bind _ (confined_reading (uses_orFail (uses_perform draws)))
  · intro draw
    apply stops_bind (stops_timing timing)
      (confined_lift (confined_reading (uses_perform ticks)))
    intro now
    apply stops_bind (stops_pure _) (confined_pure _)
    intro cipher
    exact stops_pure _
  · intro host
    apply oneFault_orFail
    apply oneFault_perform Op.random
    exact fun _ => ⟨⟨_, rfl⟩, AgreeOff.refl [] host⟩

/-- Writing a file whole stops with only the temporary file changed. -/
theorem stops_writeMode (name : String) (bytes : Bytes) (mode : Nat) :
    Stops error part [withExtension name "tmp"]
      (v.writeMode name bytes mode) := by
  unfold writeMode
  generalize withExtension name "tmp" = temporary
  intro host
  apply oneFault_exceptBind
  · apply oneFault_orFail
    apply oneFault_perform (Op.openTruncated temporary mode)
    exact fun _ => ⟨⟨_, rfl⟩, AgreeOff.refl _ host⟩
  intro file opened
  obtain ⟨inode, answer, pointed, -, opening⟩ :=
    openTruncated_pointed temporary mode host
  have afterOpen := opening.toAgreeOff
  have served : serve (.openTruncated temporary mode) host =
      (.ok inode, (serve (.openTruncated temporary mode) host).2) :=
    Prod.ext answer rfl
  rw [run_orFail, run_perform, served] at opened ⊢
  obtain rfl : inode = file := Except.ok.inj opened
  generalize (serve (.openTruncated temporary mode) host).2 = emptied
    at pointed afterOpen
  apply oneFault_exceptBind
  · apply oneFault_orFail
    apply oneFault_perform (Op.write inode bytes)
    exact fun _ => ⟨⟨_, rfl⟩, afterOpen.trans
      (keepsOff_write pointed (bytes.take part)).toAgreeOff⟩
  intro _ _
  have afterWrite := afterOpen.trans (keepsOff_write pointed bytes).toAgreeOff
  apply oneFault_exceptBind
  · apply oneFault_orFail
    apply oneFault_perform (Op.sync inode)
    exact fun _ => ⟨⟨_, rfl⟩, afterWrite⟩
  intro _ _
  apply oneFault_orFail
  apply oneFault_perform (Op.rename temporary name)
  exact fun _ => ⟨⟨_, rfl⟩, afterWrite⟩

theorem stops_enter (entry : String) :
    Stops error part ["vault.tmp"] (v.enter entry) := by
  intro host
  unfold enter
  apply oneFault_exceptLift
  · apply (oneFault_load host).mono
    intro op result after ended timeless
    obtain ⟨rfl, agree⟩ := ended timeless
    exact ⟨⟨_, rfl⟩, agree.mono (List.nil_subset _)⟩
  rw [run_load]
  dsimp only
  cases v.opened (host.file "key.bin") (host.file "vault.enc") with
  | none => exact oneFault_pure _ _
  | some before =>
      have ticks : Op.Reading .clock := trivial
      have timing : Timing .clock := trivial
      have temporary : withExtension "vault.enc" "tmp" = "vault.tmp" := by
        decide
      have writes : Stops error part ["vault.tmp"]
          (do
            let now ← ExceptT.lift Os.clock
            v.writeEntry before entry now) := by
        apply stops_bind (stops_timing timing)
          (confined_lift (confined_reading (uses_perform ticks)))
        intro now
        unfold writeEntry
        apply stops_bind
          ((stops_fernetEncrypt _).mono (List.nil_subset _))
          ((confined_fernetEncrypt _).mono (List.nil_subset _))
        intro token host
        rw [← temporary]
        apply (stops_writeMode "vault.enc" _ 0o600).first host
        exact fun _ _ => oneFault_pure _ _
      exact writes host

end Entering

/-- A program ends with an error, when the failing call files something, and
returns otherwise. -/
inductive Verdict {α : Type} (returns : α → Prop) (op : Op) :
    Except String α → Prop
  | failed (filing : Filing op) (text : String) : Verdict returns op (.error text)
  | returned (other : ¬Filing op) {value : α} (right : returns value) :
      Verdict returns op (.ok value)

section Settling

variable (error : OsError) (part : Nat)

/-- The program returns well, and with one failing call it ends with the
verdict on that call.  Only the named files change. -/
structure Late {α : Type} (names : List String) (returns : α → Prop)
    (program : Fallible α) : Prop where
  confined : Confined names program.run
  ends : ∀ host, ∃ value,
    (run serve program.run host).1 = .ok value ∧ returns value
  faulty : ∀ host, OneFault serve (failing error part)
    (fun op result after =>
      Verdict returns op result ∧ AgreeOff names host after)
    program.run host

variable {error part} {α β : Type} {names : List String}

/-- A program that stops at every failing call, the clock apart. -/
theorem late_of_stops {program : Fallible Unit}
    (stops : Stops error part names program)
    (confined : Confined names program.run)
    (ends : ∀ host, (run serve program.run host).1 = .ok ())
    (uses : Uses (fun op => Filing op ∨ Timing op) program.run) :
    Late error part names (fun _ => True) program := by
  refine ⟨confined, fun host => ⟨(), ends host, trivial⟩, fun host => ?_⟩
  apply OneFault.of_harmless (fun op host => failing_timing op host)
  · intro op timing
    have other : ¬Filing op := by
      cases op <;> first
        | exact timing.elim
        | exact fun filing => filing
    rw [ends host]
    exact ⟨.returned other trivial, (confined.files host).run_post.1⟩
  · apply OneFault.of_uses uses
    apply (stops host).mono
    intro op result after ended allowed timeless
    obtain ⟨⟨text, rfl⟩, agree⟩ := ended timeless
    exact ⟨.failed (allowed.resolve_right timeless) text, agree⟩

theorem late_pure (value : α) :
    Late error part names (· = value) (pure value : Fallible α) :=
  ⟨confined_pure _, fun _ => ⟨value, rfl, rfl⟩,
    fun host => oneFault_pure _ host⟩

theorem late_bind {program : Fallible α} {next : α → Fallible β}
    {returns : α → Prop} {answers : β → Prop}
    (early : Late error part names returns program)
    (late : ∀ value, Late error part names answers (next value)) :
    Late error part names answers (program >>= next) := by
  refine ⟨confined_exceptBind early.confined fun value =>
    (late value).confined, fun host => ?_, fun host => ?_⟩
  · obtain ⟨value, ended, -⟩ := early.ends host
    have first : run serve program.run host =
        (.ok value, (run serve program.run host).2) := Prod.ext ended rfl
    rw [run_exceptBind, first]
    exact (late value).ends (run serve program.run host).2
  · apply oneFault_exceptBind
    · apply (early.faulty host).mono
      rintro op result after ⟨verdict, agree⟩
      cases verdict with
      | failed filing text => exact ⟨.failed filing text, agree⟩
      | @returned other value _ =>
          obtain ⟨answer, ended, right⟩ := (late value).ends after
          refine ⟨?_,
            agree.trans ((late value).confined.files after).run_post.1⟩
          rw [ended]
          exact .returned other right
    · intro value _
      apply ((late value).faulty _).mono
      rintro op result after ⟨verdict, agree⟩
      exact ⟨verdict, (early.confined.files host).run_post.1.trans agree⟩

theorem Late.mono {program : Fallible α} {returns : α → Prop}
    {wider : List String} (late : Late error part names returns program)
    (included : names ⊆ wider) :
    Late error part wider returns program := by
  refine ⟨late.confined.mono included, late.ends, fun host => ?_⟩
  apply (late.faulty host).mono
  rintro op result after ⟨verdict, agree⟩
  exact ⟨verdict, agree.mono included⟩

/-- A look that fails is a look at nothing. -/
theorem late_look {program : FileProgram α} (uses : Uses Looking program) :
    Late error part names (fun _ => True) (ExceptT.lift program) := by
  refine ⟨confined_lift (confined_looking uses), fun host => ?_,
    fun host => ?_⟩
  · exact ⟨_, congrArg Prod.fst (run_exceptLift program host), trivial⟩
  · apply oneFault_bind
    · have kept : OneFault serve (failing error part)
          (fun op _ after => Looking op ∧ AgreeOff [] host after) program host :=
        uses.oneFault
          (fun op world looking agree => agree.trans
            (agreeOff_serve_reading looking.reading world))
          (fun op world looking agree => agree.trans
            (agreeOff_failing_looking looking world))
          (AgreeOff.refl [] host)
      apply kept.mono
      rintro op value after ⟨⟨name, rfl⟩, agree⟩
      have other : ¬Filing (.read name) := fun filing => filing
      exact ⟨.returned other trivial, agree.mono (List.nil_subset _)⟩
    · exact oneFault_pure _ _

theorem late_writeMode (name : String) (bytes : Bytes) (mode : Nat)
    (apart : name ≠ withExtension name "tmp") :
    Late error part [withExtension name "tmp", name] (fun _ => True)
      (v.writeMode name bytes mode) := by
  apply late_of_stops ((stops_writeMode name bytes mode).mono (by simp))
    (confined_writeMode name bytes mode apart)
  · intro host
    exact (guarded_writeMode name bytes mode host apart).run_post.2.1
  · unfold writeMode
    apply uses_exceptBind (uses_orFail (uses_perform (.inl trivial)))
    intro file
    apply uses_exceptBind (uses_orFail (uses_perform (.inl trivial)))
    intro _
    apply uses_exceptBind (uses_orFail (uses_perform (.inl trivial)))
    intro _
    exact uses_orFail (uses_perform (.inl trivial))

theorem stops_logAccess (event detail : String) :
    Stops error part ["access.log"] (v.logAccess event detail) := by
  have ticks : Op.Reading .clock := trivial
  have timing : Timing .clock := trivial
  unfold logAccess
  apply stops_bind (stops_timing timing)
    (confined_lift (confined_reading (uses_perform ticks)))
  intro now host
  apply oneFault_exceptBind
  · apply oneFault_orFail
    apply oneFault_perform (Op.openAppend "access.log" 0o600)
    exact fun _ => ⟨⟨_, rfl⟩, AgreeOff.refl _ host⟩
  intro file opened
  obtain ⟨inode, answer, pointed, opening⟩ :=
    openAppend_pointed "access.log" 0o600 host
  have served : serve (.openAppend "access.log" 0o600) host =
      (.ok inode, (serve (.openAppend "access.log" 0o600) host).2) :=
    Prod.ext answer rfl
  rw [run_orFail, run_perform, served] at opened ⊢
  obtain rfl : inode = file := Except.ok.inj opened
  generalize (serve (.openAppend "access.log" 0o600) host).2 = log
    at pointed opening
  apply oneFault_exceptBind
  · apply oneFault_orFail
    apply oneFault_perform (Op.append inode _)
    exact fun _ => ⟨⟨_, rfl⟩,
      (opening.trans (keepsOff_append pointed _)).toAgreeOff⟩
  intro _ _
  have afterLine := opening.trans (keepsOff_append pointed
    (asBytes (v.text.display (accessValue event detail now))))
  have stillPointed (bytes : Bytes) : (serve (.append inode bytes)
      log).2.directory.names "access.log" = some inode := pointed
  apply oneFault_orFail
  apply oneFault_perform (Op.append inode (asBytes "\n"))
  exact fun _ => ⟨⟨_, rfl⟩,
    (afterLine.trans (keepsOff_append (stillPointed _)
      ((asBytes "\n").take part))).toAgreeOff⟩

theorem late_logAccess (event detail : String) :
    Late error part ["access.log"] (fun _ => True)
      (v.logAccess event detail) := by
  apply late_of_stops (stops_logAccess event detail)
    (confined_logAccess event detail)
  · intro host
    exact (guarded_logging event detail host).run_post.2.1
  · unfold logAccess
    apply uses_exceptBind
      (uses_bind (uses_perform (.inr trivial)) fun _ => uses_pure _)
    intro now
    apply uses_exceptBind (uses_orFail (uses_perform (.inl trivial)))
    intro file
    apply uses_exceptBind (uses_orFail (uses_perform (.inl trivial)))
    intro _
    exact uses_orFail (uses_perform (.inl trivial))

theorem late_writeStatus :
    Late error part ["status.tmp", "status.json"] (fun _ => True)
      v.writeStatus := by
  unfold writeStatus
  apply late_bind (late_look (uses_readOrEmpty "vault.enc"))
  intro enc
  apply late_bind (late_look uses_load)
  intro sealed
  apply late_bind (late_look uses_load)
  intro entries
  apply late_bind (late_look (uses_readToString "access.log"))
  intro log
  apply late_bind (late_look (uses_readToString "marker.txt"))
  intro marker
  have temporary : withExtension "status.json" "tmp" = "status.tmp" := by
    decide
  rw [← temporary]
  exact late_writeMode "status.json" _ 0o644 (by decide)

theorem late_settle (count : Nat) :
    Late error part ["access.log", "status.tmp", "status.json"] (· = count)
      (v.settle count) := by
  unfold settle
  apply late_bind ((late_logAccess "APPEND" _).mono (by simp))
  intro _
  apply late_bind (late_writeStatus.mono (by simp))
  intro _
  exact late_pure count

end Settling

/-- An append of this entry answers the new number of entries with the entry
behind the old ones, or an error with the journal as it was. -/
inductive Atomic (v : Vault) (entry : String) (host : Host) :
    Except String Nat → Host → Prop
  | filed {before : List Value} {now : F64} {after : Host}
      (journal : v.loaded host = some before)
      (grown : v.loaded after = some (before ++ [entryValue entry now])) :
      Atomic v entry host (.ok (before.length + 1)) after
  | unchanged (text : String) {after : Host}
      (same : v.loaded after = v.loaded host) :
      Atomic v entry host (.error text) after

section Append

variable {error : OsError} {part : Nat}

theorem run_enter_none {host : Host} (entry : String)
    (gone : v.loaded host = none) :
    run serve (v.enter entry).run host = (.error "vault gone", host) := by
  rw [loaded_eq] at gone
  unfold enter
  rw [run_exceptBind, run_exceptLift, run_load, gone]
  rfl

/-- What an append has done when it comes to the log. -/
structure Entered (v : Vault) (entry : String) (host : Host)
    (before : List Value) : Prop where
  answer : (run serve (v.enter entry).run host).1 = .ok (before.length + 1)
  grown : ∃ now, v.loaded (run serve (v.enter entry).run host).2 =
    some (before ++ [entryValue entry now])

theorem entered_of_loaded (reliable : Reliable v) {host : Host}
    {before : List Value} (entry : String)
    (journal : v.loaded host = some before) :
    Entered v entry host before := by
  rw [loaded_eq] at journal
  obtain ⟨-, answer, filed⟩ := (guarded_enter reliable entry journal).run_post
  exact ⟨answer, _, (loaded_eq _).trans filed.journal⟩

/-- Up to the journal an append is atomic, whichever call fails. -/
theorem atomic_enter (reliable : Reliable v) (entry : String) (host : Host)
    (point : Nat) :
    Atomic v entry host
      ((v.enter entry).run.runFailing serve (failing error part) point host).1
      ((v.enter entry).run.runFailing serve (failing error part) point
        host).2 := by
  have sound : Atomic v entry host (run serve (v.enter entry).run host).1
      (run serve (v.enter entry).run host).2 := by
    cases journal : v.loaded host with
    | none =>
        rw [run_enter_none entry journal]
        exact .unchanged _ rfl
    | some before =>
        obtain ⟨answer, now, grown⟩ :=
          entered_of_loaded reliable entry journal
        rw [answer]
        exact .filed journal grown
  by_cases inside : point < ((v.enter entry).run.calls serve host).length
  · have faulty : OneFault serve (failing error part)
        (fun _ result after => Atomic v entry host result after)
        (v.enter entry).run host := by
      apply OneFault.of_harmless (fun op host => failing_timing op host)
      · exact fun _ _ => sound
      · apply (stops_enter entry host).mono
        intro op result after ended timeless
        obtain ⟨⟨text, rfl⟩, agree⟩ := ended timeless
        exact .unchanged text (loaded_of_agreeOff agree (by decide))
    exact faulty.run_failing (List.getElem?_eq_getElem inside)
  · rw [runFailing_of_le serve (failing error part) _ (not_lt.mp inside)]
    exact sound

theorem calls_orFail {α : Type} (context : String)
    (call : FileProgram (Except OsError α)) (host : Host) :
    calls serve (orFail context call).run host = calls serve call host := by
  unfold orFail
  rw [ExceptT.run_mk, calls_bind]
  cases (run serve call host).1 <;> exact List.append_nil _

theorem calls_writeMode (name : String) (bytes : Bytes) (mode : Nat)
    (host : Host) :
    ∃ file, calls serve (v.writeMode name bytes mode).run host =
      [.openTruncated (withExtension name "tmp") mode, .write file bytes,
        .sync file, .rename (withExtension name "tmp") name] := by
  unfold writeMode
  generalize withExtension name "tmp" = temporary
  obtain ⟨inode, answer, -⟩ := openTruncated_pointed temporary mode host
  have served : serve (.openTruncated temporary mode) host =
      (.ok inode, (serve (.openTruncated temporary mode) host).2) :=
    Prod.ext answer rfl
  refine ⟨inode, ?_⟩
  rw [calls_exceptBind, calls_orFail, run_orFail, run_perform, served]
  generalize (serve (.openTruncated temporary mode) host).2 = emptied
  simp only [calls_exceptBind, calls_orFail, run_orFail, run_perform,
    calls_perform, serve]
  rfl

/-- The journal's rename. -/
def journalRename : Op :=
  .rename "vault.tmp" "vault.enc"

theorem not_looking_journalRename : ¬Looking journalRename := by
  rintro ⟨name, impossible⟩
  cases impossible

theorem uses_fernetEncrypt (plain : Bytes) :
    Uses Op.Reading (v.fernetEncrypt plain).run := by
  have draws : Op.Reading .random := trivial
  have ticks : Op.Reading .clock := trivial
  unfold fernetEncrypt
  apply uses_exceptBind (uses_readKey.mono fun _ looking => looking.reading)
  rintro ⟨sign, enc⟩
  apply uses_exceptBind (uses_orFail (uses_perform draws))
  intro draw
  apply uses_exceptBind (uses_bind (uses_perform ticks) fun _ => uses_pure _)
  intro now
  apply uses_exceptBind (uses_pure _)
  intro cipher
  exact uses_pure _

theorem calls_writeEntry (reliable : Reliable v) {host : Host}
    {stored sign enc : Bytes} (before : List Value) (entry : String) (now : F64)
    (key : host.file "key.bin" = some stored)
    (halves : v.keyHalves stored = .ok (sign, enc)) :
    ∃ front, (v.writeEntry before entry now).run.calls serve host =
      front ++ [journalRename] ∧ journalRename ∉ front := by
  unfold writeEntry
  dsimp only
  generalize asBytes (v.text.display
    (.array (before ++ [entryValue entry now]))) = plain
  obtain ⟨-, token, answer, -⟩ :=
    (guarded_fernetEncrypt_opens reliable plain key halves).run_post
  have encrypted : run serve (v.fernetEncrypt plain).run host =
      (.ok token, (run serve (v.fernetEncrypt plain).run host).2) :=
    Prod.ext answer rfl
  have readings : ∀ op ∈ (v.fernetEncrypt plain).run.calls serve host,
      op.Reading :=
    (uses_fernetEncrypt plain).calls host
  rw [calls_exceptBind, encrypted]
  generalize (run serve (v.fernetEncrypt plain).run host).2 = filing
  obtain ⟨file, filed⟩ := calls_writeMode (v := v) "vault.enc" (asBytes token)
    0o600 filing
  have written : run serve (v.writeMode "vault.enc" (asBytes token) 0o600).run
      filing = (.ok (), _) :=
    Prod.ext (guarded_writeJournal (asBytes token) filing).run_post.2.1 rfl
  have temporary : withExtension "vault.enc" "tmp" = "vault.tmp" := by decide
  dsimp only
  rw [calls_exceptBind, filed, written, temporary]
  refine ⟨(v.fernetEncrypt plain).run.calls serve host ++
    [.openTruncated "vault.tmp" 0o600, .write file (asBytes token),
      .sync file], ?_, ?_⟩
  · rw [List.append_assoc]
    rfl
  · intro member
    obtain early | late := List.mem_append.mp member
    · exact readings _ early
    · simp [journalRename] at late

/-- The rename is the last call of an append up to the journal. -/
theorem calls_enter (reliable : Reliable v) {host : Host}
    {before : List Value} (entry : String)
    (journal : v.loaded host = some before) :
    ∃ front, (v.enter entry).run.calls serve host = front ++ [journalRename] ∧
      journalRename ∉ front := by
  rw [loaded_eq] at journal
  obtain ⟨stored, ⟨sign, enc⟩, key, halves⟩ := key_of_opened journal
  have spentKey : host.spend.file "key.bin" = some stored := key
  obtain ⟨front, written, off⟩ := calls_writeEntry reliable before entry
    (host.readings host.used) spentKey halves
  have loads : Uses Looking (ExceptT.lift v.load : Fallible _).run :=
    uses_bind uses_load fun _ => uses_pure _
  have looked : ∀ op ∈ (ExceptT.lift v.load : Fallible _).run.calls serve
      host, Looking op :=
    loads.calls host
  unfold enter
  rw [calls_exceptBind, run_exceptLift, run_load, journal]
  dsimp only
  rw [calls_exceptBind, run_exceptLift, run_perform]
  dsimp only [serve]
  rw [written]
  refine ⟨(ExceptT.lift v.load : Fallible _).run.calls serve host ++
    .clock :: front, ?_, ?_⟩
  · rw [List.append_assoc]
    rfl
  · intro member
    obtain early | late := List.mem_append.mp member
    · exact not_looking_journalRename (looked _ early)
    · obtain impossible | entering := List.mem_cons.mp late
      · cases impossible
      · exact off entering

/-- The call at this point is to file something, behind the journal's
rename. -/
def FailsLate (v : Vault) (entry : String) (host : Host) (point : Nat) : Prop :=
  ∃ op, ((v.append entry).run.calls serve host)[point]? = some op ∧
    Filing op ∧
    journalRename ∈ ((v.append entry).run.calls serve host).take point

/-- How an append goes on from what it has done as far as the journal. -/
def finish (v : Vault) : Except String Nat → FileProgram (Except String Nat)
  | .ok count => (v.settle count).run
  | .error text => pure (.error text)

theorem append_run (entry : String) :
    (v.append entry).run = (v.enter entry).run >>= v.finish := by
  rw [append_eq, ExceptT.run_bind]
  congr 1
  funext result
  cases result <;> rfl

theorem atomic_finish {entry : String} {host after : Host}
    {result : Except String Nat} (atomic : Atomic v entry host result after) :
    Atomic v entry host (run serve (v.finish result) after).1
      (run serve (v.finish result) after).2 := by
  cases atomic with
  | unchanged text same => exact .unchanged text same
  | @filed before now after journal grown =>
      have late := @late_settle v .notFound 0 (before.length + 1)
      obtain ⟨count, ended, rfl⟩ := late.ends after
      have agree := (late.confined.files after).run_post.1
      change Atomic v entry host (run serve (v.settle _).run after).1
        (run serve (v.settle _).run after).2
      rw [ended]
      exact .filed journal
        ((loaded_of_agreeOff agree (by decide)).trans grown)

theorem append_early (reliable : Reliable v) (entry : String) {host : Host}
    {point : Nat}
    (early : point < ((v.enter entry).run.calls serve host).length) :
    Atomic v entry host
      ((v.append entry).run.runFailing serve (failing error part) point host).1
      ((v.append entry).run.runFailing serve (failing error part) point
        host).2 := by
  rw [append_run, runFailing_bind_of_lt _ _ _ _ early]
  exact atomic_finish (atomic_enter reliable entry host point)

/-- Behind the journal an append is atomic unless the failing call files
something. -/
theorem append_late (reliable : Reliable v) {entry : String} {host : Host}
    {before : List Value} (journal : v.loaded host = some before)
    {point : Nat}
    (late : ((v.enter entry).run.calls serve host).length ≤ point) :
    Atomic v entry host
        ((v.append entry).run.runFailing serve (failing error part) point
          host).1
        ((v.append entry).run.runFailing serve (failing error part) point
          host).2 ↔
      ¬∃ op, ((v.append entry).run.calls serve host)[point]? = some op ∧
        Filing op := by
  obtain ⟨answer, now, grown⟩ := entered_of_loaded reliable entry journal
  rw [append_run, runFailing_bind_of_le _ _ _ _ late, calls_bind,
    List.getElem?_append_right late, answer]
  generalize (run serve (v.enter entry).run host).2 = entered at grown
  generalize point - ((v.enter entry).run.calls serve host).length = rest
  change Atomic v entry host
      ((v.settle (before.length + 1)).run.runFailing serve _ rest entered).1
      ((v.settle (before.length + 1)).run.runFailing serve _ rest entered).2 ↔
    ¬∃ op, ((v.settle (before.length + 1)).run.calls serve entered)[rest]? =
      some op ∧ Filing op
  cases called : ((v.settle (before.length + 1)).run.calls serve
    entered)[rest]? with
  | none =>
      rw [runFailing_of_le serve _ _ (List.getElem?_eq_none_iff.mp called)]
      simp only [reduceCtorEq, false_and, exists_false, not_false_eq_true,
        iff_true]
      exact atomic_finish (.filed journal grown)
  | some op =>
      obtain ⟨verdict, agree⟩ :=
        ((@late_settle v error part _).faulty entered).run_failing called
      have kept := (loaded_of_agreeOff agree (by decide)).trans grown
      simp only [Option.some.injEq, exists_eq_left']
      generalize (v.settle (before.length + 1)).run.runFailing serve
        (failing error part) rest entered = ended at verdict kept ⊢
      obtain ⟨result, after⟩ := ended
      dsimp only at verdict kept ⊢
      cases verdict with
      | returned other right =>
          rw [right]
          exact iff_of_true (.filed journal kept) other
      | failed filing text =>
          -- The error is told although the journal has grown.
          refine iff_of_false (fun atomic => ?_) (not_not.mpr filing)
          cases atomic with
          | unchanged _ same =>
              rw [kept, journal, Option.some.injEq] at same
              simp at same

theorem calls_append (entry : String) (host : Host) :
    (v.append entry).run.calls serve host =
      (v.enter entry).run.calls serve host ++
        (v.finish (run serve (v.enter entry).run host).1).calls serve
          (run serve (v.enter entry).run host).2 := by
  rw [append_run, calls_bind]

/-- An append to a journal that does not open only looks. -/
theorem looking_calls_append {host : Host} (entry : String)
    (gone : v.loaded host = none) :
    ∀ op ∈ (v.append entry).run.calls serve host, Looking op := by
  have loads : Uses Looking (ExceptT.lift v.load : Fallible _).run :=
    uses_bind uses_load fun _ => uses_pure _
  have opens := (loaded_eq host).symm.trans gone
  rw [calls_append, run_enter_none entry gone]
  unfold enter
  rw [calls_exceptBind, run_exceptLift, run_load, opens]
  intro op member
  apply loads.calls host op
  simpa [finish] using member

/-- The entry is in and told of, or the old journal and an error, exactly when
no call fails late. -/
theorem append_atomic_iff (reliable : Reliable v) (error : OsError)
    (part : Nat) (entry : String) (host : Host) (point : Nat) :
    Atomic v entry host
        ((v.append entry).run.runFailing serve (failing error part) point
          host).1
        ((v.append entry).run.runFailing serve (failing error part) point
          host).2 ↔
      ¬FailsLate v entry host point := by
  cases journal : v.loaded host with
  | none =>
      have gone := run_enter_none entry journal
      have punctual : ¬FailsLate v entry host point := by
        rintro ⟨op, -, -, renamed⟩
        exact not_looking_journalRename
          (looking_calls_append entry journal _ (List.mem_of_mem_take renamed))
      refine iff_of_true ?_ punctual
      by_cases early : point < ((v.enter entry).run.calls serve host).length
      · exact append_early reliable entry early
      · rw [append_run, runFailing_bind_of_le _ _ _ _ (not_lt.mp early), gone]
        dsimp only [finish]
        rw [runFailing_pure]
        exact .unchanged _ rfl
  | some before =>
      obtain ⟨front, entering, off⟩ := calls_enter reliable entry journal
      by_cases early : point < ((v.enter entry).run.calls serve host).length
      · refine iff_of_true (append_early reliable entry early) ?_
        rintro ⟨op, -, -, renamed⟩
        rw [entering, List.length_append, List.length_singleton] at early
        rw [calls_append, entering, List.append_assoc,
          List.take_append_of_le_length (by omega)] at renamed
        exact off (List.mem_of_mem_take renamed)
      · rw [append_late reliable journal (not_lt.mp early)]
        have renamed :
            journalRename ∈ ((v.append entry).run.calls serve host).take
              point := by
          rw [calls_append, List.take_append, List.mem_append]
          left
          rw [List.take_of_length_le (not_lt.mp early), entering]
          simp
        unfold FailsLate
        constructor
        · rintro none ⟨op, called, filing, -⟩
          exact none ⟨op, called, filing⟩
        · rintro none ⟨op, called, filing⟩
          exact none ⟨op, called, filing, renamed⟩

theorem calls_settle (count : Nat) (host : Host) :
    ∃ rest, (v.settle count).run.calls serve host =
      .clock :: .openAppend "access.log" 0o600 :: rest := by
  unfold settle logAccess
  rw [calls_exceptBind, calls_exceptBind, run_exceptLift, run_perform]
  dsimp only
  rw [calls_exceptBind, calls_orFail]
  exact ⟨_, rfl⟩

/-- Behind the journal an append looks at the clock and opens the log. -/
theorem call_behind_journal (reliable : Reliable v) {host : Host}
    {before : List Value} (entry : String)
    (journal : v.loaded host = some before) :
    ((v.append entry).run.calls serve host)[
        ((v.enter entry).run.calls serve host).length + 1]? =
      some (.openAppend "access.log" 0o600) := by
  obtain ⟨answer, -⟩ := entered_of_loaded reliable entry journal
  obtain ⟨rest, settling⟩ := calls_settle (v := v) (before.length + 1)
    (run serve (v.enter entry).run host).2
  rw [calls_append, List.getElem?_append_right (Nat.le_add_right _ 1), answer,
    Nat.add_sub_cancel_left]
  dsimp only [finish]
  rw [settling, List.getElem?_cons_succ, List.getElem?_cons_zero]

/-- When the log cannot be opened, the append fails and its entry is in the
journal. -/
theorem not_atomic_unopened_log (reliable : Reliable v) {host : Host}
    {before : List Value} (entry : String)
    (journal : v.loaded host = some before) :
    let point := ((v.enter entry).run.calls serve host).length + 1
    ¬Atomic v entry host
      ((v.append entry).run.runFailing serve (failing error part) point host).1
      ((v.append entry).run.runFailing serve (failing error part) point
        host).2 := by
  intro point atomic
  apply (append_late reliable journal (Nat.le_add_right _ 1)).mp atomic
  exact ⟨_, call_behind_journal reliable entry journal, trivial⟩

end Append

namespace Vectors

/-- A disk without space. -/
def full : OsError :=
  .other "No space left on device (os error 28)"

/-- A fresh vault. -/
noncomputable def fresh : Host :=
  boot blank

theorem loaded_fresh : scribe.loaded fresh = some [] :=
  (loaded_eq fresh).trans (sound_boot rfl rfl logHolds_blank).journal

/-- The third call of an append to a fresh vault fails. -/
theorem append_atomic_iff_scribe :
    Atomic scribe "hello" fresh
        ((scribe.append "hello").run.runFailing serve (failing full 0) 3
          fresh).1
        ((scribe.append "hello").run.runFailing serve (failing full 0) 3
          fresh).2 ↔
      ¬FailsLate scribe "hello" fresh 3 :=
  append_atomic_iff reliable_scribe full 0 "hello" fresh 3

/-- The log of a fresh vault cannot be opened. -/
theorem append_not_atomic :
    let point := ((scribe.enter "hello").run.calls serve fresh).length + 1
    let failed := (scribe.append "hello").run.runFailing serve
      (failing full 0) point fresh
    ((scribe.append "hello").run.calls serve fresh)[point]? =
        some (.openAppend "access.log" 0o600) ∧
      ¬Atomic scribe "hello" fresh failed.1 failed.2 :=
  ⟨call_behind_journal reliable_scribe "hello" loaded_fresh,
    not_atomic_unopened_log reliable_scribe "hello" loaded_fresh⟩

end Vectors

end Vault
