import Loa.JournalFiles
import Loa.JsonPrinter

/-!
# The account of the journal

Journal, access log and public status are three files that the vault's
functions update one after the other.  Over any run of these functions the
journal is the one that the run began with and what was appended since, the log
grows by a line for every append and read, and the status tells the counts of
both.
-/

namespace Vault

open FileDirectory RustText Program
open Json (Value)

variable {v : Vault}

/-- A vault whose journal opens to these entries, its log whole lines. -/
structure Sound (v : Vault) (host : Host) (entries : List Value)
    (log : String) : Prop where
  journal : v.opened (host.file "key.bin") (host.file "vault.enc") =
    some entries
  access : LogHolds host log
  whole : WholeLines log

theorem Sound.of_agreeOff {host after : Host} {entries : List Value}
    {log : String} {names : List String} (sound : Sound v host entries log)
    (agree : AgreeOff names host after)
    (off : ∀ name ∈ ["key.bin", "vault.enc", "access.log"], name ∉ names) :
    Sound v after entries log := by
  refine ⟨?_, sound.access.of_agreeOff agree (off _ (by simp)), sound.whole⟩
  rw [agree.files "key.bin" (off _ (by simp)),
    agree.files "vault.enc" (off _ (by simp))]
  exact sound.journal

/-- The status file tells the length of the journal, the lines of the log, and
that the journal opens. -/
structure TrueStatus (v : Vault) (host : Host) : Prop where
  told : ∃ entries text status,
    v.opened (host.file "key.bin") (host.file "vault.enc") = some entries ∧
    host.file "status.json" = some (asBytes text) ∧
    v.text.parse text = .ok status ∧
    status.get "entries" = some (.ofNat entries.length) ∧
    status.get "access_count" = some (.ofNat (logLines host).length) ∧
    status.get "sealed" = some (.bool true)

/-- Writing the status of a sound vault leaves it sound and its status true. -/
theorem Sound.writeStatus (reliable : Reliable v) {host : Host}
    {entries : List Value} {log : String} (sound : Sound v host entries log) :
    Guarded serve (AgreeOff ["status.tmp", "status.json"] host)
      (fun result after => result = .ok () ∧ Sound v after entries log ∧
        TrueStatus v after)
      v.writeStatus.run host := by
  apply (guarded_writeStatus host).mono fun _ agree => agree
  rintro _ after agree ⟨rfl, written⟩
  have stillSound := sound.of_agreeOff agree (by decide)
  have sameLines : logLines after = logLines host :=
    stillSound.access.lines.trans sound.access.lines.symm
  refine ⟨rfl, stillSound, entries, _, statusOf v host, stillSound.journal,
    written, reliable.pretty _ (proper_statusOf v host), ?_, ?_, ?_⟩
  · unfold statusOf
    rw [sound.journal]
    rfl
  · rw [sameLines]
    rfl
  · unfold statusOf
    rw [sound.journal]
    rfl

/-- An access that is logged, and then the status. -/
theorem Sound.logged {host : Host} {entries : List Value} {log : String}
    (event detail : String)
    (sound : Sound v host entries log) :
    Guarded serve (AgreeOff ["access.log"] host)
      (fun result after => result = .ok () ∧ Sound v after entries
        (log ++ v.text.display
          (accessValue event detail (host.readings host.used)) ++ "\n"))
      (v.logAccess event detail).run host := by
  apply (guarded_logAccess event detail sound.access).mono fun _ agree => agree
  rintro _ after agree ⟨rfl, holds⟩
  refine ⟨rfl, ?_, holds, wholeLines_append _⟩
  rw [agree.files "key.bin" (by decide), agree.files "vault.enc" (by decide)]
  exact sound.journal

/-- One more line is in the log. -/
theorem Sound.lines_logged (reliable : Reliable v) {host after : Host}
    {entries others : List Value} {log event detail : String} {now : F64}
    (sound : Sound v host entries log)
    (logged : Sound v after others
      (log ++ v.text.display (accessValue event detail now) ++ "\n")) :
    logLines after =
      logLines host ++ [v.text.display (accessValue event detail now)] := by
  rw [logged.access.lines, sound.access.lines]
  exact lines_append_line sound.whole
    (reliable.oneLine _ (proper_accessValue event detail now))

theorem Sound.append (reliable : Reliable v) {host : Host}
    {entries : List Value} {log : String} (entry : String)
    (sound : Sound v host entries log) :
    Guarded serve (fun _ => True)
      (fun result after => result = .ok (entries.length + 1) ∧
        (∃ now log, Sound v after (entries ++ [entryValue entry now]) log) ∧
        TrueStatus v after)
      (v.append entry).run host := by
  rw [append_eq]
  apply guarded_exceptBind
  apply (guarded_enter reliable entry sound.journal).mono fun _ _ => trivial
  rintro _ filed - ⟨rfl, journal, agree⟩
  have filedSound : Sound v filed _ log :=
    ⟨journal, sound.access.of_agreeOff agree (by decide), sound.whole⟩
  unfold settle
  apply guarded_exceptBind
  apply (filedSound.logged "APPEND" _).mono fun _ _ => trivial
  rintro _ logged - ⟨rfl, loggedSound⟩
  apply guarded_exceptBind
  apply (loggedSound.writeStatus reliable).mono fun _ _ => trivial
  rintro _ after - ⟨rfl, afterSound, told⟩
  apply guarded_pure trivial
  exact ⟨rfl, ⟨_, _, afterSound⟩, told⟩

/-- The end of a log, oldest line first. -/
def lastThirty (log : List String) : List String :=
  (log.reverse.take 30).reverse

theorem getLast?_lastThirty (log : List String) :
    (lastThirty log).getLast? = log.getLast? := by
  unfold lastThirty
  rw [List.getLast?_reverse, List.head?_take, if_neg (by decide),
    List.head?_reverse]

/-- The line that a read at this moment leaves in the log. -/
def readLine (v : Vault) (host : Host) (entries : List Value) : String :=
  v.text.display (accessValue "READ" (toString entries.length)
    (host.readings host.used))

/-- What a read answers: all entries, and the end of the log, in which this
read's own line is the last. -/
structure ReadAnswer (v : Vault) (host after : Host) (entries : List Value)
    (result : Except String (List Value × List String)) : Prop where
  answer : result = .ok (entries, lastThirty (logLines after))
  logged : logLines after = logLines host ++ [readLine v host entries]
  ends : (lastThirty (logLines after)).getLast? =
    some (readLine v host entries)

theorem Sound.read (reliable : Reliable v) {host : Host}
    {entries : List Value} {log : String} (sound : Sound v host entries log) :
    Guarded serve (fun _ => True)
      (fun result after => ReadAnswer v host after entries result ∧
        (∃ log, Sound v after entries log) ∧ TrueStatus v after)
      v.read.run host := by
  unfold Vault.read
  apply guarded_lookFirst uses_load trivial
  rw [run_load, sound.journal]
  apply guarded_exceptBind
  apply (sound.logged "READ" _).mono fun _ _ => trivial
  rintro _ logging agree ⟨rfl, loggedSound⟩
  have oneMore := sound.lines_logged reliable loggedSound
  apply guarded_lookFirst uses_load trivial
  rw [run_load, loggedSound.journal]
  apply guarded_lookFirst (uses_readToString "access.log") trivial
  rw [run_readToString]
  apply guarded_exceptBind
  apply (loggedSound.writeStatus reliable).mono fun _ _ => trivial
  rintro _ after agreeStatus ⟨rfl, afterSound, told⟩
  have sameLines : logLines after = logLines logging := by
    unfold logLines
    rw [agreeStatus.files "access.log" (by decide)]
  have logged : logLines after =
      logLines host ++ [readLine v host entries] := sameLines.trans oneMore
  apply guarded_pure trivial
  refine ⟨⟨?_, logged, ?_⟩, ⟨_, afterSound⟩, told⟩
  · rw [sameLines]
    rfl
  · rw [getLast?_lastThirty, logged, List.getLast?_concat]

section Boot

variable {always : Host → Prop} {post : Except String Unit → Host → Prop}

/-- A boot makes the token at most before it goes on. -/
theorem guarded_tokenStage {next : Fallible Unit} {host : Host}
    (before : ∀ after, AgreeOff ["token.tmp", "token.bin"] host after →
      always after)
    (later : ∀ after, AgreeOff ["token.tmp", "token.bin"] host after →
      Guarded serve always post next.run after) :
    Guarded serve always post
      (do
        ensureFile "token.bin" do
          let raw ← rand32
          v.writeMode "token.bin" raw.val 0o600
        next : Fallible Unit).run host := by
  have start := AgreeOff.refl ["token.tmp", "token.bin"] host
  have written : Guarded serve (Rewriting host "token.bin"
      (withExtension "token.bin" "tmp") (host.draws host.used).val) _
      (do
        let raw ← rand32
        v.writeMode "token.bin" raw.val 0o600 : Fallible Unit).run host :=
    guarded_makeFromDraw "token.bin" (fun raw => raw.val) 0o600 host
      (by decide)
  have temporary : withExtension "token.bin" "tmp" = "token.tmp" := by decide
  rw [temporary] at written
  apply guarded_exceptBind
  apply guarded_ensureFile (before host start)
  · intro _
    exact later host start
  · intro _
    apply written.mono
    · exact fun after rewriting => before after rewriting.agreeOff
    · rintro _ after rewriting ⟨rfl, -⟩
      exact later after rewriting.agreeOff

/-- A boot that finds the journal goes on with it. -/
theorem guarded_journalStage {make next : Fallible Unit} {host : Host}
    (present : (host.file "vault.enc").isSome) (before : always host)
    (later : Guarded serve always post next.run host) :
    Guarded serve always post
      (do ensureFile "vault.enc" make; next : Fallible Unit).run host := by
  apply guarded_exceptBind
  apply guarded_ensureFile before
  · exact fun _ => later
  · intro absent
    rw [absent] at present
    cases present

end Boot

/-- A boot of a vault with its key and its journal makes the token at most, and
writes the status. -/
theorem guarded_ensure_present {host : Host}
    (key : (host.file "key.bin").isSome)
    (journal : (host.file "vault.enc").isSome) :
    Guarded serve
      (AgreeOff ["token.tmp", "token.bin", "status.tmp", "status.json"] host)
      (fun _ _ => True) v.ensure.run host := by
  have start := AgreeOff.refl
    ["token.tmp", "token.bin", "status.tmp", "status.json"] host
  unfold ensure
  have creating : Op.Reading .createDir := trivial
  apply guarded_exceptBind
  apply guarded_orFail
  apply guarded_reading creating start
  intro made agreeMade
  have whileMade := start.trans (agreeMade.mono (List.nil_subset _))
  refine ⟨whileMade, ?_⟩
  dsimp only [serve]
  apply guarded_exceptBind
  apply guarded_ensureFile whileMade
  · intro _
    have whileSealed (after : Host)
        (agree : AgreeOff ["token.tmp", "token.bin"] made after) :=
      whileMade.trans (agree.mono (by simp))
    apply guarded_tokenStage whileSealed
    intro after agree
    have now := whileSealed after agree
    have present : (after.file "vault.enc").isSome := by
      rw [now.files "vault.enc" (by decide)]
      exact journal
    apply guarded_journalStage present now
    exact (confined_writeStatus.files after).mono
      (fun _ later => now.trans (later.mono (by simp))) fun _ _ _ _ => trivial
  · intro absent
    rw [agreeMade.files "key.bin" List.not_mem_nil] at absent
    rw [absent] at key
    cases key

/-- A boot that has its key makes the journal, without entries, and then writes
the status. -/
theorem guarded_ensure_emptyJournal (reliable : Reliable v)
    (emptyList : v.text.parse "[]" = .ok (.array [])) {host : Host}
    {log : String} {draw : Block}
    (key : host.file "key.bin" = some (asBytes (Base64Url.encode draw.val)))
    (noJournal : host.file "vault.enc" = none) (access : LogHolds host log)
    (whole : WholeLines log) :
    Guarded serve (fun _ => True)
      (fun result after => result = .ok () ∧ Sound v after [] log ∧
        TrueStatus v after)
      (do
        ensureFile "vault.enc" do
          let token ← v.fernetEncrypt (asBytes "[]")
          v.writeMode "vault.enc" (asBytes token) 0o600
        v.writeStatus : Fallible Unit).run host := by
  have opensEmpty : v.entriesOf (asBytes "[]") = some [] := by
    unfold entriesOf
    rw [fromUtf8_asBytes, Option.map_some, emptyList]
  apply guarded_exceptBind
  apply guarded_ensureFile trivial
  · intro present
    rw [noJournal] at present
    cases present
  intro _
  apply guarded_exceptBind
  apply (guarded_fernetEncrypt_opens reliable _ key
    (keyHalves_encode draw)).mono fun _ _ => trivial
  rintro _ encrypted agree ⟨token, rfl, opens⟩
  apply (guarded_writeJournal (asBytes token) encrypted).mono
    fun _ _ => trivial
  rintro _ filed rewriting ⟨rfl, replaced⟩
  have sound : Sound v filed [] log := by
    refine ⟨?_, ?_, whole⟩
    · rw [rewriting.others "key.bin" (by decide) (by decide),
        agree.files "key.bin" List.not_mem_nil, key, replaced, opens,
        opensEmpty]
    · have accessLater := access.of_agreeOff agree List.not_mem_nil
      exact accessLater.of_agreeOff rewriting.agreeOff (by decide)
  exact (sound.writeStatus reliable).mono (fun _ _ => trivial)
    fun _ _ _ finished => finished

/-- A boot that makes the key and the journal leaves a sound vault without
entries. -/
theorem guarded_ensure_fresh (reliable : Reliable v)
    (emptyList : v.text.parse "[]" = .ok (.array [])) {host : Host}
    {log : String} (noKey : host.file "key.bin" = none)
    (noJournal : host.file "vault.enc" = none) (access : LogHolds host log)
    (whole : WholeLines log) :
    Guarded serve (fun _ => True)
      (fun result after => result = .ok () ∧ Sound v after [] log ∧
        TrueStatus v after)
      v.ensure.run host := by
  unfold ensure
  have creating : Op.Reading .createDir := trivial
  apply guarded_exceptBind
  apply guarded_orFail
  apply guarded_reading creating trivial
  intro made agree
  refine ⟨trivial, ?_⟩
  dsimp only [serve]
  apply guarded_exceptBind
  apply guarded_ensureFile trivial
  · intro present
    rw [agree.files "key.bin" List.not_mem_nil, noKey] at present
    cases present
  intro _
  have keyWritten : Guarded serve (Rewriting made "key.bin"
      (withExtension "key.bin" "tmp")
        (asBytes (Base64Url.encode (made.draws made.used).val))) _
      (do
        let raw ← rand32
        v.writeMode "key.bin" (asBytes (Base64Url.encode raw.val))
          0o600 : Fallible Unit).run made :=
    guarded_makeFromDraw "key.bin"
      (fun raw => asBytes (Base64Url.encode raw.val)) 0o600 made (by decide)
  have temporary : withExtension "key.bin" "tmp" = "key.tmp" := by decide
  rw [temporary] at keyWritten
  apply keyWritten.mono fun _ _ => trivial
  rintro _ keyed rewriting ⟨rfl, key⟩
  have keyedAgree := (agree.mono (List.nil_subset _)).trans rewriting.agreeOff
  apply guarded_tokenStage fun _ _ => trivial
  intro sealed sealing
  apply guarded_ensure_emptyJournal reliable emptyList
  · rw [sealing.files "key.bin" (by decide), key]
  · rw [sealing.files "vault.enc" (by decide),
      keyedAgree.files "vault.enc" (by decide), noJournal]
  · have accessLater := access.of_agreeOff keyedAgree (by decide)
    exact accessLater.of_agreeOff sealing (by decide)
  · exact whole

/-- The operations on a vault whose keys are kept. -/
inductive Operation
  | ensure
  | append (entry : String)
  | read
  | health
  | publicStatus

def Operation.program (v : Vault) : Operation → FileProgram Unit
  | .ensure => do
      let _ ← v.ensure.run
      pure ()
  | .append entry => do
      let _ ← (v.append entry).run
      pure ()
  | .read => do
      let _ ← v.read.run
      pure ()
  | .health => do
      let _ ← v.health
      pure ()
  | .publicStatus => do
      let _ ← v.publicStatus
      pure ()

/-- The host after some operations. -/
def operate (v : Vault) (host : Host) (operations : List Operation) : Host :=
  operations.foldl
    (fun host operation => (run serve (operation.program v) host).2) host

/-- The texts that a run appends, in order. -/
def appended (operations : List Operation) : List String :=
  operations.filterMap fun
    | .append entry => some entry
    | _ => none

/-- The journal of a run: what it began with, and an entry for each text that
was appended. -/
def Extends (start : List Value) (written : List String)
    (entries : List Value) : Prop :=
  ∃ added, entries = start ++ added ∧
    added.map entryText = written.map some

theorem Extends.append {start entries : List Value} {written : List String}
    (grown : Extends start written entries) (entry : String) (now : F64) :
    Extends start (written ++ [entry]) (entries ++ [entryValue entry now]) := by
  obtain ⟨added, rfl, texts⟩ := grown
  refine ⟨added ++ [entryValue entry now], List.append_assoc .., ?_⟩
  rw [List.map_append, List.map_append, texts]
  rfl

theorem Extends.length {start entries : List Value} {written : List String}
    (grown : Extends start written entries) :
    entries.length = start.length + written.length := by
  obtain ⟨added, rfl, texts⟩ := grown
  have same := congrArg List.length texts
  simp only [List.length_map] at same
  rw [List.length_append, same]

theorem run_discard {α : Type} (program : FileProgram α) (host : Host) :
    (run serve (do let _ ← program; pure () : FileProgram Unit) host).2 =
      (run serve program host).2 := by
  rw [run_bind]
  rfl

/-- An operation keeps the vault sound, and only an append adds an entry. -/
theorem sound_operation (reliable : Reliable v) {host : Host}
    {start entries : List Value} {log : String} {written : List String}
    (operation : Operation) (sound : Sound v host entries log)
    (grown : Extends start written entries) :
    ∃ entries log,
      Sound v (run serve (operation.program v) host).2 entries log ∧
        Extends start (written ++ appended [operation]) entries := by
  cases operation with
  | ensure =>
      have key : (host.file "key.bin").isSome := by
        obtain ⟨stored, _, key, -⟩ := key_of_opened sound.journal
        simp [key]
      have journal : (host.file "vault.enc").isSome := by
        have opens := sound.journal
        cases found : host.file "vault.enc" with
        | some bytes => rfl
        | none => simp [found, opened] at opens
      have agree := (guarded_ensure_present (v := v) key journal).run_post.1
      rw [Operation.program, run_discard]
      have stays := sound.of_agreeOff agree (by decide)
      exact ⟨entries, log, stays, by simpa [appended] using grown⟩
  | append entry =>
      obtain ⟨-, -, ⟨now, log, later⟩, -⟩ :=
        (sound.append reliable entry).run_post
      rw [Operation.program, run_discard]
      exact ⟨_, log, later, grown.append entry now⟩
  | read =>
      obtain ⟨-, -, ⟨log, later⟩, -⟩ := (sound.read reliable).run_post
      rw [Operation.program, run_discard]
      exact ⟨entries, log, later, by simpa [appended] using grown⟩
  | health =>
      have agree := ((confined_health (v := v)).files host).run_post.1
      rw [Operation.program, run_discard]
      have stays := sound.of_agreeOff agree (by decide)
      exact ⟨entries, log, stays, by simpa [appended] using grown⟩
  | publicStatus =>
      have agree := ((confined_publicStatus (v := v)).files host).run_post.1
      rw [Operation.program, run_discard]
      have stays := sound.of_agreeOff agree (by decide)
      exact ⟨entries, log, stays, by simpa [appended] using grown⟩

theorem sound_operate (reliable : Reliable v) {host : Host}
    {start entries : List Value} {log : String} {written : List String}
    (operations : List Operation) (sound : Sound v host entries log)
    (grown : Extends start written entries) :
    ∃ entries log, Sound v (operate v host operations) entries log ∧
      Extends start (written ++ appended operations) entries := by
  induction operations generalizing host entries log written with
  | nil => exact ⟨entries, log, sound, by simpa [appended] using grown⟩
  | cons operation operations induction =>
      obtain ⟨next, nextLog, nextSound, nextGrown⟩ :=
        sound_operation reliable operation sound grown
      obtain ⟨last, lastLog, lastSound, lastGrown⟩ :=
        induction nextSound nextGrown
      have split : appended (operation :: operations) =
          appended [operation] ++ appended operations := by
        unfold appended
        rw [← List.filterMap_append]
        rfl
      refine ⟨last, lastLog, lastSound, ?_⟩
      rw [split, ← List.append_assoc]
      exact lastGrown

/-- What an append and a read do to a vault that has come from some entries by
appending some texts: the append answers the new number of entries, the read
answers the entries and the end of the log with its own line behind it, and
both leave a true status. -/
structure Truthful (v : Vault) (start : List Value) (written : List String)
    (host : Host) : Prop where
  append : ∀ entry,
    (run serve (v.append entry).run host).1 =
        .ok (start.length + written.length + 1) ∧
      TrueStatus v (run serve (v.append entry).run host).2
  read : (∃ entries, Extends start written entries ∧
      ReadAnswer v host (run serve v.read.run host).2 entries
        (run serve v.read.run host).1) ∧
    TrueStatus v (run serve v.read.run host).2

/-- After every run of operations on a sound vault its answers are true. -/
theorem truthful_operate (reliable : Reliable v) {host : Host}
    {start : List Value} {log : String} (sound : Sound v host start log)
    (operations : List Operation) :
    Truthful v start (appended operations) (operate v host operations) := by
  obtain ⟨entries, log, sound, grown⟩ := sound_operate reliable operations sound
    (⟨[], by simp, rfl⟩ : Extends start [] start)
  rw [List.nil_append] at grown
  constructor
  · intro entry
    obtain ⟨-, answer, -, told⟩ := (sound.append reliable entry).run_post
    rw [grown.length] at answer
    exact ⟨answer, told⟩
  · obtain ⟨-, answer, -, told⟩ := (sound.read reliable).run_post
    exact ⟨⟨entries, grown, answer⟩, told⟩

namespace Vectors

def sevens : Bytes :=
  List.replicate 16 7

def emptyJournal : Bytes :=
  asBytes "[]"

def emptyCipher : Bytes :=
  [23, 2, 103, 224, 140, 194, 50, 62, 172, 42, 129, 134, 48, 121, 48, 38]

def helloJournal : Bytes :=
  asBytes "[\x7b\"entry\":\"hello\",\"ts\":1757000000.0\x7d]"

def helloCipher : Bytes :=
  [105, 238, 12, 28, 40, 215, 73, 74, 121, 37, 246, 237, 100, 35, 70, 110,
   103, 22, 170, 36, 234, 16, 37, 165, 187, 136, 89, 204, 193, 196, 19, 238,
   211, 204, 17, 231, 122, 5, 191, 83, 187, 232, 157, 101, 37, 53, 188, 75]

/-- AES-128-CBC of these two journals under a key and an IV of sevens; elsewhere
the plain text behind a NUL. -/
def encipher (key iv plain : Bytes) : Bytes :=
  if key = sevens ∧ iv = sevens ∧ plain = emptyJournal then emptyCipher
  else if key = sevens ∧ iv = sevens ∧ plain = helloJournal then helloCipher
  else 0 :: plain

def decipher (key iv cipher : Bytes) : Bytes :=
  if key = sevens ∧ iv = sevens ∧ cipher = emptyCipher then emptyJournal
  else if key = sevens ∧ iv = sevens ∧ cipher = helloCipher then helloJournal
  else cipher.drop 1

theorem decipher_encipher (key iv plain : Bytes) :
    decipher key iv (encipher key iv plain) = plain := by
  by_cases empty : key = sevens ∧ iv = sevens ∧ plain = emptyJournal
  · obtain ⟨rfl, rfl, rfl⟩ := empty
    rfl
  by_cases hello : key = sevens ∧ iv = sevens ∧ plain = helloJournal
  · obtain ⟨rfl, rfl, rfl⟩ := hello
    rfl
  have coded : encipher key iv plain = 0 :: plain := by
    rw [encipher, if_neg empty, if_neg hello]
  have notEmpty : (0 : UInt8) :: plain ≠ emptyCipher := by
    intro same
    cases same
  have notHello : (0 : UInt8) :: plain ≠ helloCipher := by
    intro same
    cases same
  rw [coded, decipher, if_neg fun all => notEmpty all.2.2,
    if_neg fun all => notHello all.2.2, List.drop_one, List.tail_cons]

/-- A vault over these ciphers and the printer's texts. -/
noncomputable def scribe : Vault where
  dir := vault.dir
  crypto :=
    { vault.crypto with
      encryptPadded := fun key iv plain => .ok (encipher key iv plain)
      decryptPadded := fun key iv cipher => .ok (decipher key iv cipher) }
  text := Json.Printer.text

theorem reliable_scribe : Reliable scribe where
  cipher key iv plain _ _ :=
    ⟨encipher key iv plain, rfl,
      congrArg Except.ok (decipher_encipher key iv plain)⟩
  proper _ _ parsed := Json.Printer.proper_of_parse parsed
  display value proper :=
    Json.Printer.parse_of_spells proper (.inl String.toList_ofList)
  pretty value proper := by
    apply Json.Printer.parse_of_spells proper
    right
    change (String.ofList (Json.Printer.pretty value) ++ "\n").toList = _
    rw [String.toList_append, String.toList_ofList]
    rfl
  oneLine value proper character member := by
    change character ∈ (String.ofList (Json.Printer.compact value)).toList
      at member
    rw [String.toList_ofList] at member
    exact Json.Printer.plain_compact proper character member

/-- The machine without files, at a later time. -/
def blank : Host :=
  { machine with
    directory := Directory.empty
    readings := fun _ => 1757000000 }

theorem parse_empty_scribe : scribe.text.parse "[]" = .ok (.array []) := by
  apply Json.Printer.parse_of_spells (.array (by simp))
  left
  rw [Json.Printer.compact_array]
  rfl

/-- A boot on a host without a vault and without a log. -/
theorem ensured_scribe {host : Host} (noKey : host.file "key.bin" = none)
    (noJournal : host.file "vault.enc" = none) (access : LogHolds host "") :
    (run serve scribe.ensure.run host).1 = .ok () ∧
      Sound scribe (run serve scribe.ensure.run host).2 [] "" ∧
      TrueStatus scribe (run serve scribe.ensure.run host).2 :=
  (guarded_ensure_fresh reliable_scribe parse_empty_scribe noKey noJournal
    access (.inl rfl)).run_post.2

theorem logHolds_blank : LogHolds blank "" :=
  rfl

/-- What a boot makes of a host. -/
noncomputable def boot (host : Host) : Host :=
  (run serve scribe.ensure.run host).2

theorem sound_boot {host : Host} (noKey : host.file "key.bin" = none)
    (noJournal : host.file "vault.enc" = none) (access : LogHolds host "") :
    Sound scribe (boot host) [] "" := by
  rw [boot]
  exact (ensured_scribe noKey noJournal access).2.1

/-- A vault that a boot made, an entry, and a read. -/
theorem truthful_operate_scribe :
    let host := (run serve scribe.ensure.run blank).2
    let operations : List Operation := [.append "hello", .read]
    Truthful scribe [] (appended operations)
      (operate scribe host operations) :=
  truthful_operate reliable_scribe (ensured_scribe rfl rfl logHolds_blank).2.1 _

/-- The empty journal under a key of sevens, and its digest. -/
def standingBody : Bytes :=
  0x80 :: beU64 1757000000 ++ sevens ++ emptyCipher

noncomputable def standingToken : String :=
  Base64Url.encode (standingBody ++ (scribe.crypto.hmac sevens standingBody).val)

/-- A host with a vault of that journal, whose later draws are nines. -/
noncomputable def standing : Host :=
  { blank with
    directory := ((Directory.empty.put "key.bin"
      (asBytes (Base64Url.encode (sevens ++ sevens)))).put "token.bin"
        tokenRaw).put "vault.enc" (asBytes standingToken)
    draws := fun _ => ⟨List.replicate 32 9, rfl⟩ }

theorem key_standing : standing.file "key.bin" =
    some (asBytes (Base64Url.encode (sevens ++ sevens))) := by
  simp [Host.file, standing, Directory.file_put]

theorem journal_standing : standing.file "vault.enc" =
    some (asBytes standingToken) := by
  simp [Host.file, standing, Directory.file_put]

theorem keyHalves_sevens : scribe.keyHalves
    (asBytes (Base64Url.encode (sevens ++ sevens))) = .ok (sevens, sevens) :=
  keyHalves_encode ⟨sevens ++ sevens, rfl⟩

theorem ensured_standing : Ensured scribe sevens standing := by
  refine ⟨⟨_, _, key_standing, keyHalves_sevens⟩, _, journal_standing, ?_⟩
  exact signed_of_madeUnder keyHalves_sevens
    ⟨_, _, _, standingBody, rfl, keyHalves_sevens, by decide, rfl, rfl⟩

/-- The journal stands: it opens, without entries. -/
theorem load_standing : (run serve scribe.load standing).1 = some [] := by
  have deciphers : scribe.crypto.decryptPadded sevens sevens emptyCipher =
      .ok emptyJournal := rfl
  have opens := @opened_token scribe _ sevens sevens sevens emptyCipher
    emptyJournal 1757000000 keyHalves_sevens List.length_replicate deciphers
  have empty : scribe.entriesOf emptyJournal = some [] := by
    rw [entriesOf, emptyJournal, fromUtf8_asBytes, Option.map_some,
      parse_empty_scribe]
  rw [run_load, key_standing, journal_standing]
  dsimp only at opens ⊢
  exact opens.trans empty

/-- A read without the token, cut off when the key is gone, then a restart: the
journal opened before, and nothing opens after. -/
theorem gone_is_gone_scribe :
    let earlier : List Happening :=
      [⟨.command {} ⟨"vault.read", .null, none⟩, some 2⟩]
    let later : List Happening := [⟨.restart, none⟩]
    (run serve scribe.load standing).1 = some [] ∧
      Gone scribe (afterAll scribe standing (earlier ++ later)) ∧
      Kept (afterAll scribe standing earlier)
        (afterAll scribe standing (earlier ++ later)) := by
  have otherKey : List.replicate 16 9 ≠ sevens := by decide
  exact ⟨load_standing, gone_is_gone scribe hmac_separates sevens standing
    ensured_standing (fun _ _ => otherKey) _ _ rfl⟩

end Vectors

end Vault
