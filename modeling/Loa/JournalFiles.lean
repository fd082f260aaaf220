import Loa.VaultWipe

/-!
# Journal, access log and status

What the vault's functions write, file by file, when the libraries under them
round trip: a journal that opens to its entries, one more line in the access
log, and the status of the other files.
-/

namespace Vault

open FileDirectory RustText Program
open Json (Value)

/-- What the vault relies on in its libraries: the cipher and the JSON text
round trip, and a compact text is one line. -/
structure Reliable (v : Vault) : Prop where
  cipher : ∀ key iv plain, key.length = 16 → iv.length = 16 →
    ∃ cipher, v.crypto.encryptPadded key iv plain = .ok cipher ∧
      v.crypto.decryptPadded key iv cipher = .ok plain
  proper : ∀ text value, v.text.parse text = .ok value → value.Proper
  display : ∀ value : Value, value.Proper →
    v.text.parse (v.text.display value) = .ok value
  pretty : ∀ value : Value, value.Proper →
    v.text.parse (v.text.displayPretty value ++ "\n") = .ok value
  oneLine : ∀ value : Value, value.Proper →
    ∀ character ∈ (v.text.display value).toList,
      character ≠ '\n' ∧ character ≠ '\r'

/-- The object of one entry. -/
def entryValue (entry : String) (now : F64) : Value :=
  .object [("entry", .string entry), ("ts", .number (.double now))]

/-- The text of an entry. -/
def entryText (value : Value) : Option String :=
  (value.get "entry").bind Value.asStr

/-- The object of one line of the access log. -/
def accessValue (event detail : String) (now : F64) : Value :=
  .object [("detail", .string detail), ("event", .string event),
    ("ts", .number (.double now))]

theorem proper_entryValue (entry : String) (now : F64) :
    (entryValue entry now).Proper := by
  have sorted : ["entry", "ts"].Pairwise (· < ·) := by decide
  refine .object sorted ?_
  simp only [List.mem_cons, List.not_mem_nil, or_false, forall_eq_or_imp,
    forall_eq]
  exact ⟨.string _, .number _⟩

theorem proper_accessValue (event detail : String) (now : F64) :
    (accessValue event detail now).Proper := by
  have sorted : ["detail", "event", "ts"].Pairwise (· < ·) := by decide
  refine .object sorted ?_
  simp only [List.mem_cons, List.not_mem_nil, or_false, forall_eq_or_imp,
    forall_eq]
  exact ⟨.string _, .string _, .number _⟩

theorem proper_grown {before : List Value} (proper : (Value.array before).Proper)
    (entry : String) (now : F64) :
    (Value.array (before ++ [entryValue entry now])).Proper := by
  cases proper with
  | array each =>
      refine .array fun value member => ?_
      obtain old | new := List.mem_append.mp member
      · exact each value old
      · rw [List.mem_singleton.mp new]
        exact proper_entryValue entry now

variable {v : Vault}

theorem proper_of_entriesOf (reliable : Reliable v) {plain : Bytes}
    {entries : List Value} (found : v.entriesOf plain = some entries) :
    (Value.array entries).Proper := by
  unfold entriesOf at found
  split at found
  · rename_i parsed
    obtain rfl := Option.some.inj found
    obtain ⟨text, -, same⟩ := Option.map_eq_some_iff.mp parsed
    exact reliable.proper text _ same
  · cases found

theorem proper_of_opened (reliable : Reliable v) {key journal : Option Bytes}
    {entries : List Value} (opens : v.opened key journal = some entries) :
    (Value.array entries).Proper := by
  unfold opened at opens
  split at opens
  · split at opens
    · split at opens
      · exact proper_of_entriesOf reliable opens
      · cases opens
    · cases opens
  · cases opens

/-- The entries that a journal is written from are read back from it. -/
theorem entriesOf_display (reliable : Reliable v) {entries : List Value}
    (proper : (Value.array entries).Proper) :
    v.entriesOf (asBytes (v.text.display (.array entries))) = some entries := by
  unfold entriesOf
  rw [fromUtf8_asBytes, Option.map_some, reliable.display _ proper]

/-- A journal that opens has a key that reads. -/
theorem key_of_opened {key journal : Option Bytes} {entries : List Value}
    (opens : v.opened key journal = some entries) :
    ∃ stored halves, key = some stored ∧ v.keyHalves stored = .ok halves := by
  unfold opened at opens
  split at opens
  · split at opens
    · rename_i sign enc halves
      obtain ⟨stored, rfl, same⟩ := Option.map_eq_some_iff.mp halves
      exact ⟨stored, (sign, enc), rfl, same⟩
    · cases opens
  · cases opens

theorem length_enc_of_keyHalves {stored sign enc : Bytes}
    (halves : v.keyHalves stored = .ok (sign, enc)) : enc.length = 16 := by
  unfold keyHalves at halves
  split at halves
  · cases halves
  · split at halves
    · cases halves
    · rename_i sized
      obtain ⟨-, rfl⟩ := Prod.mk.inj (Except.ok.inj halves)
      rw [List.length_drop]
      omega

/-- What the reading side makes of the parts of a token. -/
theorem openToken_parts (sign enc : Bytes) {time iv : Bytes}
    (timed : time.length = 8) (sized : iv.length = 16) (cipher : Bytes) :
    let body := 0x80 :: time ++ iv ++ cipher
    v.openToken sign enc (body ++ (v.crypto.hmac sign body).val) =
      match v.crypto.decryptPadded enc iv cipher with
      | .error error => .error ("cipher: " ++ error)
      | .ok plain => .ok plain := by
  intro body
  have tag := (v.crypto.hmac sign body).property
  have size : (body ++ (v.crypto.hmac sign body).val).length - 32 =
      body.length := by
    rw [List.length_append, tag, Nat.add_sub_cancel]
  have front : (0x80 :: time).length = 9 := by
    rw [List.length_cons, timed]
  have behind : body.drop 9 = iv ++ cipher := by
    have whole : body = (0x80 :: time) ++ (iv ++ cipher) := by
      simp [body]
    rw [whole, ← front, List.drop_left]
  have theIv : (body.drop 9).take 16 = iv := by
    rw [behind, ← sized, List.take_left]
  have theCipher : body.drop 25 = cipher := by
    have twice : body.drop 25 = (body.drop 9).drop 16 := by
      rw [List.drop_drop]
    rw [twice, behind, ← sized, List.drop_left]
  have same : constantTimeEq (v.crypto.hmac sign body).val
      (v.crypto.hmac sign body).val = true :=
    (constantTimeEq_iff _ _).mpr rfl
  unfold openToken
  dsimp only
  rw [size, List.take_left, List.drop_left, theIv, theCipher, same]
  rfl

/-- The parts of a token have its shape. -/
theorem tokenBlob_parts (sign : Bytes) {time iv : Bytes}
    (timed : time.length = 8) (sized : iv.length = 16) (cipher : Bytes) :
    let body := 0x80 :: time ++ iv ++ cipher
    v.tokenBlob (Base64Url.encode (body ++ (v.crypto.hmac sign body).val)) =
      .ok (body ++ (v.crypto.hmac sign body).val) := by
  intro body
  have tag := (v.crypto.hmac sign body).property
  apply tokenBlob_encode
  · simp only [body, List.length_append, List.length_cons, tag, timed, sized]
    omega
  · rfl

/-- What a token made under a key opens to. -/
theorem opened_token {stored sign enc iv cipher plain : Bytes} {now : F64}
    (halves : v.keyHalves stored = .ok (sign, enc)) (sized : iv.length = 16)
    (deciphers : v.crypto.decryptPadded enc iv cipher = .ok plain) :
    let body := 0x80 :: beU64 now ++ iv ++ cipher
    v.opened (some stored)
      (some (asBytes (Base64Url.encode
        (body ++ (v.crypto.hmac sign body).val)))) = v.entriesOf plain := by
  intro body
  have stamp : (beU64 now).length = 8 := rfl
  unfold opened
  rw [Option.bind_some, fromUtf8_asBytes, Option.map_some,
    Base64Url.trim_encode, tokenBlob_parts sign stamp sized cipher,
    Option.map_some, halves]
  dsimp only
  rw [openToken_parts sign enc stamp sized cipher, deciphers]

/-- Encryption under a key that reads makes a journal of the plain text. -/
theorem guarded_fernetEncrypt_opens (reliable : Reliable v) (plain : Bytes)
    {host : Host} {stored sign enc : Bytes}
    (key : host.file "key.bin" = some stored)
    (halves : v.keyHalves stored = .ok (sign, enc)) :
    Guarded serve (AgreeOff [] host)
      (fun result _ => ∃ token, result = .ok token ∧
        v.opened (some stored) (some (asBytes token)) = v.entriesOf plain)
      (v.fernetEncrypt plain).run host := by
  unfold fernetEncrypt
  apply guarded_exceptBind
  apply guarded_looking uses_readKey (AgreeOff.refl [] host)
  rw [run_readKey, key]
  dsimp only
  rw [halves]
  dsimp only
  apply guarded_exceptBind
  apply guarded_orFail
  have drawing : Op.Reading .random := trivial
  apply guarded_reading drawing (AgreeOff.refl [] host)
  intro drawn agreeDrawn
  refine ⟨agreeDrawn, ?_⟩
  dsimp only [serve]
  apply guarded_exceptBind
  apply guarded_bind
  have ticking : Op.Reading .clock := trivial
  apply guarded_reading ticking agreeDrawn
  intro ticked agreeTicked
  have agree := agreeDrawn.trans agreeTicked
  refine ⟨agree, guarded_pure agree ?_⟩
  have sized : ((host.draws host.used).val.take 16).length = 16 := by
    rw [List.length_take, (host.draws host.used).property]
    rfl
  obtain ⟨cipher, enciphers, deciphers⟩ := reliable.cipher enc
    ((host.draws host.used).val.take 16) plain
    (length_enc_of_keyHalves halves) sized
  apply guarded_exceptBind
  rw [enciphers]
  apply guarded_pure agree
  apply guarded_pure agree
  exact ⟨_, rfl, opened_token halves sized deciphers⟩

/-- The journal as a load finds it. -/
def loaded (v : Vault) (host : Host) : Option (List Value) :=
  (run serve v.load host).1

theorem loaded_eq (host : Host) :
    v.loaded host = v.opened (host.file "key.bin") (host.file "vault.enc") :=
  congrArg Prod.fst (run_load host)

theorem loaded_of_agreeOff {host after : Host} {names : List String}
    (agree : AgreeOff names host after)
    (off : ∀ name ∈ ["key.bin", "vault.enc"], name ∉ names) :
    v.loaded after = v.loaded host := by
  rw [loaded_eq, loaded_eq, agree.files "key.bin" (off _ (by simp)),
    agree.files "vault.enc" (off _ (by simp))]

/-- The access log holds a text; it is empty where there is no file. -/
def LogHolds (host : Host) (text : String) : Prop :=
  (host.file "access.log").getD [] = asBytes text

/-- The lines of the access log. -/
def logLines (host : Host) : List String :=
  lines (((host.file "access.log").bind fromUtf8).getD "")

theorem LogHolds.lines {host : Host} {text : String}
    (holds : LogHolds host text) : logLines host = lines text := by
  unfold LogHolds at holds
  unfold logLines
  cases found : host.file "access.log" with
  | none =>
      rw [found] at holds
      have empty : text = "" := by
        apply asBytes_injective
        exact holds.symm
      rw [empty]
      rfl
  | some bytes =>
      rw [found] at holds
      obtain rfl : bytes = asBytes text := holds
      rw [Option.bind_some, fromUtf8_asBytes, Option.getD_some]

theorem LogHolds.of_agreeOff {host after : Host} {text : String}
    {names : List String} (holds : LogHolds host text)
    (agree : AgreeOff names host after) (off : "access.log" ∉ names) :
    LogHolds after text := by
  unfold LogHolds
  rw [agree.files "access.log" off]
  exact holds

theorem asBytes_append (first second : String) :
    asBytes (first ++ second) = asBytes first ++ asBytes second := by
  simp [asBytes]

/-- A log entry is one more line, and no other file changes. -/
theorem guarded_logAccess {host : Host} {text : String} (event detail : String)
    (holds : LogHolds host text) :
    Guarded serve (AgreeOff ["access.log"] host)
      (fun result after => result = .ok () ∧
        LogHolds after (text ++ v.text.display
          (accessValue event detail (host.readings host.used)) ++ "\n"))
      (v.logAccess event detail).run host := by
  apply (guarded_logging event detail host).mono fun _ agree => agree
  rintro _ after - ⟨rfl, written⟩
  refine ⟨rfl, ?_⟩
  unfold LogHolds at holds ⊢
  rw [written, holds]
  simp only [Option.getD_some, asBytes_append]
  rfl

/-- The status of a host's files. -/
def statusOf (v : Vault) (host : Host) : Value :=
  let enc := (host.file "vault.enc").getD []
  let entries := v.opened (host.file "key.bin") (host.file "vault.enc")
  .object
    [("access_count", .ofNat (logLines host).length),
      ("entries", .ofNat ((entries.map List.length).getD 0)),
      ("hash",
        if enc.isEmpty then .null
        else .string (hexEncode ((v.crypto.sha256 enc).val.take 8))),
      ("marker",
        .ofText (((host.file "marker.txt").bind fromUtf8).map trim)),
      ("sealed", .bool entries.isSome)]

theorem proper_statusOf (v : Vault) (host : Host) :
    (statusOf v host).Proper := by
  have sorted :
      ["access_count", "entries", "hash", "marker", "sealed"].Pairwise
        (· < ·) := by decide
  have hash : (if ((host.file "vault.enc").getD []).isEmpty then Value.null
      else .string (hexEncode ((v.crypto.sha256
        ((host.file "vault.enc").getD [])).val.take 8))).Proper := by
    split_ifs
    · exact .null
    · exact .string _
  have marker : (Value.ofText
      (((host.file "marker.txt").bind fromUtf8).map trim)).Proper := by
    unfold Value.ofText
    cases ((host.file "marker.txt").bind fromUtf8).map trim with
    | none => exact .null
    | some text => exact .string text
  refine .object sorted ?_
  simp only [List.mem_cons, List.not_mem_nil, or_false, forall_eq_or_imp,
    forall_eq]
  exact ⟨.number _, .number _, hash, marker, .bool _⟩

theorem logLines_length (host : Host) :
    ((((host.file "access.log").bind fromUtf8).map fun text =>
      (lines text).length).getD 0) = (logLines host).length := by
  unfold logLines
  cases (host.file "access.log").bind fromUtf8 <;> rfl

theorem run_readOrEmpty (name : String) (host : Host) :
    run serve (readOrEmpty name) host = ((host.file name).getD [], host) := by
  unfold readOrEmpty
  rw [run_bind, run_perform]
  cases found : host.file name with
  | some bytes => simp [serve, found]
  | none => simp [serve, found]

/-- A lifted program that only looks hands on what it saw. -/
theorem guarded_lookFirst {α β : Type} {program : FileProgram α}
    {next : α → Fallible β} {always : Host → Prop}
    {post : Except String β → Host → Prop} {host : Host}
    (uses : Uses Looking program) (before : always host)
    (later : Guarded serve always post
      (next (run serve program host).1).run host) :
    Guarded serve always post (ExceptT.lift program >>= next).run host := by
  apply guarded_exceptBind
  apply guarded_bind
  apply guarded_looking uses before
  exact guarded_pure before later

/-- The status file is written from the other files and replaces the old one
whole. -/
theorem guarded_writeStatus (host : Host) :
    Guarded serve (AgreeOff ["status.tmp", "status.json"] host)
      (fun result after => result = .ok () ∧
        after.file "status.json" = some (asBytes
          (v.text.displayPretty (statusOf v host) ++ "\n")))
      v.writeStatus.run host := by
  have start := AgreeOff.refl ["status.tmp", "status.json"] host
  unfold writeStatus
  apply guarded_lookFirst (uses_readOrEmpty "vault.enc") start
  apply guarded_lookFirst uses_load start
  apply guarded_lookFirst uses_load start
  apply guarded_lookFirst (uses_readToString "access.log") start
  apply guarded_lookFirst (uses_readToString "marker.txt") start
  simp only [run_readOrEmpty, run_load, run_readToString, logLines_length]
  have temporary : withExtension "status.json" "tmp" = "status.tmp" := by
    decide
  rw [← temporary]
  exact (guarded_writeMode "status.json" _ 0o644 host (by decide)).mono
    (fun _ rewriting => rewriting.agreeOff) fun _ _ _ finished => finished

/-- The journal with one more entry. -/
def writeEntry (v : Vault) (before : List Value) (entry : String) (now : F64) :
    Fallible Nat := do
  let entries := before ++ [entryValue entry now]
  let token ← v.fernetEncrypt (asBytes (v.text.display (.array entries)))
  v.writeMode "vault.enc" (asBytes token) 0o600
  pure entries.length

/-- An append as far as the journal. -/
def enter (v : Vault) (entry : String) : Fallible Nat := do
  match ← ExceptT.lift v.load with
  | none => ExceptT.mk (pure (.error "vault gone"))
  | some before =>
      let now ← ExceptT.lift Os.clock
      v.writeEntry before entry now

/-- An append behind the journal. -/
def settle (v : Vault) (count : Nat) : Fallible Nat := do
  v.logAccess "APPEND" (toString count)
  v.writeStatus
  pure count

theorem append_eq (v : Vault) (entry : String) :
    v.append entry = v.enter entry >>= v.settle := by
  unfold append enter
  rw [LawfulMonad.bind_assoc]
  congr 1
  funext loaded
  cases loaded with
  | none => rfl
  | some before =>
      unfold writeEntry settle entryValue
      simp only [LawfulMonad.bind_assoc, LawfulMonad.pure_bind]

/-- The journal with one more entry; only the journal has changed. -/
structure Filed (v : Vault) (before : List Value) (entry : String) (now : F64)
    (host after : Host) : Prop where
  journal : v.opened (after.file "key.bin") (after.file "vault.enc") =
    some (before ++ [entryValue entry now])
  agree : AgreeOff ["vault.tmp", "vault.enc"] host after

theorem guarded_writeEntry (reliable : Reliable v) {host : Host}
    {before : List Value} (entry : String) (now : F64)
    (opens : v.opened (host.file "key.bin") (host.file "vault.enc") =
      some before) :
    Guarded serve (fun _ => True)
      (fun result after => result = .ok (before.length + 1) ∧
        Filed v before entry now host after)
      (v.writeEntry before entry now).run host := by
  have grown := proper_grown (proper_of_opened reliable opens) entry now
  obtain ⟨stored, ⟨sign, enc⟩, key, halves⟩ := key_of_opened opens
  unfold writeEntry
  apply guarded_exceptBind
  apply (guarded_fernetEncrypt_opens reliable _ key halves).mono
    fun _ _ => trivial
  rintro _ encrypted agree ⟨token, rfl, opensToken⟩
  apply guarded_exceptBind
  apply (guarded_writeJournal (asBytes token) encrypted).mono fun _ _ => trivial
  rintro _ filed rewriting ⟨rfl, replaced⟩
  apply guarded_pure trivial
  refine ⟨by simp, ?_, (agree.mono (List.nil_subset _)).trans
    rewriting.agreeOff⟩
  rw [rewriting.others "key.bin" (by decide) (by decide),
    agree.files "key.bin" List.not_mem_nil, key, replaced, opensToken]
  exact entriesOf_display reliable grown

/-- A journal that opens gets its entry, with the time of the clock. -/
theorem guarded_enter (reliable : Reliable v) {host : Host}
    {before : List Value} (entry : String)
    (opens : v.opened (host.file "key.bin") (host.file "vault.enc") =
      some before) :
    Guarded serve (fun _ => True)
      (fun result after => result = .ok (before.length + 1) ∧
        Filed v before entry (host.readings host.used) host after)
      (v.enter entry).run host := by
  unfold enter
  apply guarded_lookFirst uses_load trivial
  rw [run_load, opens]
  have ticking : Op.Reading .clock := trivial
  apply guarded_exceptBind
  apply guarded_bind
  apply guarded_reading ticking trivial
  intro ticked agreeTicked
  refine ⟨trivial, guarded_pure trivial ?_⟩
  dsimp only [serve]
  have stillOpens :
      v.opened (ticked.file "key.bin") (ticked.file "vault.enc") =
        some before := by
    rw [agreeTicked.files "key.bin" List.not_mem_nil,
      agreeTicked.files "vault.enc" List.not_mem_nil, opens]
  apply (guarded_writeEntry reliable entry (host.readings host.used)
    stillOpens).mono fun _ _ => trivial
  rintro result filed - ⟨answer, journal, agree⟩
  exact ⟨answer, journal,
    (agreeTicked.mono (List.nil_subset _)).trans agree⟩

end Vault
