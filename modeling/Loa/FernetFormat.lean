import Loa.JournalAccount
import Mathlib.Data.List.DropRight

/-!
# The Fernet format

A token is the version, the time, the IV, the ciphertext and the tag, put
together and cut apart by byte offsets.  The reading side is given a second time
with every index and every slice as the code takes it, where an offset outside
the bytes is a panic.  No text and no key file leads to one, so that the reading
side is the total one of the vault; from there the texts that it accepts are
exactly the tokens of the format, and those that the writing side makes are
among them.
-/

namespace Vault

open FileDirectory RustText Program

/-- `bytes[first..last]`; nothing where the code panics. -/
def slice (bytes : Bytes) (first last : Nat) : Option Bytes :=
  if first ≤ last ∧ last ≤ bytes.length then
    some ((bytes.take last).drop first)
  else none

/-- `usize` subtraction; nothing below zero. -/
def lessen (first second : Nat) : Option Nat :=
  if second ≤ first then some (first - second) else none

/-- `split_at`. -/
def splitAt (bytes : Bytes) (middle : Nat) : Option (Bytes × Bytes) := do
  let front ← slice bytes 0 middle
  let back ← slice bytes middle bytes.length
  pure (front, back)

theorem slice_zero {bytes : Bytes} {last : Nat} (inside : last ≤ bytes.length) :
    slice bytes 0 last = some (bytes.take last) := by
  rw [slice, if_pos ⟨Nat.zero_le last, inside⟩, List.drop_zero]

theorem slice_length {bytes : Bytes} {first : Nat}
    (inside : first ≤ bytes.length) :
    slice bytes first bytes.length = some (bytes.drop first) := by
  rw [slice, if_pos ⟨inside, le_rfl⟩, List.take_length]

theorem splitAt_eq {bytes : Bytes} {middle : Nat}
    (inside : middle ≤ bytes.length) :
    splitAt bytes middle = some (bytes.take middle, bytes.drop middle) := by
  rw [splitAt, slice_zero inside, slice_length inside]
  rfl

/-- The loop of `strip_pad`: the end, moved before the padding. -/
def padEnd (bytes : Bytes) : Nat → Option Nat
  | 0 => some 0
  | last + 1 => do
      let byte ← bytes[last]?
      if byte = 61 then padEnd bytes last else pure (last + 1)

def stripPadSliced (bytes : Bytes) : Option Bytes := do
  let last ← padEnd bytes bytes.length
  slice bytes 0 last

theorem stripPad_eq (bytes : Bytes) :
    stripPad bytes = bytes.rdropWhile fun byte => byte = 61 :=
  rfl

theorem padEnd_eq {bytes : Bytes} {last : Nat} (inside : last ≤ bytes.length) :
    padEnd bytes last = some (stripPad (bytes.take last)).length := by
  induction last with
  | zero => rfl
  | succ last induction =>
      have here : bytes[last]? = some bytes[last] :=
        List.getElem?_eq_getElem inside
      have grown : bytes.take (last + 1) = bytes.take last ++ [bytes[last]] :=
        (List.take_append_getElem inside).symm
      rw [padEnd, here, grown, stripPad_eq]
      simp only [Option.bind_eq_bind, Option.bind_some]
      by_cases padding : bytes[last] = 61
      · rw [if_pos padding, induction (Nat.le_of_succ_le inside),
          List.rdropWhile_concat_pos _ _ _ (by simpa using padding), stripPad_eq]
      · rw [if_neg padding,
          List.rdropWhile_concat_neg _ _ _ (by simpa using padding)]
        simp only [Option.pure_def, List.length_append, List.length_take,
          List.length_singleton]
        congr 2
        omega

theorem stripPadSliced_eq (bytes : Bytes) :
    stripPadSliced bytes = some (stripPad bytes) := by
  have front : stripPad bytes <+: bytes := List.rdropWhile_prefix _ _
  rw [stripPadSliced, padEnd_eq le_rfl, List.take_length]
  change slice bytes 0 (stripPad bytes).length = _
  rw [slice_zero front.length_le, ← List.prefix_iff_eq_take.mp front]

variable (v : Vault)

def keyHalvesSliced (stored : Bytes) :
    Option (Except String (Bytes × Bytes)) := do
  let stripped ← stripPadSliced stored
  match Base64Url.decode stripped with
  | none =>
      pure (.error ("key not base64url: " ++ v.crypto.base64Refusal stripped))
  | some raw =>
      if raw.length ≠ 32 then
        pure (.error
          ("fernet key is 32 raw bytes, got " ++ toString raw.length))
      else do
        let sign ← slice raw 0 16
        let enc ← slice raw 16 raw.length
        pure (.ok (sign, enc))

def tokenBlobSliced (token : String) : Option (Except String Bytes) :=
  let stripped :=
    asBytes (trimEndMatches (fun character => character = '=') token)
  match Base64Url.decode stripped with
  | none => pure (.error ("token b64: " ++ v.crypto.base64Refusal stripped))
  | some blob =>
      if blob.length < 57 then pure (.error "not a fernet v1 token")
      else do
        let version ← blob[0]?
        if version ≠ 0x80 then pure (.error "not a fernet v1 token")
        else pure (.ok blob)

def openTokenSliced (sign enc blob : Bytes) :
    Option (Except String Bytes) := do
  let middle ← lessen blob.length 32
  let (body, sig) ← splitAt blob middle
  if !constantTimeEq (v.crypto.hmac sign body).val sig then
    pure (.error "hmac mismatch — token is not ours")
  else do
    let iv ← slice body 9 25
    let cipher ← slice body 25 body.length
    match v.crypto.decryptPadded enc iv cipher with
    | .error error => pure (.error ("cipher: " ++ error))
    | .ok plain => pure (.ok plain)

/-- A program that may stop with an error and may panic. -/
abbrev Slicing (α : Type) := ExceptT String (OptionT (Program Op Reply)) α

/-- A computation without system calls. -/
def pieces {α : Type} (outcome : Option (Except String α)) : Slicing α :=
  ExceptT.mk (OptionT.mk (pure outcome))

/-- A program that takes no slice. -/
def unsliced {α : Type} (program : Fallible α) : Slicing α :=
  ExceptT.mk (OptionT.lift program.run)

def fernetDecryptSliced (token : String) : Slicing Bytes := do
  let blob ← pieces (v.tokenBlobSliced token)
  let stored ← unsliced (orFail "" (Os.read "key.bin"))
  let (sign, enc) ← pieces (v.keyHalvesSliced stored)
  pieces (v.openTokenSliced sign enc blob)

variable {v}

theorem keyHalvesSliced_eq (stored : Bytes) :
    v.keyHalvesSliced stored = some (v.keyHalves stored) := by
  unfold keyHalvesSliced keyHalves
  rw [stripPadSliced_eq]
  simp only [Option.bind_eq_bind, Option.bind_some]
  cases Base64Url.decode (stripPad stored) with
  | none => rfl
  | some raw =>
      dsimp only
      by_cases sized : raw.length = 32
      · rw [if_neg (not_not.mpr sized), if_neg (not_not.mpr sized),
          slice_zero (by omega), slice_length (by omega)]
        rfl
      · rw [if_pos sized, if_pos sized]
        rfl

theorem tokenBlobSliced_eq (token : String) :
    v.tokenBlobSliced token = some (v.tokenBlob token) := by
  unfold tokenBlobSliced tokenBlob
  dsimp only
  generalize asBytes _ = stripped
  cases Base64Url.decode stripped with
  | none => rfl
  | some blob =>
      dsimp only
      by_cases short : blob.length < 57
      · rw [if_pos short, if_pos (.inl short)]
        rfl
      · cases blob with
        | nil => simp at short
        | cons version rest =>
            rw [if_neg short, List.getElem?_cons_zero]
            simp only [Option.bind_eq_bind, Option.bind_some, short, false_or,
              List.head?_cons, ne_eq, Option.some.injEq]
            split <;> rfl

/-- Behind the length check every offset is inside the token. -/
theorem openTokenSliced_eq {sign enc blob : Bytes} (long : 57 ≤ blob.length) :
    v.openTokenSliced sign enc blob = some (v.openToken sign enc blob) := by
  have middle : lessen blob.length 32 = some (blob.length - 32) :=
    if_pos (by omega)
  have size : (blob.take (blob.length - 32)).length = blob.length - 32 := by
    rw [List.length_take]
    omega
  have theIv : slice (blob.take (blob.length - 32)) 9 25 =
      some (((blob.take (blob.length - 32)).drop 9).take 16) := by
    rw [slice, if_pos ⟨by omega, by omega⟩, List.drop_take]
  unfold openTokenSliced openToken
  rw [middle]
  simp only [Option.bind_eq_bind, Option.bind_some]
  rw [splitAt_eq (by omega)]
  simp only [Option.bind_some]
  split
  · rfl
  · rw [theIv, slice_length (by omega)]
    simp only [Option.bind_some]
    split <;> simp_all

theorem pieces_some {α : Type} (outcome : Except String α) :
    pieces (some outcome) = unsliced (ExceptT.mk (pure outcome)) :=
  rfl

theorem unsliced_bind {α β : Type} (program : Fallible α)
    (next : α → Fallible β) :
    unsliced (program >>= next) =
      unsliced program >>= fun value => unsliced (next value) := by
  apply ExceptT.ext
  apply OptionT.ext
  rw [ExceptT.run_bind, OptionT.run_bind]
  simp only [unsliced, ExceptT.run_mk, ExceptT.run_bind, OptionT.run_lift,
    Option.elimM, LawfulMonad.bind_assoc, LawfulMonad.pure_bind]
  apply bind_congr
  intro result
  cases result with
  | ok value => rfl
  | error error => rfl

theorem long_of_tokenBlob {token : String} {blob : Bytes}
    (shaped : v.tokenBlob token = .ok blob) :
    57 ≤ blob.length ∧ blob.head? = some 0x80 := by
  unfold tokenBlob at shaped
  dsimp only at shaped
  split at shaped
  · cases shaped
  · split at shaped
    · cases shaped
    · rename_i foreign
      obtain rfl := Except.ok.inj shaped
      rw [not_or, not_lt, ne_eq, not_not] at foreign
      exact foreign

/-- No text and no key file make the reading side panic. -/
theorem fernetDecryptSliced_eq (token : String) :
    v.fernetDecryptSliced token = unsliced (v.fernetDecrypt token) := by
  unfold fernetDecryptSliced fernetDecrypt
  rw [tokenBlobSliced_eq, pieces_some]
  cases shaped : v.tokenBlob token with
  | error error => rfl
  | ok blob =>
      obtain ⟨long, -⟩ := long_of_tokenBlob shaped
      change (unsliced (orFail "" (Os.read "key.bin")) >>= fun stored => _) =
        unsliced (v.readKey >>= fun halves => _)
      rw [readKey, LawfulMonad.bind_assoc, unsliced_bind]
      apply bind_congr
      intro stored
      rw [keyHalvesSliced_eq, pieces_some, unsliced_bind]
      apply bind_congr
      rintro ⟨sign, enc⟩
      dsimp only
      rw [openTokenSliced_eq long]
      rfl

theorem run_unsliced {α World : Type}
    (serve : (op : Op) → World → Reply op × World) (program : Fallible α)
    (world : World) :
    run serve (unsliced program).run.run world =
      (some (run serve program.run world).1,
        (run serve program.run world).2) := by
  rw [unsliced, ExceptT.run_mk, OptionT.run_lift, run_bind]
  rfl

/-- A text with base64 padding behind it. -/
def padded (text : String) (count : Nat) : String :=
  text ++ String.ofList (List.replicate count '=')

section Padding

variable {α : Type} [DecidableEq α]

theorem rdropWhile_append_replicate (front : List α) (pad : α) (count : Nat) :
    ((front ++ List.replicate count pad).rdropWhile fun item => item = pad) =
      front.rdropWhile fun item => item = pad := by
  induction count with
  | zero => rw [List.replicate_zero, List.append_nil]
  | succ count induction =>
      rw [List.replicate_succ', ← List.append_assoc,
        List.rdropWhile_concat_pos _ _ _ (by simp), induction]

theorem exists_append_replicate (whole : List α) (pad : α) :
    ∃ count, whole =
      (whole.rdropWhile fun item => item = pad) ++ List.replicate count pad := by
  let dropped := whole.rtakeWhile fun item => decide (item = pad)
  have pads : dropped = List.replicate dropped.length pad := by
    rw [List.eq_replicate_iff]
    exact ⟨rfl, fun item member => by simpa using List.mem_rtakeWhile_imp member⟩
  refine ⟨dropped.length, ?_⟩
  rw [← pads]
  exact List.rdropWhile_append_rtakeWhile.symm

end Padding

theorem asBytes_padded (text : String) (count : Nat) :
    asBytes (padded text count) = asBytes text ++ List.replicate count 61 := by
  rw [padded, asBytes_append]
  congr 1
  unfold asBytes
  rw [String.toList_ofList]
  induction count with
  | zero => rfl
  | succ count induction =>
      rw [List.replicate_succ, List.flatMap_cons, induction]
      rfl

theorem stripPad_padded (text : String) (count : Nat) :
    stripPad (asBytes (padded text count)) = stripPad (asBytes text) := by
  rw [asBytes_padded, stripPad_eq, stripPad_eq, rdropWhile_append_replicate]

theorem trimEndMatches_padded (text : String) (count : Nat) :
    trimEndMatches (fun character => character = '=') (padded text count) =
      trimEndMatches (fun character => character = '=') text := by
  have dropped := rdropWhile_append_replicate text.toList '=' count
  unfold trimEndMatches padded
  rw [String.toList_append, String.toList_ofList]
  exact congrArg String.ofList dropped

theorem exists_padded (text : String) :
    ∃ count, text =
      padded (trimEndMatches (fun character => character = '=') text) count := by
  obtain ⟨count, same⟩ := exists_append_replicate text.toList '='
  refine ⟨count, ?_⟩
  apply String.toList_injective
  unfold padded trimEndMatches
  rw [String.toList_append, String.toList_ofList, String.toList_ofList]
  exact same

/-- Deciphering undoes enciphering. -/
def CipherInverts (crypto : Crypto) : Prop :=
  ∀ key iv plain, key.length = 16 → iv.length = 16 →
    ∃ cipher, crypto.encryptPadded key iv plain = .ok cipher ∧
      crypto.decryptPadded key iv cipher = .ok plain

/-- A file that stores these raw bytes as a key, with or without padding. -/
def StoresKey (stored raw : Bytes) : Prop :=
  raw.length = 32 ∧
    ∃ count, stored = asBytes (padded (Base64Url.encode raw) count)

/-- The version, the time, the IV, the ciphertext, and the tag of it all. -/
def tokenBytes (crypto : Crypto) (sign time iv cipher : Bytes) : Bytes :=
  let body := 0x80 :: time ++ iv ++ cipher
  body ++ (crypto.hmac sign body).val

/-- A text that is a token of a plaintext under a key. -/
def Carries (crypto : Crypto) (raw : Bytes) (token : String)
    (plain : Bytes) : Prop :=
  ∃ time iv cipher count, time.length = 8 ∧ iv.length = 16 ∧
    token = padded (Base64Url.encode
      (tokenBytes crypto (raw.take 16) time iv cipher)) count ∧
    crypto.decryptPadded (raw.drop 16) iv cipher = .ok plain

theorem keyHalves_of_storesKey {stored raw : Bytes}
    (stores : StoresKey stored raw) :
    v.keyHalves stored = .ok (raw.take 16, raw.drop 16) := by
  obtain ⟨sized, count, rfl⟩ := stores
  unfold keyHalves
  rw [stripPad_padded, stripPad_encode, Base64Url.decode_encode]
  dsimp only
  rw [if_neg (not_not.mpr sized)]

theorem storesKey_of_keyHalves {stored sign enc : Bytes}
    (halves : v.keyHalves stored = .ok (sign, enc)) :
    ∃ raw, StoresKey stored raw ∧ sign = raw.take 16 ∧ enc = raw.drop 16 := by
  unfold keyHalves at halves
  split at halves
  · cases halves
  · rename_i raw decoded
    split at halves
    · cases halves
    · rename_i sized
      obtain ⟨rfl, rfl⟩ := Prod.mk.inj (Except.ok.inj halves)
      obtain ⟨count, same⟩ := exists_append_replicate stored 61
      refine ⟨raw, ⟨not_not.mp sized, count, ?_⟩, rfl, rfl⟩
      rw [asBytes_padded, Base64Url.encode_of_decode decoded, stripPad_eq]
      exact same

/-- A text with the shape of a token is the base64 of its bytes. -/
theorem padded_of_tokenBlob {token : String} {blob : Bytes}
    (shaped : v.tokenBlob token = .ok blob) :
    ∃ count, token = padded (Base64Url.encode blob) count := by
  obtain ⟨count, same⟩ := exists_padded token
  refine ⟨count, ?_⟩
  unfold tokenBlob at shaped
  dsimp only at shaped
  split at shaped
  · cases shaped
  · rename_i read decoded
    split at shaped
    · cases shaped
    · obtain rfl := Except.ok.inj shaped
      rw [asBytes_injective (Base64Url.encode_of_decode decoded)]
      exact same

theorem tokenBlob_padded (text : String) (count : Nat) :
    v.tokenBlob (padded text count) = v.tokenBlob text := by
  unfold tokenBlob
  rw [trimEndMatches_padded]

/-- Bytes that are long enough and of the right version fall into parts. -/
theorem parts_of_body {body : Bytes} (long : 25 ≤ body.length)
    (version : body.head? = some 0x80) :
    ∃ time iv cipher, time.length = 8 ∧ iv.length = 16 ∧
      body = 0x80 :: time ++ iv ++ cipher := by
  cases body with
  | nil => simp at long
  | cons byte rest =>
      obtain rfl : byte = 0x80 := by simpa using version
      rw [List.length_cons] at long
      refine ⟨rest.take 8, (rest.drop 8).take 16, (rest.drop 8).drop 16,
        ?_, ?_, ?_⟩
      · rw [List.length_take]
        omega
      · rw [List.length_take, List.length_drop]
        omega
      · rw [List.cons_append, List.cons_append, List.append_assoc,
          List.take_append_drop, List.take_append_drop]

theorem signed_of_openToken {sign enc blob plain : Bytes}
    (opens : v.openToken sign enc blob = .ok plain) :
    blob = blob.take (blob.length - 32) ++
      (v.crypto.hmac sign (blob.take (blob.length - 32))).val := by
  unfold openToken at opens
  dsimp only at opens
  split at opens
  · cases opens
  · rename_i same
    rw [Bool.not_eq_true', Bool.not_eq_false, constantTimeEq_iff] at same
    rw [same, List.take_append_drop]

/-- A token that opens is one of the format. -/
theorem carries_of_openToken {token : String} {raw blob plain : Bytes}
    (shaped : v.tokenBlob token = .ok blob)
    (opens : v.openToken (raw.take 16) (raw.drop 16) blob = .ok plain) :
    Carries v.crypto raw token plain := by
  obtain ⟨long, version⟩ := long_of_tokenBlob shaped
  obtain ⟨count, rfl⟩ := padded_of_tokenBlob shaped
  have signed := signed_of_openToken opens
  generalize front : blob.take (blob.length - 32) = body at signed
  have bodyLong : 25 ≤ body.length := by
    rw [← front, List.length_take]
    omega
  have bodyVersion : body.head? = some 0x80 := by
    rw [← front, List.head?_take, if_neg (by omega), version]
  obtain ⟨time, iv, cipher, timed, sized, rfl⟩ :=
    parts_of_body bodyLong bodyVersion
  refine ⟨time, iv, cipher, count, timed, sized, ?_, ?_⟩
  · rw [signed]
    rfl
  · rw [signed, openToken_parts _ _ timed sized] at opens
    split at opens
    · cases opens
    · rename_i deciphers
      rw [deciphers, Except.ok.inj opens]

theorem openToken_of_carries {token : String} {raw plain : Bytes}
    (carries : Carries v.crypto raw token plain) :
    ∃ blob, v.tokenBlob token = .ok blob ∧
      v.openToken (raw.take 16) (raw.drop 16) blob = .ok plain := by
  obtain ⟨time, iv, cipher, count, timed, sized, rfl, deciphers⟩ := carries
  refine ⟨tokenBytes v.crypto (raw.take 16) time iv cipher, ?_, ?_⟩
  · rw [tokenBlob_padded]
    exact tokenBlob_parts _ timed sized cipher
  · rw [tokenBytes, openToken_parts _ _ timed sized, deciphers]

/-- The reading side accepts the tokens of the format under the stored key, and
nothing else. -/
theorem fernetDecrypt_ok_iff {host : Host} {token : String} {plain : Bytes} :
    (run serve (v.fernetDecrypt token).run host).1 = .ok plain ↔
      ∃ stored raw, host.file "key.bin" = some stored ∧
        StoresKey stored raw ∧ Carries v.crypto raw token plain := by
  rw [run_fernetDecrypt]
  constructor
  · intro opens
    split at opens
    · rename_i blob shaped
      split at opens
      · rename_i stored key
        split at opens
        · rename_i sign enc halves
          obtain ⟨raw, stores, rfl, rfl⟩ := storesKey_of_keyHalves halves
          exact ⟨stored, raw, key, stores, carries_of_openToken shaped opens⟩
        · cases opens
      · cases opens
    · cases opens
  · rintro ⟨stored, raw, key, stores, carries⟩
    obtain ⟨blob, shaped, opens⟩ := openToken_of_carries carries
    rw [shaped, key]
    dsimp only
    rw [keyHalves_of_storesKey stores]
    exact opens

/-- What the writing side makes is a token of the plaintext. -/
theorem carries_fernetEncrypt (inverts : CipherInverts v.crypto) {host : Host}
    {stored raw : Bytes} (key : host.file "key.bin" = some stored)
    (stores : StoresKey stored raw) (plain : Bytes) :
    ∃ token, (run serve (v.fernetEncrypt plain).run host).1 = .ok token ∧
      ∀ count, Carries v.crypto raw (padded token count) plain := by
  have sized : ((host.draws host.used).val.take 16).length = 16 := by
    rw [List.length_take, (host.draws host.used).property]
    rfl
  have half : (raw.drop 16).length = 16 := by
    rw [List.length_drop, stores.1]
  obtain ⟨cipher, enciphers, deciphers⟩ := inverts (raw.drop 16)
    ((host.draws host.used).val.take 16) plain half sized
  refine ⟨Base64Url.encode (tokenBytes v.crypto (raw.take 16)
    (beU64 (host.spend.readings host.spend.used))
    ((host.draws host.used).val.take 16) cipher), ?_, ?_⟩
  · unfold fernetEncrypt
    rw [run_exceptBind, run_readKey, key]
    dsimp only
    rw [keyHalves_of_storesKey stores]
    dsimp only
    rw [run_exceptBind, rand32, run_orFail, run_perform]
    dsimp only [serve]
    rw [run_exceptBind, run_exceptLift, run_perform]
    dsimp only [serve]
    rw [enciphers]
    rfl
  · intro count
    exact ⟨_, _, cipher, count, rfl, sized, rfl, deciphers⟩

/-- Fernet to its specification: what is encrypted under a stored key decrypts
again, with any padding on the key and on the token; no text makes the reading
side panic, whatever the machine under it; and it returns a plaintext exactly
for the tokens of the format under the stored key. -/
theorem fernet_meets_specification (v : Vault)
    (inverts : CipherInverts v.crypto) :
    (∀ host stored raw plain, host.file "key.bin" = some stored →
      StoresKey stored raw →
      ∃ token, (run serve (v.fernetEncrypt plain).run host).1 = .ok token ∧
        ∀ after count, after.file "key.bin" = some stored →
          run serve (v.fernetDecryptSliced (padded token count)).run.run after =
            (some (.ok plain), after)) ∧
    (∀ (World : Type) (machine : (op : Op) → World → Reply op × World) world
        token,
      (run machine (v.fernetDecryptSliced token).run.run world).1.isSome) ∧
    (∀ host token plain,
      run serve (v.fernetDecryptSliced token).run.run host =
          (some (.ok plain), host) ↔
        ∃ stored raw, host.file "key.bin" = some stored ∧
          StoresKey stored raw ∧ Carries v.crypto raw token plain) := by
  have stays (token : String) (host : Host) :
      run serve (v.fernetDecryptSliced token).run.run host =
        (some (run serve (v.fernetDecrypt token).run host).1, host) := by
    rw [fernetDecryptSliced_eq, run_unsliced, run_fernetDecrypt]
  refine ⟨?_, ?_, ?_⟩
  · intro host stored raw plain key stores
    obtain ⟨token, made, carries⟩ :=
      carries_fernetEncrypt inverts key stores plain
    refine ⟨token, made, fun after count kept => ?_⟩
    rw [stays, fernetDecrypt_ok_iff.mpr
      ⟨stored, raw, kept, stores, carries count⟩]
  · intro World machine world token
    rw [fernetDecryptSliced_eq, run_unsliced]
    rfl
  · intro host token plain
    rw [stays, Prod.mk.injEq, Option.some.injEq, fernetDecrypt_ok_iff]
    exact and_iff_left rfl

namespace Vectors

/-- The empty journal under a key of sevens, written in September 2025. -/
def emptyBody : Bytes :=
  0x80 :: [0, 0, 0, 0, 104, 185, 177, 64] ++ sevens ++ emptyCipher

def emptyTag : Block :=
  ⟨
    [90, 13, 250, 82, 219, 113, 4, 74, 138, 90, 196, 5, 237, 245, 215, 50, 58,
     214, 40, 25, 95, 85, 6, 126, 34, 246, 59, 128, 80, 157, 178, 170],
    rfl⟩

/-- A vault over these ciphers, with the digest of that journal. -/
def keeper : Vault where
  dir := vault.dir
  crypto :=
    { vault.crypto with
      hmac := fun key message =>
        if key = sevens ∧ message = emptyBody then emptyTag
        else hmac key message
      encryptPadded := fun key iv plain => .ok (encipher key iv plain)
      decryptPadded := fun key iv cipher => .ok (decipher key iv cipher) }
  text := vault.text

def keyed : Host :=
  { machine with
    directory := Directory.empty.put "key.bin"
      (asBytes (padded (Base64Url.encode (sevens ++ sevens)) 1)) }

theorem cipherInverts_keeper : CipherInverts keeper.crypto :=
  fun key iv plain _ _ =>
    ⟨encipher key iv plain, rfl,
      congrArg Except.ok (decipher_encipher key iv plain)⟩

theorem carries_emptyBody :
    Carries keeper.crypto (sevens ++ sevens)
      (padded (Base64Url.encode (emptyBody ++ emptyTag.val)) 2)
      emptyJournal := by
  have signed : keeper.crypto.hmac sevens emptyBody = emptyTag := by
    simp only [keeper, and_self, if_true]
  refine ⟨[0, 0, 0, 0, 104, 185, 177, 64], sevens, emptyCipher, 2, rfl, rfl,
    ?_, rfl⟩
  rw [← signed]
  rfl

/-- The padded key opens the padded token. -/
theorem fernet_meets_specification_vectors :
    run serve (keeper.fernetDecryptSliced
        (padded (Base64Url.encode (emptyBody ++ emptyTag.val)) 2)).run.run
        keyed =
      (some (.ok emptyJournal), keyed) :=
  ((fernet_meets_specification keeper cipherInverts_keeper).2.2 _ _ _).mpr
    ⟨_, sevens ++ sevens, rfl, ⟨rfl, 1, rfl⟩, carries_emptyBody⟩

end Vectors

end Vault
