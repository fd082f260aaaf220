import Mathlib.Data.List.Basic

/-!
# Text and bytes as the Rust standard library handles them

Strings are sequences of characters here and byte strings are lists of bytes.
The file defines the conversions between the two (UTF-8, with Rust's lossy
reading that replaces every maximal ill-formed piece by U+FFFD), the trimming
and line splitting of `str`, and lower-case hexadecimal.
-/

/-- A byte string. -/
abbrev Bytes := List UInt8

namespace RustText

/-- `str::as_bytes`: the UTF-8 encoding. -/
def asBytes (text : String) : Bytes :=
  text.toList.flatMap String.utf8EncodeChar

theorem asBytes_toByteArray (text : String) :
    (asBytes text).toByteArray = text.toByteArray := by
  rw [← String.ofList_toList (s := text), String.toByteArray_ofList]
  simp [asBytes, List.utf8Encode]

theorem asBytes_injective : Function.Injective asBytes := by
  intro first second same
  apply String.toByteArray_inj.mp
  rw [← asBytes_toByteArray first, ← asBytes_toByteArray second, same]

/-- A character of which some bytes have been read: the payload bits so far, the
bytes missing after the next one, and the range of the next one. -/
structure Pending where
  bits : Nat
  missing : Nat
  low : UInt8
  high : UInt8

/-- What a first byte opens: a whole character, an ill-formed piece, or a
sequence.  The range of the second byte excludes overlong forms and
surrogates. -/
def lead (byte : UInt8) : Option Char ⊕ Pending :=
  if byte < 0x80 then .inl (some (Char.ofNat byte.toNat))
  else if byte < 0xC2 then .inl none
  else if byte < 0xE0 then .inr ⟨byte.toNat % 32, 0, 0x80, 0xBF⟩
  else if byte < 0xF0 then
    .inr ⟨byte.toNat % 16, 1,
      if byte = 0xE0 then 0xA0 else 0x80, if byte = 0xED then 0x9F else 0xBF⟩
  else if byte < 0xF5 then
    .inr ⟨byte.toNat % 8, 2,
      if byte = 0xF0 then 0x90 else 0x80, if byte = 0xF4 then 0x8F else 0xBF⟩
  else .inl none

/-- Decode UTF-8; `none` stands for one maximal ill-formed piece. -/
def decodeFrom : Option Pending → Bytes → List (Option Char)
  | none, [] => []
  | some _, [] => [none]
  | none, byte :: rest =>
      match lead byte with
      | .inl piece => piece :: decodeFrom none rest
      | .inr pending => decodeFrom (some pending) rest
  | some pending, byte :: rest =>
      if pending.low ≤ byte ∧ byte ≤ pending.high then
        match pending.missing with
        | 0 =>
            some (Char.ofNat (pending.bits * 64 + byte.toNat % 64)) ::
              decodeFrom none rest
        | missing + 1 =>
            decodeFrom
              (some ⟨pending.bits * 64 + byte.toNat % 64, missing, 0x80, 0xBF⟩)
              rest
      else
        -- The piece ends before this byte, which opens the next one.
        none ::
          match lead byte with
          | .inl piece => piece :: decodeFrom none rest
          | .inr opened => decodeFrom (some opened) rest

/-- A byte that opens a sequence leaves it pending. -/
theorem decodeFrom_open {byte : UInt8} {pending : Pending}
    (opened : lead byte = .inr pending) (rest : Bytes) :
    decodeFrom none (byte :: rest) = decodeFrom (some pending) rest := by
  simp only [decodeFrom, opened]

section RoundTrip

variable {value : Nat} (small : value < 256)

include small

theorem toNat_byte : (UInt8.ofNat value).toNat = value := by
  simp [Nat.mod_eq_of_lt small]

theorem byte_lt_iff (bound : UInt8) :
    UInt8.ofNat value < bound ↔ value < bound.toNat := by
  rw [UInt8.lt_iff_toNat_lt, toNat_byte small]

theorem byte_eq_iff (bound : UInt8) :
    UInt8.ofNat value = bound ↔ value = bound.toNat := by
  rw [← UInt8.toNat_inj, toNat_byte small]

/-- A byte in range continues a sequence. -/
theorem decodeFrom_continue {pending : Pending}
    (above : pending.low.toNat ≤ value) (below : value ≤ pending.high.toNat)
    (rest : Bytes) :
    decodeFrom (some pending) (UInt8.ofNat value :: rest) =
      match pending.missing with
      | 0 =>
          some (Char.ofNat (pending.bits * 64 + value % 64)) ::
            decodeFrom none rest
      | missing + 1 =>
          decodeFrom
            (some ⟨pending.bits * 64 + value % 64, missing, 0x80, 0xBF⟩)
            rest := by
  have inRange : pending.low ≤ UInt8.ofNat value ∧
      UInt8.ofNat value ≤ pending.high := by
    rw [UInt8.le_iff_toNat_le, UInt8.le_iff_toNat_le, toNat_byte small]
    exact ⟨above, below⟩
  rw [decodeFrom, if_pos inRange, toNat_byte small]

end RoundTrip

theorem decodeFrom_twoBytes {value : Nat} (above : 127 < value)
    (below : value ≤ 2047) (rest : Bytes) :
    decodeFrom none
        (UInt8.ofNat (value / 64 % 32 + 192) ::
          UInt8.ofNat (value % 64 + 128) :: rest) =
      some (Char.ofNat value) :: decodeFrom none rest := by
  have small : value / 64 % 32 + 192 < 256 := by omega
  have bits : (value / 64 % 32 + 192) % 32 = value / 64 := by omega
  have opened : lead (UInt8.ofNat (value / 64 % 32 + 192)) =
      .inr ⟨value / 64, 0, 0x80, 0xBF⟩ := by
    simp only [lead, byte_lt_iff small, toNat_byte small, bits]
    rw [if_neg (by simp), if_neg (by simp; omega), if_pos (by simp; omega)]
  have joined : value / 64 * 64 + (value % 64 + 128) % 64 = value := by omega
  rw [decodeFrom_open opened,
    decodeFrom_continue (by omega) (by simp) (by simp; omega)]
  simp only [joined]

theorem decodeFrom_threeBytes {value : Nat} (above : 2047 < value)
    (below : value ≤ 65535) (valid : value < 0xD800 ∨ 0xDFFF < value)
    (rest : Bytes) :
    decodeFrom none
        (UInt8.ofNat (value / 4096 % 16 + 224) ::
          UInt8.ofNat (value / 64 % 64 + 128) ::
          UInt8.ofNat (value % 64 + 128) :: rest) =
      some (Char.ofNat value) :: decodeFrom none rest := by
  have small : value / 4096 % 16 + 224 < 256 := by omega
  have bits : (value / 4096 % 16 + 224) % 16 = value / 4096 := by omega
  have first : value / 4096 % 16 + 224 = 224 ↔ value / 4096 = 0 := by omega
  have last : value / 4096 % 16 + 224 = 237 ↔ value / 4096 = 13 := by omega
  have opened : lead (UInt8.ofNat (value / 4096 % 16 + 224)) =
      .inr ⟨value / 4096, 1, if value / 4096 = 0 then 0xA0 else 0x80,
        if value / 4096 = 13 then 0x9F else 0xBF⟩ := by
    simp only [lead, byte_lt_iff small, byte_eq_iff small, toNat_byte small,
      bits]
    rw [if_neg (by simp), if_neg (by simp), if_neg (by simp),
      if_pos (by simp; omega)]
    simp only [UInt8.reduceToNat, first, last]
  have joined :
      (value / 4096 * 64 + (value / 64 % 64 + 128) % 64) * 64 +
        (value % 64 + 128) % 64 = value := by
    omega
  rw [decodeFrom_open opened,
    decodeFrom_continue (by omega)
      (by dsimp only; split <;> (simp only [UInt8.reduceToNat]; omega))
      (by dsimp only; split <;> (simp only [UInt8.reduceToNat]; omega))]
  dsimp only
  rw [decodeFrom_continue (by omega) (by simp) (by simp; omega)]
  simp only [joined]

theorem decodeFrom_fourBytes {value : Nat} (above : 65535 < value)
    (below : value < 0x110000) (rest : Bytes) :
    decodeFrom none
        (UInt8.ofNat (value / 262144 % 8 + 240) ::
          UInt8.ofNat (value / 4096 % 64 + 128) ::
          UInt8.ofNat (value / 64 % 64 + 128) ::
          UInt8.ofNat (value % 64 + 128) :: rest) =
      some (Char.ofNat value) :: decodeFrom none rest := by
  have small : value / 262144 % 8 + 240 < 256 := by omega
  have bits : (value / 262144 % 8 + 240) % 8 = value / 262144 := by omega
  have first : value / 262144 % 8 + 240 = 240 ↔ value / 262144 = 0 := by omega
  have last : value / 262144 % 8 + 240 = 244 ↔ value / 262144 = 4 := by omega
  have opened : lead (UInt8.ofNat (value / 262144 % 8 + 240)) =
      .inr ⟨value / 262144, 2, if value / 262144 = 0 then 0x90 else 0x80,
        if value / 262144 = 4 then 0x8F else 0xBF⟩ := by
    simp only [lead, byte_lt_iff small, byte_eq_iff small, toNat_byte small,
      bits]
    rw [if_neg (by simp), if_neg (by simp), if_neg (by simp),
      if_neg (by simp), if_pos (by simp; omega)]
    simp only [UInt8.reduceToNat, first, last]
  have joined :
      ((value / 262144 * 64 + (value / 4096 % 64 + 128) % 64) * 64 +
          (value / 64 % 64 + 128) % 64) * 64 +
        (value % 64 + 128) % 64 = value := by
    omega
  rw [decodeFrom_open opened,
    decodeFrom_continue (by omega)
      (by dsimp only; split <;> (simp only [UInt8.reduceToNat]; omega))
      (by dsimp only; split <;> (simp only [UInt8.reduceToNat]; omega))]
  dsimp only
  rw [decodeFrom_continue (by omega) (by simp) (by simp; omega)]
  dsimp only
  rw [decodeFrom_continue (by omega) (by simp) (by simp; omega)]
  simp only [joined]

/-- Decoding reads one encoded character back. -/
theorem decodeFrom_encode (character : Char) (rest : Bytes) :
    decodeFrom none (String.utf8EncodeChar character ++ rest) =
      some character :: decodeFrom none rest := by
  have valid : character.val.toNat < 0xD800 ∨
      (0xDFFF < character.val.toNat ∧ character.val.toNat < 0x110000) :=
    character.valid
  have back : Char.ofNat character.val.toNat = character :=
    Char.ofNat_toNat character
  unfold String.utf8EncodeChar
  generalize character.val.toNat = value at valid back
  subst back
  dsimp only
  split
  · have small : value < 256 := by omega
    have ascii : value < 128 := by omega
    simp [decodeFrom, lead, byte_lt_iff small, toNat_byte small, ascii]
  split
  · exact decodeFrom_twoBytes (by omega) (by omega) rest
  split
  · exact decodeFrom_threeBytes (by omega) (by omega) (by omega) rest
  · exact decodeFrom_fourBytes (by omega) (by omega) rest

theorem decodeFrom_asBytes (text : String) :
    decodeFrom none (asBytes text) = text.toList.map some := by
  unfold asBytes
  induction text.toList with
  | nil => rfl
  | cons character rest induction =>
      rw [List.flatMap_cons, decodeFrom_encode, induction, List.map_cons]

/-- `str::from_utf8`, for the text it accepts. -/
def fromUtf8 (bytes : Bytes) : Option String :=
  ((decodeFrom none bytes).mapM id).map String.ofList

/-- `String::from_utf8_lossy`. -/
def fromUtf8Lossy (bytes : Bytes) : String :=
  String.ofList ((decodeFrom none bytes).map fun piece => piece.getD '\uFFFD')

@[simp]
theorem fromUtf8_asBytes (text : String) :
    fromUtf8 (asBytes text) = some text := by
  have every : (text.toList.map some).mapM id = some text.toList := by
    induction text.toList with
    | nil => rfl
    | cons character rest induction =>
        simp [List.mapM_cons, induction]
  simp [fromUtf8, decodeFrom_asBytes, every]

@[simp]
theorem fromUtf8Lossy_asBytes (text : String) :
    fromUtf8Lossy (asBytes text) = text := by
  simp [fromUtf8Lossy, decodeFrom_asBytes, Function.comp_def]

/-- A pending sequence that ends in a character goes on with a byte in its
range. -/
theorem decodeFrom_pending {pending : Pending} {bytes : Bytes}
    {character : Char} {tail : List (Option Char)}
    (decoded : decodeFrom (some pending) bytes = some character :: tail) :
    ∃ byte rest, bytes = byte :: rest ∧ pending.low.toNat ≤ byte.toNat ∧
      byte.toNat ≤ pending.high.toNat ∧
      match pending.missing with
      | 0 =>
          Char.ofNat (pending.bits * 64 + byte.toNat % 64) = character ∧
            decodeFrom none rest = tail
      | missing + 1 =>
          decodeFrom
              (some ⟨pending.bits * 64 + byte.toNat % 64, missing, 0x80, 0xBF⟩)
              rest =
            some character :: tail := by
  cases bytes with
  | nil => simp [decodeFrom] at decoded
  | cons byte rest =>
      rw [decodeFrom] at decoded
      by_cases inRange : pending.low ≤ byte ∧ byte ≤ pending.high
      · rw [if_pos inRange] at decoded
        refine ⟨byte, rest, rfl, UInt8.le_iff_toNat_le.mp inRange.1,
          UInt8.le_iff_toNat_le.mp inRange.2, ?_⟩
        obtain ⟨bits, missing, low, high⟩ := pending
        cases missing with
        | zero => simpa using decoded
        | succ missing => exact decoded
      · rw [if_neg inRange] at decoded
        simp at decoded

theorem toNat_ofNat_of_valid {value : Nat}
    (valid : value < 0xD800 ∨ (0xDFFF < value ∧ value < 0x110000)) :
    (Char.ofNat value).val.toNat = value := by
  have isValid : value.isValidChar := valid
  rw [Char.ofNat, dif_pos isValid]
  rfl

theorem eq_ofNat {byte : UInt8} {value : Nat} (same : byte.toNat = value) :
    byte = UInt8.ofNat value := by
  rw [← same, UInt8.ofNat_toNat]

/-- What a first byte opens, by the range it is in. -/
theorem lead_cases (byte : UInt8) :
    (byte.toNat < 128 ∧ lead byte = .inl (some (Char.ofNat byte.toNat))) ∨
      lead byte = .inl none ∨
      ∃ bits missing low high, lead byte = .inr ⟨bits, missing, low, high⟩ ∧
        128 ≤ low.toNat ∧ high.toNat ≤ 191 ∧
        ((missing = 0 ∧ byte.toNat = bits + 192 ∧ 2 ≤ bits ∧ bits < 32) ∨
          (missing = 1 ∧ byte.toNat = bits + 224 ∧ bits < 16 ∧
            (bits = 0 → 160 ≤ low.toNat) ∧ (bits = 13 → high.toNat ≤ 159)) ∨
          (missing = 2 ∧ byte.toNat = bits + 240 ∧ bits < 5 ∧
            (bits = 0 → 144 ≤ low.toNat) ∧ (bits = 4 → high.toNat ≤ 143))) := by
  simp only [lead, UInt8.lt_iff_toNat_lt, ← UInt8.toNat_inj, UInt8.reduceToNat]
  by_cases ascii : byte.toNat < 128
  · exact .inl ⟨ascii, if_pos ascii⟩
  rw [if_neg ascii]
  by_cases continuation : byte.toNat < 194
  · exact .inr (.inl (if_pos continuation))
  rw [if_neg continuation]
  by_cases two : byte.toNat < 224
  · rw [if_pos two]
    exact .inr (.inr ⟨_, _, _, _, rfl, by simp, by simp, .inl (by omega)⟩)
  rw [if_neg two]
  by_cases three : byte.toNat < 240
  · rw [if_pos three]
    refine .inr (.inr ⟨_, _, _, _, rfl, ?_, ?_,
      .inr (.inl ⟨rfl, by omega, by omega, ?_, ?_⟩)⟩)
    · split <;> simp
    · split <;> simp
    · intro lowest
      rw [if_pos (by omega)]
      simp
    · intro surrogate
      rw [if_pos (by omega)]
      simp
  rw [if_neg three]
  by_cases four : byte.toNat < 245
  · rw [if_pos four]
    refine .inr (.inr ⟨_, _, _, _, rfl, ?_, ?_,
      .inr (.inr ⟨rfl, by omega, by omega, ?_, ?_⟩)⟩)
    · split <;> simp
    · split <;> simp
    · intro lowest
      rw [if_pos (by omega)]
      simp
    · intro highest
      rw [if_pos (by omega)]
      simp
  · exact .inr (.inl (if_neg four))

section Encoding

variable {value : Nat}

theorem encode_ascii (below : value < 128) :
    String.utf8EncodeChar (Char.ofNat value) = [UInt8.ofNat value] := by
  unfold String.utf8EncodeChar
  rw [toNat_ofNat_of_valid (by omega)]
  dsimp only
  rw [if_pos (by omega)]

theorem encode_twoBytes (above : 127 < value) (below : value ≤ 2047) :
    String.utf8EncodeChar (Char.ofNat value) =
      [UInt8.ofNat (value / 64 % 32 + 192), UInt8.ofNat (value % 64 + 128)] := by
  unfold String.utf8EncodeChar
  rw [toNat_ofNat_of_valid (by omega)]
  dsimp only
  rw [if_neg (by omega), if_pos below]

theorem encode_threeBytes (above : 2047 < value) (below : value ≤ 65535)
    (valid : value < 0xD800 ∨ 0xDFFF < value) :
    String.utf8EncodeChar (Char.ofNat value) =
      [UInt8.ofNat (value / 4096 % 16 + 224),
        UInt8.ofNat (value / 64 % 64 + 128), UInt8.ofNat (value % 64 + 128)] := by
  unfold String.utf8EncodeChar
  rw [toNat_ofNat_of_valid (by omega)]
  dsimp only
  rw [if_neg (by omega), if_neg (by omega), if_pos below]

theorem encode_fourBytes (above : 65535 < value) (below : value < 0x110000) :
    String.utf8EncodeChar (Char.ofNat value) =
      [UInt8.ofNat (value / 262144 % 8 + 240),
        UInt8.ofNat (value / 4096 % 64 + 128),
        UInt8.ofNat (value / 64 % 64 + 128), UInt8.ofNat (value % 64 + 128)] := by
  unfold String.utf8EncodeChar
  rw [toNat_ofNat_of_valid (by omega)]
  dsimp only
  rw [if_neg (by omega), if_neg (by omega), if_neg (by omega)]

end Encoding

/-- Reading a character takes its encoding off the bytes. -/
theorem decodeFrom_character {bytes : Bytes} {character : Char}
    {tail : List (Option Char)}
    (decoded : decodeFrom none bytes = some character :: tail) :
    ∃ rest, bytes = String.utf8EncodeChar character ++ rest ∧
      decodeFrom none rest = tail := by
  cases bytes with
  | nil => cases decoded
  | cons first rest =>
      rcases lead_cases first with ⟨ascii, led⟩ | led |
        ⟨bits, missing, low, high, led, above, below, shape⟩
      · simp only [decodeFrom, led, List.cons.injEq, Option.some.injEq] at decoded
        obtain ⟨rfl, behind⟩ := decoded
        exact ⟨rest, by simp [encode_ascii ascii], behind⟩
      · simp [decodeFrom, led] at decoded
      rw [decodeFrom_open led] at decoded
      obtain ⟨second, rest, rfl, secondLow, secondHigh, decoded⟩ :=
        decodeFrom_pending decoded
      dsimp only at secondLow secondHigh decoded
      rcases shape with ⟨rfl, firstIs, atLeast, atMost⟩ |
        ⟨rfl, firstIs, atMost, lowest, surrogate⟩ |
        ⟨rfl, firstIs, atMost, lowest, highest⟩
      · obtain ⟨rfl, behind⟩ := decoded
        refine ⟨rest, ?_, behind⟩
        rw [encode_twoBytes (by omega) (by omega)]
        exact congrArg₂ _ (eq_ofNat (by omega))
          (congrArg₂ _ (eq_ofNat (by omega)) rfl)
      · obtain ⟨third, rest, rfl, thirdLow, thirdHigh, decoded⟩ :=
          decodeFrom_pending decoded
        simp only [UInt8.reduceToNat] at thirdLow thirdHigh decoded
        obtain ⟨rfl, behind⟩ := decoded
        refine ⟨rest, ?_, behind⟩
        rw [encode_threeBytes (by omega) (by omega) (by omega)]
        exact congrArg₂ _ (eq_ofNat (by omega))
          (congrArg₂ _ (eq_ofNat (by omega))
            (congrArg₂ _ (eq_ofNat (by omega)) rfl))
      · obtain ⟨third, rest, rfl, thirdLow, thirdHigh, decoded⟩ :=
          decodeFrom_pending decoded
        simp only [UInt8.reduceToNat] at thirdLow thirdHigh decoded
        obtain ⟨fourth, rest, rfl, fourthLow, fourthHigh, decoded⟩ :=
          decodeFrom_pending decoded
        simp only [UInt8.reduceToNat] at fourthLow fourthHigh decoded
        obtain ⟨rfl, behind⟩ := decoded
        refine ⟨rest, ?_, behind⟩
        rw [encode_fourBytes (by omega) (by omega)]
        exact congrArg₂ _ (eq_ofNat (by omega))
          (congrArg₂ _ (eq_ofNat (by omega))
            (congrArg₂ _ (eq_ofNat (by omega))
              (congrArg₂ _ (eq_ofNat (by omega)) rfl)))

/-- Every byte leaves a piece behind. -/
theorem decodeFrom_nil {bytes : Bytes} (decoded : decodeFrom none bytes = []) :
    bytes = [] := by
  have pieces : ∀ (rest : Bytes) (pending : Pending),
      decodeFrom (some pending) rest ≠ [] := by
    intro rest
    induction rest with
    | nil => simp [decodeFrom]
    | cons byte rest induction =>
        intro pending
        rw [decodeFrom]
        split
        · split
          · simp
          · exact induction _
        · simp
  cases bytes with
  | nil => rfl
  | cons first rest =>
      rw [decodeFrom] at decoded
      split at decoded
      · cases decoded
      · exact absurd decoded (pieces _ _)

theorem asBytes_of_decodeFrom {bytes : Bytes} {text : String}
    (decoded : decodeFrom none bytes = text.toList.map some) :
    bytes = asBytes text := by
  unfold asBytes
  generalize text.toList = characters at decoded
  induction characters generalizing bytes with
  | nil =>
      exact decodeFrom_nil decoded
  | cons character later induction =>
      obtain ⟨rest, rfl, behind⟩ := decodeFrom_character decoded
      rw [List.flatMap_cons, ← induction behind]

theorem eq_map_some_of_mapM {pieces : List (Option Char)}
    {characters : List Char} (whole : pieces.mapM id = some characters) :
    pieces = characters.map some := by
  induction pieces generalizing characters with
  | nil =>
      cases whole
      rfl
  | cons piece rest induction =>
      rw [List.mapM_cons] at whole
      obtain ⟨character, rfl, later⟩ := Option.bind_eq_some_iff.mp whole
      obtain ⟨others, behind, same⟩ := Option.bind_eq_some_iff.mp later
      cases same
      rw [List.map_cons, ← induction behind]

/-- `from_utf8` accepts exactly the encodings. -/
theorem fromUtf8_eq_some_iff {bytes : Bytes} {text : String} :
    fromUtf8 bytes = some text ↔ bytes = asBytes text := by
  constructor
  · intro accepted
    obtain ⟨characters, whole, rfl⟩ := Option.map_eq_some_iff.mp accepted
    apply asBytes_of_decodeFrom
    rw [String.toList_ofList]
    exact eq_map_some_of_mapM whole
  · rintro rfl
    exact fromUtf8_asBytes text

/-- A text without the replacement character was read from its encoding. -/
theorem asBytes_of_fromUtf8Lossy {bytes : Bytes} {text : String}
    (plain : '\uFFFD' ∉ text.toList) (read : fromUtf8Lossy bytes = text) :
    bytes = asBytes text := by
  subst read
  apply asBytes_of_decodeFrom
  unfold fromUtf8Lossy at plain ⊢
  rw [String.toList_ofList] at plain ⊢
  rw [List.map_map]
  have same : ∀ piece ∈ decodeFrom none bytes,
      some (piece.getD '\uFFFD') = piece := by
    intro piece member
    cases piece with
    | some character => rfl
    | none => exact absurd (List.mem_map.mpr ⟨none, member, rfl⟩) plain
  exact (List.map_congr_left same).trans (List.map_id _) |>.symm

/-- `char::is_whitespace`: the Unicode property White_Space. -/
def isWhitespace (character : Char) : Bool :=
  let code := character.toNat
  (9 ≤ code && code ≤ 13) || code == 0x20 || code == 0x85 || code == 0xA0 ||
    code == 0x1680 || (0x2000 ≤ code && code ≤ 0x200A) || code == 0x2028 ||
    code == 0x2029 || code == 0x202F || code == 0x205F || code == 0x3000

/-- Drop the matching characters off the end. -/
def trimEndMatches (dropped : Char → Bool) (text : String) : String :=
  String.ofList (text.toList.reverse.dropWhile dropped).reverse

/-- `str::trim`. -/
def trim (text : String) : String :=
  trimEndMatches isWhitespace
    (String.ofList (text.toList.dropWhile isWhitespace))

/-- A run of one character that is not dropped stays. -/
theorem trimEndMatches_replicate {dropped : Char → Bool} {character : Char}
    (kept : dropped character = false) (count : Nat) :
    trimEndMatches dropped (String.ofList (List.replicate count character)) =
      String.ofList (List.replicate count character) := by
  unfold trimEndMatches
  rw [String.toList_ofList, List.reverse_replicate, List.dropWhile_replicate,
    if_neg (by simp [kept]), List.reverse_replicate]

theorem trim_replicate {character : Char}
    (kept : isWhitespace character = false) (count : Nat) :
    trim (String.ofList (List.replicate count character)) =
      String.ofList (List.replicate count character) := by
  unfold trim
  rw [String.toList_ofList, List.dropWhile_replicate,
    if_neg (by simp [kept]), trimEndMatches_replicate kept]

/-- One carriage return belongs to the line end. -/
def stripReturn (line : List Char) : List Char :=
  if line.getLast? = some '\r' then line.dropLast else line

/-- The lines; a final line feed opens no further one, and a last line without one
keeps its carriage return. -/
def splitLines : List Char → List Char → List (List Char)
  | [], [] => []
  | current, [] => [current.reverse]
  | current, character :: rest =>
      if character = '\n' then stripReturn current.reverse :: splitLines [] rest
      else splitLines (character :: current) rest

/-- `str::lines`. -/
def lines (text : String) : List String :=
  (splitLines [] text.toList).map String.ofList

/-- A text of whole lines: it is empty or ends with a line feed. -/
def WholeLines (text : String) : Prop :=
  text = "" ∨ ∃ front, text = front ++ "\n"

theorem splitLines_append (current front rest : List Char) :
    splitLines current (front ++ '\n' :: rest) =
      splitLines current (front ++ ['\n']) ++ splitLines [] rest := by
  induction front generalizing current with
  | nil => simp [splitLines]
  | cons character front induction =>
      simp only [List.cons_append, splitLines]
      split
      · rw [induction, List.cons_append]
      · exact induction _

theorem splitLines_line (current : List Char) {line : List Char}
    (unbroken : '\n' ∉ line) :
    splitLines current (line ++ ['\n']) =
      [stripReturn (current.reverse ++ line)] := by
  induction line generalizing current with
  | nil => simp [splitLines]
  | cons character line induction =>
      have differ : character ≠ '\n' := by
        rintro rfl
        exact unbroken List.mem_cons_self
      rw [List.cons_append, splitLines, if_neg differ,
        induction _ fun member => unbroken (List.mem_cons_of_mem _ member)]
      simp

/-- A line behind whole lines is one more line. -/
theorem lines_append_line {text line : String} (whole : WholeLines text)
    (unbroken : ∀ character ∈ line.toList,
      character ≠ '\n' ∧ character ≠ '\r') :
    lines (text ++ line ++ "\n") = lines text ++ [line] := by
  have noFeed : '\n' ∉ line.toList := fun member =>
    (unbroken _ member).1 rfl
  have noReturn : stripReturn line.toList = line.toList := by
    refine if_neg fun last => ?_
    exact (unbroken _ (List.mem_of_getLast? last)).2 rfl
  have one : splitLines [] (line.toList ++ ['\n']) = [line.toList] := by
    rw [splitLines_line [] noFeed, List.reverse_nil, List.nil_append, noReturn]
  have feed : "\n".toList = ['\n'] := rfl
  unfold lines
  obtain rfl | ⟨front, rfl⟩ := whole
  · simp only [String.toList_append, feed, String.toList_empty,
      List.nil_append, one, splitLines, List.map_nil, List.map_singleton,
      String.ofList_toList]
  · have split := splitLines_append [] front.toList (line.toList ++ ['\n'])
    simp only [String.toList_append, feed, List.append_assoc,
      List.cons_append, List.nil_append, split, one, List.map_append,
      List.map_singleton, String.ofList_toList]

theorem wholeLines_append (text : String) : WholeLines (text ++ "\n") :=
  .inr ⟨text, rfl⟩

/-- One lower-case hexadecimal digit. -/
def hexDigit (value : Nat) : Char :=
  Char.ofNat (if value < 10 then 48 + value else 87 + value)

/-- `hex::encode`. -/
def hexEncode (bytes : Bytes) : String :=
  String.ofList (bytes.flatMap fun byte =>
    [hexDigit (byte.toNat / 16), hexDigit (byte.toNat % 16)])

theorem hexEncode_ne_empty {bytes : Bytes} (nonempty : bytes ≠ []) :
    hexEncode bytes ≠ "" := by
  cases bytes with
  | nil => exact absurd rfl nonempty
  | cons byte rest => simp [hexEncode]

example : fromUtf8Lossy [0x73, 0xC3, 0xA9, 0xFF, 0xE2, 0x82] =
    String.ofList ['s', 'é', '\uFFFD', '\uFFFD'] := by decide

end RustText
