import Loa.RustText

/-!
# URL-safe base64 without padding

The encoding of RFC 4648, section 5, without padding, and a strict decoder:
it refuses foreign symbols, a single symbol at the end, and bits left over in
the last symbol.  Both go through the list of six-bit values.
-/

namespace Base64Url

open RustText

/-- The symbol of a six-bit value. -/
def symbol (value : Nat) : Char :=
  Char.ofNat
    (if value < 26 then 65 + value
    else if value < 52 then 71 + value
    else if value < 62 then value - 4
    else if value = 62 then 45
    else 95)

/-- The six-bit value of a symbol. -/
def symbolValue (byte : UInt8) : Option Nat :=
  let code := byte.toNat
  if 65 ≤ code ∧ code ≤ 90 then some (code - 65)
  else if 97 ≤ code ∧ code ≤ 122 then some (code - 71)
  else if 48 ≤ code ∧ code ≤ 57 then some (code + 4)
  else if code = 45 then some 62
  else if code = 95 then some 63
  else none

def splitValues : Bytes → List Nat
  | [] => []
  | [a] => [a.toNat / 4, a.toNat % 4 * 16]
  | [a, b] =>
      [a.toNat / 4, a.toNat % 4 * 16 + b.toNat / 16, b.toNat % 16 * 4]
  | a :: b :: c :: rest =>
      a.toNat / 4 :: (a.toNat % 4 * 16 + b.toNat / 16) ::
        (b.toNat % 16 * 4 + c.toNat / 64) :: c.toNat % 64 :: splitValues rest

def joinValues : List Nat → Option Bytes
  | [] => some []
  | [_] => none
  | [w, x] =>
      if x % 16 = 0 then some [UInt8.ofNat (w * 4 + x / 16)] else none
  | [w, x, y] =>
      if y % 4 = 0 then
        some [UInt8.ofNat (w * 4 + x / 16), UInt8.ofNat (x % 16 * 16 + y / 4)]
      else none
  | w :: x :: y :: z :: rest =>
      (joinValues rest).map fun bytes =>
        UInt8.ofNat (w * 4 + x / 16) :: UInt8.ofNat (x % 16 * 16 + y / 4) ::
          UInt8.ofNat (y % 4 * 64 + z) :: bytes

def encode (bytes : Bytes) : String :=
  String.ofList ((splitValues bytes).map symbol)

def decode (text : Bytes) : Option Bytes :=
  (text.mapM symbolValue).bind joinValues

theorem symbol_ascii {value : Nat} (small : value < 64) :
    String.utf8EncodeChar (symbol value) =
      [UInt8.ofNat (symbol value).toNat] := by
  revert value
  decide

theorem symbolValue_symbol {value : Nat} (small : value < 64) :
    symbolValue (UInt8.ofNat (symbol value).toNat) = some value := by
  revert value
  decide

/-- No symbol is white space or padding. -/
theorem symbol_plain {value : Nat} (small : value < 64) :
    isWhitespace (symbol value) = false ∧ symbol value ≠ '=' ∧
      UInt8.ofNat (symbol value).toNat ≠ 61 := by
  revert value
  decide

theorem splitValues_lt (bytes : Bytes) :
    ∀ value ∈ splitValues bytes, value < 64 := by
  induction bytes using splitValues.induct with
  | case1 => simp [splitValues]
  | case2 a =>
      have aSmall := a.toNat_lt
      simp only [splitValues, List.mem_cons, List.not_mem_nil, or_false]
      rintro value (rfl | rfl) <;> omega
  | case3 a b =>
      have aSmall := a.toNat_lt
      have bSmall := b.toNat_lt
      simp only [splitValues, List.mem_cons, List.not_mem_nil, or_false]
      rintro value (rfl | rfl | rfl) <;> omega
  | case4 a b c rest induction =>
      have aSmall := a.toNat_lt
      have bSmall := b.toNat_lt
      have cSmall := c.toNat_lt
      simp only [splitValues, List.mem_cons]
      rintro value (rfl | rfl | rfl | rfl | later)
      · omega
      · omega
      · omega
      · omega
      · exact induction value later

theorem ofNat_of_eq {byte : UInt8} {value : Nat} (same : value = byte.toNat) :
    UInt8.ofNat value = byte := by
  rw [same, UInt8.ofNat_toNat]

/-- Joining undoes splitting. -/
theorem joinValues_splitValues (bytes : Bytes) :
    joinValues (splitValues bytes) = some bytes := by
  induction bytes using splitValues.induct with
  | case1 => rfl
  | case2 a =>
      have aSmall := a.toNat_lt
      have whole : UInt8.ofNat (a.toNat / 4 * 4 + a.toNat % 4 * 16 / 16) = a :=
        ofNat_of_eq (by omega)
      have left : a.toNat % 4 * 16 % 16 = 0 := by omega
      simp only [splitValues, joinValues, if_pos left, whole]
  | case3 a b =>
      have aSmall := a.toNat_lt
      have bSmall := b.toNat_lt
      have first : UInt8.ofNat
          (a.toNat / 4 * 4 + (a.toNat % 4 * 16 + b.toNat / 16) / 16) = a :=
        ofNat_of_eq (by omega)
      have second : UInt8.ofNat
          ((a.toNat % 4 * 16 + b.toNat / 16) % 16 * 16 +
            b.toNat % 16 * 4 / 4) = b :=
        ofNat_of_eq (by omega)
      have left : b.toNat % 16 * 4 % 4 = 0 := by omega
      simp only [splitValues, joinValues, if_pos left, first, second]
  | case4 a b c rest induction =>
      have aSmall := a.toNat_lt
      have bSmall := b.toNat_lt
      have cSmall := c.toNat_lt
      have first : UInt8.ofNat
          (a.toNat / 4 * 4 + (a.toNat % 4 * 16 + b.toNat / 16) / 16) = a :=
        ofNat_of_eq (by omega)
      have second : UInt8.ofNat
          ((a.toNat % 4 * 16 + b.toNat / 16) % 16 * 16 +
            (b.toNat % 16 * 4 + c.toNat / 64) / 4) = b :=
        ofNat_of_eq (by omega)
      have third : UInt8.ofNat
          ((b.toNat % 16 * 4 + c.toNat / 64) % 4 * 64 + c.toNat % 64) = c :=
        ofNat_of_eq (by omega)
      simp only [splitValues, joinValues, induction, Option.map_some, first,
        second, third]

/-- Symbols are ASCII, one byte each. -/
theorem asBytes_symbols {values : List Nat}
    (small : ∀ value ∈ values, value < 64) :
    asBytes (String.ofList (values.map symbol)) =
      values.map fun value => UInt8.ofNat (symbol value).toNat := by
  unfold asBytes
  rw [String.toList_ofList]
  induction values with
  | nil => rfl
  | cons value rest induction =>
      rw [List.map_cons, List.flatMap_cons,
        symbol_ascii (small value List.mem_cons_self),
        induction fun later member =>
          small later (List.mem_cons_of_mem _ member)]
      rfl

theorem mapM_symbolValue {values : List Nat}
    (small : ∀ value ∈ values, value < 64) :
    (values.map fun value => UInt8.ofNat (symbol value).toNat).mapM
        symbolValue = some values := by
  induction values with
  | nil => rfl
  | cons value rest induction =>
      rw [List.map_cons, List.mapM_cons,
        symbolValue_symbol (small value List.mem_cons_self),
        induction fun later member =>
          small later (List.mem_cons_of_mem _ member)]
      rfl

theorem asBytes_encode (bytes : Bytes) :
    asBytes (encode bytes) =
      (splitValues bytes).map fun value =>
        UInt8.ofNat (symbol value).toNat :=
  asBytes_symbols (splitValues_lt bytes)

/-- Decoding reads an encoded text back. -/
theorem decode_encode (bytes : Bytes) :
    decode (asBytes (encode bytes)) = some bytes := by
  rw [decode, asBytes_encode, mapM_symbolValue (splitValues_lt bytes)]
  exact joinValues_splitValues bytes

theorem symbolValue_lt {byte : UInt8} {value : Nat}
    (read : symbolValue byte = some value) : value < 64 := by
  unfold symbolValue at read
  dsimp only at read
  split_ifs at read <;> simp only [Option.some.injEq] at read <;> omega

/-- A byte that reads as a value is the symbol of that value. -/
theorem symbol_of_symbolValue {byte : UInt8} {value : Nat}
    (read : symbolValue byte = some value) :
    UInt8.ofNat (symbol value).toNat = byte := by
  have every : ∀ code < 256, ∀ value ∈ symbolValue (UInt8.ofNat code),
      UInt8.ofNat (symbol value).toNat = UInt8.ofNat code := by
    decide +kernel
  have found := every byte.toNat byte.toNat_lt
  rw [UInt8.ofNat_toNat] at found
  exact found value read

theorem map_of_mapM {text : Bytes} {values : List Nat}
    (read : text.mapM symbolValue = some values) :
    (values.map fun value => UInt8.ofNat (symbol value).toNat) = text ∧
      ∀ value ∈ values, value < 64 := by
  induction text generalizing values with
  | nil =>
      obtain rfl : [] = values := by simpa using read
      simp
  | cons byte rest induction =>
      rw [List.mapM_cons] at read
      simp only [Option.bind_eq_bind, Option.bind_eq_some_iff, Option.pure_def,
        Option.some.injEq] at read
      obtain ⟨value, head, others, tail, rfl⟩ := read
      obtain ⟨same, small⟩ := induction tail
      refine ⟨by rw [List.map_cons, symbol_of_symbolValue head, same], ?_⟩
      intro other member
      rcases List.mem_cons.mp member with rfl | later
      · exact symbolValue_lt head
      · exact small other later

/-- Splitting undoes joining: no two lists of values join to the same bytes. -/
theorem splitValues_of_joinValues {values : List Nat} {bytes : Bytes}
    (small : ∀ value ∈ values, value < 64)
    (joined : joinValues values = some bytes) : splitValues bytes = values := by
  induction values using joinValues.induct generalizing bytes with
  | case1 =>
      obtain rfl : [] = bytes := by simpa [joinValues] using joined
      rfl
  | case2 w => simp [joinValues] at joined
  | case3 w x whole =>
      simp only [joinValues, if_pos whole, Option.some.injEq] at joined
      subst joined
      simp only [List.mem_cons, List.not_mem_nil, or_false, forall_eq_or_imp,
        forall_eq] at small
      simp only [splitValues, UInt8.toNat_ofNat', List.cons.injEq, and_true]
      omega
  | case4 w x left => simp [joinValues, left] at joined
  | case5 w x y whole =>
      simp only [joinValues, if_pos whole, Option.some.injEq] at joined
      subst joined
      simp only [List.mem_cons, List.not_mem_nil, or_false, forall_eq_or_imp,
        forall_eq] at small
      simp only [splitValues, UInt8.toNat_ofNat', List.cons.injEq, and_true]
      omega
  | case6 w x y left => simp [joinValues, left] at joined
  | case7 w x y z rest induction =>
      simp only [joinValues, Option.map_eq_some_iff] at joined
      obtain ⟨others, tail, rfl⟩ := joined
      simp only [List.mem_cons, forall_eq_or_imp] at small
      obtain ⟨wSmall, xSmall, ySmall, zSmall, restSmall⟩ := small
      simp only [splitValues, UInt8.toNat_ofNat', List.cons.injEq]
      refine ⟨by omega, by omega, by omega, by omega, ?_⟩
      exact induction restSmall tail

/-- The decoder accepts a text only if it is the encoding of what it reads. -/
theorem encode_of_decode {text bytes : Bytes}
    (decoded : decode text = some bytes) : asBytes (encode bytes) = text := by
  obtain ⟨values, read, joined⟩ := Option.bind_eq_some_iff.mp decoded
  obtain ⟨same, small⟩ := map_of_mapM read
  rw [asBytes_encode, splitValues_of_joinValues small joined, same]

/-- A text with a foreign symbol is refused. -/
theorem decode_eq_none {text : Bytes} {byte : UInt8} (member : byte ∈ text)
    (foreign : symbolValue byte = none) :
    decode text = none := by
  have values : text.mapM symbolValue = none := by
    induction text with
    | nil => cases member
    | cons head rest induction =>
        rw [List.mapM_cons]
        rcases List.mem_cons.mp member with rfl | later
        · rw [foreign]
          rfl
        · rw [induction later]
          cases symbolValue head <;> rfl
  rw [decode, values]
  rfl

theorem trimEndMatches_encode {dropped : Char → Bool} (bytes : Bytes)
    (kept : ∀ value < 64, dropped (symbol value) = false) :
    trimEndMatches dropped (encode bytes) = encode bytes := by
  unfold trimEndMatches encode
  rw [String.toList_ofList, ← List.map_reverse]
  have small : ∀ value ∈ (splitValues bytes).reverse, value < 64 := by
    intro value member
    exact splitValues_lt bytes value (List.mem_reverse.mp member)
  have stays : ((splitValues bytes).reverse.map symbol).dropWhile dropped =
      (splitValues bytes).reverse.map symbol := by
    cases listed : (splitValues bytes).reverse with
    | nil => rfl
    | cons value rest =>
        rw [List.map_cons, List.dropWhile_cons_of_neg]
        simp [kept value (small value (by simp [listed]))]
  rw [stays, List.map_reverse, List.reverse_reverse]

theorem trim_encode (bytes : Bytes) : trim (encode bytes) = encode bytes := by
  have front : String.ofList
      ((encode bytes).toList.dropWhile isWhitespace) = encode bytes := by
    unfold encode
    rw [String.toList_ofList]
    have small := splitValues_lt bytes
    cases listed : splitValues bytes with
    | nil => rfl
    | cons value rest =>
        rw [List.map_cons, List.dropWhile_cons_of_neg]
        simp [(symbol_plain (small value (by simp [listed]))).1]
  rw [trim, front]
  exact trimEndMatches_encode bytes fun value small => (symbol_plain small).1

end Base64Url
