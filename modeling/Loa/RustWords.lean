import Loa.RustText

/-!
# Words and numbers in a text

The methods of `str` that cut a text in pieces, and the reading of an unsigned
integer, with the kinds of its error.
-/

namespace RustText

/-- `str::strip_prefix`. -/
def stripFront (front text : String) : Option String :=
  if front.toList.isPrefixOf text.toList then
    some (String.ofList (text.toList.drop front.toList.length))
  else none

/-- `str::split_once` at a character. -/
def splitOnce (separator : Char) (text : String) : Option (String × String) :=
  match text.toList.dropWhile fun character => character ≠ separator with
  | [] => none
  | _ :: rest =>
      some (String.ofList
        (text.toList.takeWhile fun character => character ≠ separator),
        String.ofList rest)

/-- `str::rsplit_once` at a character. -/
def rsplitOnce (separator : Char) (text : String) : Option (String × String) :=
  match text.toList.reverse.dropWhile fun character => character ≠ separator with
  | [] => none
  | _ :: front =>
      some (String.ofList front.reverse, String.ofList
        (text.toList.reverse.takeWhile fun character =>
          character ≠ separator).reverse)

/-- `str::split_whitespace`: the words, without empty ones. -/
def splitWhitespace (text : String) : List String :=
  ((text.toList.splitOnP isWhitespace).filter fun word => !word.isEmpty).map
    String.ofList

/-- `char::to_digit`, for a radix up to 36. -/
def toDigit (radix : Nat) (character : Char) : Option Nat :=
  let code := character.toNat
  let value :=
    if 48 ≤ code ∧ code ≤ 57 then code - 48
    else if 97 ≤ code ∧ code ≤ 122 then code - 87
    else if 65 ≤ code ∧ code ≤ 90 then code - 55
    else radix
  if value < radix then some value else none

/-- `IntErrorKind`, as far as an unsigned type can meet it. -/
inductive ParseIntError
  | empty
  | invalidDigit
  | posOverflow
  deriving DecidableEq

def ParseIntError.display : ParseIntError → String
  | .empty => "cannot parse integer from empty string"
  | .invalidDigit => "invalid digit found in string"
  | .posOverflow => "number too large to fit in target type"

/-- One more digit of a number below a bound. -/
def pushDigit (radix bound value : Nat) (character : Char) :
    Except ParseIntError Nat :=
  match toDigit radix character with
  | none => .error .invalidDigit
  | some digit =>
      if value * radix + digit < bound then .ok (value * radix + digit)
      else .error .posOverflow

/-- `from_str_radix` of an unsigned type with the given number of values; only a
plus sign may come first. -/
def fromStrRadix (radix bound : Nat) (text : String) : Except ParseIntError Nat :=
  match text.toList with
  | [] => .error .empty
  | ['+'] => .error .invalidDigit
  | '+' :: digits => digits.foldlM (pushDigit radix bound) 0
  | digits => digits.foldlM (pushDigit radix bound) 0

/-- Drop a text off the front as often as it is there. -/
def dropFronts (front : List Char) : Nat → List Char → List Char
  | 0, text => text
  | fuel + 1, text =>
      if front.isPrefixOf text then
        dropFronts front fuel (text.drop front.length)
      else text

/-- `str::trim_start_matches` of a text that is not empty. -/
def trimStartMatches (front text : String) : String :=
  String.ofList (dropFronts front.toList text.length text.toList)

theorem dropFronts_of_not_begins {front text : List Char}
    (other : front.isPrefixOf text = false) (fuel : Nat) :
    dropFronts front fuel text = text := by
  cases fuel with
  | zero => rfl
  | succ fuel => simp [dropFronts, other]

/-- A text that is in front once is dropped once. -/
theorem trimStartMatches_once {front : String} {rest : List Char}
    (nonempty : front ≠ "") (other : front.toList.isPrefixOf rest = false) :
    trimStartMatches front (String.ofList (front.toList ++ rest)) =
      String.ofList rest := by
  obtain ⟨fuel, length⟩ : ∃ fuel,
      (String.ofList (front.toList ++ rest)).length = fuel + 1 := by
    refine ⟨(front.toList ++ rest).length - 1, ?_⟩
    have some : 0 < front.toList.length := List.length_pos_of_ne_nil
      fun nothing => nonempty (String.toList_eq_nil_iff.mp nothing)
    rw [String.length_ofList, List.length_append]
    omega
  unfold trimStartMatches
  rw [length, String.toList_ofList, dropFronts, if_pos (by simp),
    List.drop_left, dropFronts_of_not_begins other]

theorem trimStartMatches_none {front : String} {text : List Char}
    (other : front.toList.isPrefixOf text = false) :
    trimStartMatches front (String.ofList text) = String.ofList text := by
  unfold trimStartMatches
  rw [String.toList_ofList, dropFronts_of_not_begins other]

/-- The number that a list of digits denotes. -/
def digitsValue (radix : Nat) (digits : List Char) (value : Nat) : Nat :=
  digits.foldl
    (fun value digit => value * radix + (toDigit radix digit).getD 0) value

theorem le_digitsValue {radix : Nat} (positive : 0 < radix)
    (digits : List Char) (value : Nat) :
    value ≤ digitsValue radix digits value := by
  induction digits generalizing value with
  | nil => exact Nat.le_refl _
  | cons digit rest induction =>
      refine Nat.le_trans ?_ (induction _)
      exact Nat.le_trans (Nat.le_mul_of_pos_right _ positive)
        (Nat.le_add_right _ _)

/-- Digits are read one by one up to the bound. -/
theorem foldlM_pushDigit {radix bound : Nat} (positive : 0 < radix)
    {digits : List Char} {value : Nat}
    (all : ∀ digit ∈ digits, (toDigit radix digit).isSome)
    (small : digitsValue radix digits value < bound) :
    digits.foldlM (pushDigit radix bound) value =
      .ok (digitsValue radix digits value) := by
  induction digits generalizing value with
  | nil => rfl
  | cons digit rest induction =>
      obtain ⟨number, read⟩ := Option.isSome_iff_exists.mp
        (all digit List.mem_cons_self)
      have next : digitsValue radix (digit :: rest) value =
          digitsValue radix rest (value * radix + number) := by
        simp [digitsValue, read]
      rw [next] at small ⊢
      have fits := Nat.lt_of_le_of_lt (le_digitsValue positive rest _) small
      have pushed : pushDigit radix bound value digit =
          .ok (value * radix + number) := by
        unfold pushDigit
        rw [read]
        exact if_pos fits
      rw [List.foldlM_cons, pushed]
      exact induction
        (fun other member => all other (List.mem_cons_of_mem _ member)) small

/-- An unsigned number is read from its digits. -/
theorem fromStrRadix_digits {radix bound : Nat} (positive : 0 < radix)
    {digits : List Char} (nonempty : digits ≠ [])
    (all : ∀ digit ∈ digits, (toDigit radix digit).isSome)
    (small : digitsValue radix digits 0 < bound) :
    fromStrRadix radix bound (String.ofList digits) =
      .ok (digitsValue radix digits 0) := by
  have signless : digits.head? ≠ some '+' := by
    intro plus
    have read := all '+' (List.mem_of_head? plus)
    simp [toDigit] at read
  rw [← foldlM_pushDigit positive all small]
  unfold fromStrRadix
  rw [String.toList_ofList]
  split
  · exact absurd rfl nonempty
  · exact absurd rfl signless
  · exact absurd rfl signless
  · rfl

/-- A word with white space behind it is the first word. -/
theorem splitWhitespace_word {word : String} {space : Char} (rest : String)
    (nonempty : word ≠ "")
    (solid : ∀ character ∈ word.toList, isWhitespace character = false)
    (white : isWhitespace space) :
    splitWhitespace (word ++ String.ofList [space] ++ rest) =
      word :: splitWhitespace rest := by
  have written : (word ++ String.ofList [space] ++ rest).toList =
      word.toList ++ space :: rest.toList := by simp
  have some : word.toList.isEmpty = false := by simpa using nonempty
  unfold splitWhitespace
  rw [written, List.splitOnP_append_cons_of_forall_mem solid space white]
  simp [some]

theorem length_splitOnP {α : Type} (cuts : α → Bool) (text : List α) :
    (text.splitOnP cuts).length = text.countP cuts + 1 := by
  induction text with
  | nil => rfl
  | cons first rest induction =>
      rw [List.splitOnP_cons_eq_if_modifyHead, List.countP_cons]
      split <;> simp [*]

/-- A text has at most one word more than it has white space. -/
theorem length_splitWhitespace_le (text : String) :
    (splitWhitespace text).length ≤ text.toList.countP isWhitespace + 1 := by
  unfold splitWhitespace
  rw [List.length_map, ← length_splitOnP]
  exact List.length_filter_le _ _

/-- What `trim` leaves of a text between white space. -/
theorem trim_padded {front back : List Char} {first last : Char}
    {core : List Char} (before : ∀ space ∈ front, isWhitespace space)
    (after : ∀ space ∈ back, isWhitespace space)
    (head : core.head? = some first) (solidHead : isWhitespace first = false)
    (tail : core.getLast? = some last) (solidTail : isWhitespace last = false) :
    trim (String.ofList (front ++ (core ++ back))) = String.ofList core := by
  have begun : (front ++ (core ++ back)).dropWhile isWhitespace = core ++ back := by
    rw [List.dropWhile_append_of_pos before]
    cases core with
    | nil => cases head
    | cons letter letters =>
        obtain rfl := Option.some.inj head
        simp [solidHead]
  have ended : (core ++ back).reverse.dropWhile isWhitespace = core.reverse := by
    rw [List.reverse_append, List.dropWhile_append_of_pos
      fun space member => after space (List.mem_reverse.mp member)]
    rw [← List.head?_reverse] at tail
    cases reversed : core.reverse with
    | nil =>
        rw [reversed] at tail
        cases tail
    | cons letter letters =>
        rw [reversed] at tail
        obtain rfl := Option.some.inj tail
        simp [solidTail]
  simp only [trim, trimEndMatches, String.toList_ofList, begun, ended,
    List.reverse_reverse]

/-- Text in front of any bytes is read back as it was. -/
theorem fromUtf8Lossy_append (front : String) (rest : Bytes) :
    fromUtf8Lossy (asBytes front ++ rest) = front ++ fromUtf8Lossy rest := by
  have decoded : decodeFrom none (asBytes front ++ rest) =
      front.toList.map some ++ decodeFrom none rest := by
    unfold asBytes
    induction front.toList with
    | nil => rfl
    | cons character letters induction =>
        rw [List.flatMap_cons, List.append_assoc, decodeFrom_encode, induction,
          List.map_cons, List.cons_append]
  unfold fromUtf8Lossy
  rw [decoded, List.map_append, String.ofList_append]
  simp [Function.comp_def]

/-- The bytes of a text in ASCII are its characters one by one. -/
theorem asBytes_ascii {text : String}
    (ascii : ∀ character ∈ text.toList, character.toNat < 128) :
    asBytes text = text.toList.map fun character =>
      UInt8.ofNat character.toNat := by
  unfold asBytes
  generalize text.toList = letters at ascii
  induction letters with
  | nil => rfl
  | cons character rest induction =>
      have encoded := encode_ascii (ascii character List.mem_cons_self)
      rw [Char.ofNat_toNat] at encoded
      rw [List.flatMap_cons, encoded, induction fun other member =>
        ascii other (List.mem_cons_of_mem _ member)]
      rfl

end RustText
