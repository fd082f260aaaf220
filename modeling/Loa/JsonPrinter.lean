import Loa.JsonValue
import Loa.RustText
import Mathlib.Tactic.IntervalCases
import Std.Data.String.ToInt

/-!
# A printer of JSON values

The compact text of a value and the text of an object on several lines, as JSON
libraries write them, and that the value can be read off either text.  A double
that is not whole is written as an exact fraction.
-/

namespace Json.Printer

/-- A character inside quotes. -/
def escape (character : Char) : List Char :=
  if character = '"' then ['\\', '"']
  else if character = '\\' then ['\\', '\\']
  else if character = '\n' then ['\\', 'n']
  else if character = '\r' then ['\\', 'r']
  else if character = '\t' then ['\\', 't']
  else if character.toNat = 8 then ['\\', 'b']
  else if character.toNat = 12 then ['\\', 'f']
  else if character.toNat < 32 then
    ['\\', 'u', '0', '0', RustText.hexDigit (character.toNat / 16),
      RustText.hexDigit (character.toNat % 16)]
  else [character]

def quoted (text : String) : List Char :=
  '"' :: (text.toList.flatMap escape ++ ['"'])

/-- The whole number in front. -/
def numerator : Number → Int
  | .integer value => value
  | .double value => value.num

/-- What a double has behind the whole number. -/
def fraction : Number → List Char
  | .integer _ => []
  | .double value =>
      if value.den = 1 then ['.', '0'] else '/' :: value.den.repr.toList

def number (value : Number) : List Char :=
  (numerator value).repr.toList ++ fraction value

/-- Pieces behind the first one, each with its separator, and the end. -/
def rest (separator close : List Char) : List (List Char) → List Char
  | [] => close
  | piece :: pieces => separator ++ piece ++ rest separator close pieces

/-- Pieces with separators between them, and the end. -/
def joined (separator close : List Char) : List (List Char) → List Char
  | [] => close
  | piece :: pieces => piece ++ rest separator close pieces

/-- The compact text. -/
def compact : Value → List Char
  | .null => ['n', 'u', 'l', 'l']
  | .bool true => ['t', 'r', 'u', 'e']
  | .bool false => ['f', 'a', 'l', 's', 'e']
  | .number value => number value
  | .string text => quoted text
  | .array values =>
      '[' :: joined [','] [']'] (values.attach.map fun value => compact value.1)
  | .object fields =>
      '\x7b' :: joined [','] ['\x7d'] (fields.attach.map fun field =>
        quoted field.1.1 ++ ':' :: compact field.1.2)
termination_by value => sizeOf value
decreasing_by
  · have small := List.sizeOf_lt_of_mem value.2
    simp only [Value.array.sizeOf_spec]
    omega
  · have small := List.sizeOf_lt_of_mem field.2
    have part : sizeOf field.1.2 < sizeOf field.1 := by
      obtain ⟨⟨key, value⟩, member⟩ := field
      simp only [Prod.mk.sizeOf_spec]
      omega
    simp only [Value.object.sizeOf_spec]
    omega

/-- A member of an object. -/
def field (colon : List Char) (member : String × Value) : List Char :=
  quoted member.1 ++ (colon ++ compact member.2)

theorem compact_array (values : List Value) :
    compact (.array values) = '[' :: joined [','] [']'] (values.map compact) := by
  rw [compact, List.attach_map_val]

theorem compact_object (fields : List (String × Value)) :
    compact (.object fields) =
      '\x7b' :: joined [','] ['\x7d'] (fields.map (field [':'])) := by
  have members : (fields.attach.map fun member => field [':'] member.1) =
      fields.map (field [':']) := List.attach_map_val
  rw [compact, ← members]
  rfl

/-- The text on several lines, a member a line. -/
def pretty : Value → List Char
  | .object (first :: others) =>
      '\x7b' :: '\n' :: ' ' :: ' ' ::
        joined [',', '\n', ' ', ' '] ['\n', '\x7d']
          ((first :: others).map (field [':', ' ']))
  | value => compact value

/-- What stands behind a value inside a text. -/
def Stops (text : List Char) : Prop :=
  ∀ character ∈ text.head?, character ∈ [',', ']', '\x7d', '\n']

/-- A piece of text that can be told from what stands behind it. -/
def ReadsOff {α : Type} (print : α → List Char) (value : α) : Prop :=
  ∀ other front back, Stops front → Stops back →
    print value ++ front = print other ++ back → value = other ∧ front = back

/-- What `escape` did, undone. -/
def unescape : List Char → Option (Char × List Char)
  | '\\' :: 'u' :: _ :: _ :: high :: low :: behind =>
      some (Char.ofNat
        (16 * (high.toNat - 48) +
          if low.toNat < 97 then low.toNat - 48 else low.toNat - 87), behind)
  | '\\' :: 'n' :: behind => some ('\n', behind)
  | '\\' :: 'r' :: behind => some ('\r', behind)
  | '\\' :: 't' :: behind => some ('\t', behind)
  | '\\' :: 'b' :: behind => some (Char.ofNat 8, behind)
  | '\\' :: 'f' :: behind => some (Char.ofNat 12, behind)
  | '\\' :: character :: behind => some (character, behind)
  | character :: behind => some (character, behind)
  | [] => none

theorem ne_of_control {character control : Char}
    (shown : ¬ character.toNat < 32) (hidden : control.toNat < 32) :
    character ≠ control := by
  rintro rfl
  exact shown hidden

/-- Of the characters that are no control characters two are escaped. -/
theorem escape_of_not_control {character : Char}
    (shown : ¬ character.toNat < 32) :
    escape character =
      if character = '"' then ['\\', '"']
      else if character = '\\' then ['\\', '\\']
      else [character] := by
  have newline : character ≠ '\n' := ne_of_control shown (by decide)
  have turn : character ≠ '\r' := ne_of_control shown (by decide)
  have tab : character ≠ '\t' := ne_of_control shown (by decide)
  have back : character.toNat ≠ 8 := by omega
  have form : character.toNat ≠ 12 := by omega
  unfold escape
  simp only [newline, turn, tab, back, form, shown, if_false]

theorem unescape_escape (character : Char) (behind : List Char) :
    unescape (escape character ++ behind) = some (character, behind) := by
  by_cases control : character.toNat < 32
  · have same := Char.ofNat_toNat character
    generalize character.toNat = code at control same
    subst same
    interval_cases code <;> rfl
  · rw [escape_of_not_control control]
    split_ifs with quote slash
    · rw [quote]
      rfl
    · rw [slash]
      rfl
    · simp [unescape, slash]

theorem escape_injective {first second : Char} {front back : List Char}
    (same : escape first ++ front = escape second ++ back) :
    first = second ∧ front = back := by
  have read := congrArg unescape same
  rw [unescape_escape, unescape_escape] at read
  exact Prod.mk.inj (Option.some.inj read)

/-- What a check of every character says of each. -/
theorem of_all {text : List Char} {good : Char → Prop} [DecidablePred good]
    (checked : text.all (fun letter => decide (good letter)) = true) :
    ∀ letter ∈ text, good letter := by
  simpa using checked

/-- The text stays on its line. -/
def OneLine (text : List Char) : Prop :=
  ∀ character ∈ text, character ≠ '\n' ∧ character ≠ '\r'

/-- What an escape begins with, and that it stays on its line. -/
theorem escape_plain (character : Char) :
    (∃ first behind, escape character = first :: behind ∧ first ≠ '"') ∧
      OneLine (escape character) := by
  by_cases control : character.toNat < 32
  · have same := Char.ofNat_toNat character
    generalize character.toNat = code at control same
    subst same
    interval_cases code <;> exact ⟨⟨_, _, rfl, by decide⟩, of_all rfl⟩
  · rw [escape_of_not_control control]
    split_ifs with quote slash
    · exact ⟨⟨_, _, rfl, by decide⟩, of_all rfl⟩
    · exact ⟨⟨_, _, rfl, by decide⟩, of_all rfl⟩
    · refine ⟨⟨_, _, rfl, quote⟩, fun letter member => ?_⟩
      obtain rfl := List.mem_singleton.mp member
      exact ⟨ne_of_control control (by decide), ne_of_control control (by decide)⟩

theorem readsOff_quoted_body (first second : List Char) {front back : List Char}
    (same : first.flatMap escape ++ '"' :: front =
      second.flatMap escape ++ '"' :: back) : first = second ∧ front = back := by
  induction first generalizing second with
  | nil =>
      cases second with
      | nil => exact ⟨rfl, (List.cons.inj same).2⟩
      | cons character others =>
          obtain ⟨⟨head, behind, spelled, plain⟩, -⟩ := escape_plain character
          simp only [List.flatMap_nil, List.nil_append, List.flatMap_cons,
            spelled, List.cons_append, List.cons.injEq] at same
          exact (plain same.1.symm).elim
  | cons character others induction =>
      cases second with
      | nil =>
          obtain ⟨⟨head, behind, spelled, plain⟩, -⟩ := escape_plain character
          simp only [List.flatMap_nil, List.nil_append, List.flatMap_cons,
            spelled, List.cons_append, List.cons.injEq] at same
          exact (plain same.1).elim
      | cons letter letters =>
          rw [List.flatMap_cons, List.flatMap_cons, List.append_assoc,
            List.append_assoc] at same
          obtain ⟨rfl, behind⟩ := escape_injective same
          obtain ⟨rfl, rest⟩ := induction letters behind
          exact ⟨rfl, rest⟩

theorem quoted_injective {first second : String} {front back : List Char}
    (same : quoted first ++ front = quoted second ++ back) :
    first = second ∧ front = back := by
  unfold quoted at same
  simp only [List.cons_append, List.append_assoc, List.nil_append,
    List.cons.injEq, true_and] at same
  obtain ⟨letters, behind⟩ := readsOff_quoted_body _ _ same
  exact ⟨String.toList_inj.mp letters, behind⟩

/-- The characters of a whole number. -/
def Digit (character : Char) : Prop :=
  character.isDigit ∨ character = '-'

instance (character : Char) : Decidable (Digit character) :=
  inferInstanceAs (Decidable (_ ∨ _))

theorem digit_of_mem_digits {count : Nat} {character : Char}
    (member : character ∈ Nat.toDigits 10 count) : Digit character :=
  .inl (Nat.isDigit_of_mem_toDigits (by decide) (by decide) member)

theorem digit_of_mem_repr {value : Int} {character : Char}
    (member : character ∈ value.repr.toList) : Digit character := by
  cases value with
  | ofNat count =>
      apply digit_of_mem_digits
      simpa [Int.repr, Nat.repr] using member
  | negSucc count =>
      have spelled : (Int.negSucc count).repr.toList =
          '-' :: Nat.toDigits 10 (count + 1) := by
        simp [Int.repr, Nat.repr]
      rw [spelled] at member
      obtain rfl | digit := List.mem_cons.mp member
      · exact .inr rfl
      · exact digit_of_mem_digits digit

/-- The digits in front of a text end where the text behind them begins. -/
theorem digits_injective {first second front back : List Char}
    (digits : ∀ character ∈ first, Digit character)
    (others : ∀ character ∈ second, Digit character)
    (ends : ∀ character ∈ front.head?, ¬ Digit character)
    (stops : ∀ character ∈ back.head?, ¬ Digit character)
    (same : first ++ front = second ++ back) :
    first = second ∧ front = back := by
  have taken {word behind : List Char}
      (inside : ∀ character ∈ word, Digit character)
      (outside : ∀ character ∈ behind.head?, ¬ Digit character) :
      (word ++ behind).takeWhile (fun character => Digit character) = word := by
    rw [List.takeWhile_append_of_pos (by simpa using inside)]
    cases behind with
    | nil => simp
    | cons character behind =>
        rw [List.takeWhile_cons_of_neg, List.append_nil]
        simpa using outside character rfl
  have words : first = second := by
    rw [← taken digits ends, same, taken others stops]
  subst words
  exact ⟨rfl, List.append_cancel_left same⟩

theorem not_digit_of_stops {text : List Char} (stops : Stops text) :
    ∀ character ∈ text.head?, ¬ Digit character := by
  have each : ∀ character ∈ [',', ']', '\x7d', '\n'], ¬ Digit character :=
    of_all rfl
  intro character first
  exact each character (stops character first)

/-- What stands behind the digits of a number is no digit. -/
theorem fraction_ends (value : Number) {text : List Char} (stops : Stops text) :
    ∀ character ∈ (fraction value ++ text).head?, ¬ Digit character := by
  cases value with
  | integer value => exact not_digit_of_stops stops
  | double value =>
      simp only [fraction]
      split_ifs
      · simp [Digit]
      · simp [Digit]

theorem fraction_injective {first second : Number} {front back : List Char}
    (whole : numerator first = numerator second) (ends : Stops front)
    (stops : Stops back)
    (same : fraction first ++ front = fraction second ++ back) :
    first = second ∧ front = back := by
  -- A text that stops a value begins with no point and no slash.
  have apart {text behind : List Char} {character : Char}
      (mark : character = '.' ∨ character = '/') (stops : Stops text) :
      text ≠ character :: behind := by
    rintro rfl
    have known := stops character rfl
    obtain rfl | rfl := mark <;> simp at known
  have denominator {first second : F64} (whole : first.num = second.num)
      (parts : first.den = second.den) : first = second :=
    Rat.ext whole parts
  cases first with
  | integer value =>
      cases second with
      | integer other =>
          obtain rfl : value = other := whole
          exact ⟨rfl, same⟩
      | double other =>
          exfalso
          simp only [fraction] at same
          split_ifs at same
          · exact apart (.inl rfl) ends same
          · exact apart (.inr rfl) ends same
  | double value =>
      cases second with
      | integer other =>
          exfalso
          simp only [fraction] at same
          split_ifs at same
          · exact apart (.inl rfl) stops same.symm
          · exact apart (.inr rfl) stops same.symm
      | double other =>
          simp only [fraction] at same
          split_ifs at same with one others others
          · refine ⟨congrArg Number.double (denominator whole
              (one.trans others.symm)), ?_⟩
            simpa using same
          · simp at same
          · simp at same
          · have digits (value : F64) :
                ∀ character ∈ value.den.repr.toList, Digit character := by
              intro character member
              apply digit_of_mem_digits
              simpa [Nat.repr] using member
            simp only [List.cons_append, List.cons.injEq, true_and] at same
            obtain ⟨spelled, behind⟩ := digits_injective (digits value)
              (digits other) (not_digit_of_stops ends)
              (not_digit_of_stops stops) same
            have parts := Nat.repr_injective (String.toList_inj.mp spelled)
            exact ⟨congrArg Number.double (denominator whole parts), behind⟩

theorem readsOff_number (value : Number) : ReadsOff number value := by
  intro other front back ends stops same
  unfold number at same
  rw [List.append_assoc, List.append_assoc] at same
  obtain ⟨spelled, behind⟩ := digits_injective
    (fun _ => digit_of_mem_repr) (fun _ => digit_of_mem_repr)
    (fraction_ends value ends) (fraction_ends other stops) same
  have whole := Int.repr_injective (String.toList_inj.mp spelled)
  exact fraction_injective whole ends stops behind

section Joined

variable {α : Type} {print : α → List Char} {separator close : List Char}
  {mark stop : Char} {pieces ends : List Char}

/-- A separator and an end that begin differently, both where a value stops. -/
structure Layout (separator close : List Char) : Prop where
  separated : ∃ behind, separator = ',' :: behind
  closed : ∃ stop behind, close = stop :: behind ∧ stop ≠ ',' ∧
    stop ∈ [',', ']', '\x7d', '\n']

theorem Layout.stops (layout : Layout separator close)
    (pieces : List (List Char)) (text : List Char) :
    Stops (rest separator close pieces ++ text) := by
  obtain ⟨behind, rfl⟩ := layout.separated
  obtain ⟨stop, ends, rfl, -, known⟩ := layout.closed
  intro character first
  cases pieces with
  | nil =>
      obtain rfl : stop = character := by simpa [rest] using first
      exact known
  | cons piece pieces =>
      obtain rfl : ',' = character := by simpa [rest] using first
      simp

theorem rest_injective (layout : Layout separator close)
    {first second : List α} {front back : List Char}
    (readsOff : ∀ value ∈ first, ReadsOff print value)
    (same : rest separator close (first.map print) ++ front =
      rest separator close (second.map print) ++ back) :
    first = second ∧ front = back := by
  obtain ⟨stop, ends, closed, apart, -⟩ := layout.closed
  obtain ⟨behind, separated⟩ := layout.separated
  induction first generalizing second with
  | nil =>
      cases second with
      | nil => exact ⟨rfl, List.append_cancel_left same⟩
      | cons value others =>
          simp [rest, closed, separated, apart] at same
  | cons value others induction =>
      cases second with
      | nil => simp [rest, closed, separated, Ne.symm apart] at same
      | cons other values =>
          simp only [List.map_cons, rest, List.append_assoc] at same
          obtain ⟨rfl, behind⟩ := readsOff value List.mem_cons_self other _ _
            (layout.stops _ _) (layout.stops _ _)
            (List.append_cancel_left same)
          obtain ⟨rfl, tail⟩ := induction
            (fun value member => readsOff value (List.mem_cons_of_mem _ member))
            behind
          exact ⟨rfl, tail⟩

theorem joined_injective (layout : Layout separator close)
    {first second : List α} {front back : List Char}
    (opens : ∀ value, (print value).head? ≠ close.head? ∧ print value ≠ [])
    (readsOff : ∀ value ∈ first, ReadsOff print value)
    (same : joined separator close (first.map print) ++ front =
      joined separator close (second.map print) ++ back) :
    first = second ∧ front = back := by
  -- Nothing that is printed begins like the end.
  have apart (value : α) (behind tail : List Char) :
      close ++ behind ≠ print value ++ tail := by
    intro same
    obtain ⟨stop, ends, closed, -⟩ := layout.closed
    obtain ⟨heads, nonempty⟩ := opens value
    have first := congrArg List.head? same
    rw [closed, List.cons_append, List.head?_cons,
      List.head?_append_of_ne_nil _ nonempty] at first
    rw [closed, List.head?_cons] at heads
    exact heads first.symm
  cases first with
  | nil =>
      cases second with
      | nil => exact ⟨rfl, List.append_cancel_left same⟩
      | cons value others =>
          simp only [List.map_nil, List.map_cons, joined,
            List.append_assoc] at same
          exact (apart value _ _ same).elim
  | cons value others =>
      cases second with
      | nil =>
          simp only [List.map_nil, List.map_cons, joined,
            List.append_assoc] at same
          exact (apart value _ _ same.symm).elim
      | cons other values =>
          simp only [List.map_cons, joined, List.append_assoc] at same
          obtain ⟨rfl, behind⟩ := readsOff value List.mem_cons_self other _ _
            (layout.stops _ _) (layout.stops _ _) same
          obtain ⟨rfl, tail⟩ := rest_injective layout
            (fun value member => readsOff value (List.mem_cons_of_mem _ member))
            behind
          exact ⟨rfl, tail⟩

end Joined

/-- The kind of a value. -/
def kind : Value → Nat
  | .null => 0
  | .bool true => 1
  | .bool false => 2
  | .string _ => 3
  | .array _ => 4
  | .object _ => 5
  | .number _ => 6

/-- The kind that a first character announces. -/
def announced (character : Char) : Nat :=
  if character = 'n' then 0
  else if character = 't' then 1
  else if character = 'f' then 2
  else if character = '"' then 3
  else if character = '[' then 4
  else if character = '\x7b' then 5
  else if Digit character then 6
  else 7

theorem announced_of_digit {character : Char} (digit : Digit character) :
    announced character = 6 := by
  unfold announced
  have apart {other : Char} (plain : ¬ Digit other) : character ≠ other := by
    rintro rfl
    exact plain digit
  rw [if_neg (apart (by decide)), if_neg (apart (by decide)),
    if_neg (apart (by decide)), if_neg (apart (by decide)),
    if_neg (apart (by decide)), if_neg (apart (by decide)), if_pos digit]

theorem number_head (value : Number) :
    ∃ first behind, number value = first :: behind ∧ Digit first := by
  unfold number
  cases spelled : (numerator value).repr.toList with
  | nil =>
      exfalso
      have empty : (numerator value).repr = "" := String.toList_inj.mp spelled
      generalize numerator value = whole at empty
      cases whole with
      | ofNat count =>
          have nonempty := @Nat.toDigits_ne_nil count 10
          have none := congrArg String.toList empty
          simp [Int.repr, Nat.repr] at none
      | negSucc count =>
          have none := congrArg String.toList empty
          simp [Int.repr] at none
  | cons first behind =>
      refine ⟨first, behind ++ fraction value, rfl, ?_⟩
      apply digit_of_mem_repr
      rw [spelled]
      exact List.mem_cons_self

/-- A text announces the kind of its value. -/
theorem compact_head (value : Value) :
    ∃ first behind, compact value = first :: behind ∧
      announced first = kind value := by
  cases value with
  | null => exact ⟨_, _, by rw [compact], rfl⟩
  | bool flag => cases flag <;> exact ⟨_, _, by rw [compact], rfl⟩
  | string text => exact ⟨_, _, by rw [compact, quoted], rfl⟩
  | array values => exact ⟨_, _, compact_array values, rfl⟩
  | object fields => exact ⟨_, _, compact_object fields, rfl⟩
  | number value =>
      obtain ⟨first, behind, spelled, digit⟩ := number_head value
      exact ⟨first, behind, by rw [compact, spelled],
        announced_of_digit digit⟩

theorem kind_eq {value other : Value} {front back : List Char}
    (same : compact value ++ front = compact other ++ back) :
    kind value = kind other := by
  obtain ⟨first, behind, spelled, announces⟩ := compact_head value
  obtain ⟨second, rest, otherSpelled, otherAnnounces⟩ := compact_head other
  rw [spelled, otherSpelled] at same
  obtain rfl := (List.cons.inj same).1
  exact announces.symm.trans otherAnnounces

theorem layout_array : Layout [','] [']'] :=
  ⟨⟨[], rfl⟩, ⟨']', [], rfl, by decide, by decide⟩⟩

theorem layout_object : Layout [','] ['\x7d'] :=
  ⟨⟨[], rfl⟩, ⟨'\x7d', [], rfl, by decide, by decide⟩⟩

theorem layout_pretty : Layout [',', '\n', ' ', ' '] ['\n', '\x7d'] :=
  ⟨⟨_, rfl⟩, ⟨'\n', _, rfl, by decide, by decide⟩⟩

theorem compact_opens (value : Value) :
    (compact value).head? ≠ some ']' ∧ compact value ≠ [] := by
  obtain ⟨first, behind, spelled, announces⟩ := compact_head value
  rw [spelled]
  refine ⟨?_, List.cons_ne_nil _ _⟩
  intro same
  obtain rfl : first = ']' := Option.some.inj same
  have unknown : announced ']' = 7 := by decide
  rw [unknown] at announces
  cases value with
  | bool flag => cases flag <;> cases announces
  | null | number | string | array | object => cases announces

/-- A member reads off where its value does. -/
theorem readsOff_field {colon : List Char} {member : String × Value}
    (readsOff : ReadsOff compact member.2) : ReadsOff (field colon) member := by
  intro other front back ends stops same
  unfold field at same
  simp only [List.append_assoc] at same
  obtain ⟨key, behind⟩ := quoted_injective same
  obtain ⟨value, tail⟩ := readsOff other.2 front back ends stops
    (List.append_cancel_left behind)
  exact ⟨Prod.ext key value, tail⟩

theorem field_opens (colon : List Char) {stop : Char} (apart : stop ≠ '"')
    (member : String × Value) :
    (field colon member).head? ≠ some stop ∧ field colon member ≠ [] := by
  unfold field quoted
  simp [apart.symm]

/-- A value that a library holds reads off its compact text. -/
theorem readsOff_compact {value : Value} (proper : value.Proper) :
    ReadsOff compact value := by
  induction proper with
  | null =>
      intro other front back ends stops same
      have kinds := kind_eq same
      cases other with
      | null => exact ⟨rfl, List.append_cancel_left same⟩
      | bool flag => cases flag <;> cases kinds
      | number | string | array | object => cases kinds
  | bool flag =>
      intro other front back ends stops same
      have kinds := kind_eq same
      cases other with
      | bool other =>
          cases flag <;> cases other
          · exact ⟨rfl, List.append_cancel_left same⟩
          · cases kinds
          · cases kinds
          · exact ⟨rfl, List.append_cancel_left same⟩
      | null | number | string | array | object => cases flag <;> cases kinds
  | number value =>
      intro other front back ends stops same
      have kinds := kind_eq same
      cases other with
      | number other =>
          rw [compact, compact] at same
          obtain ⟨rfl, tail⟩ := readsOff_number value other _ _ ends stops same
          exact ⟨rfl, tail⟩
      | bool flag => cases flag <;> cases kinds
      | null | string | array | object => cases kinds
  | string text =>
      intro other front back ends stops same
      have kinds := kind_eq same
      cases other with
      | string other =>
          rw [compact, compact] at same
          obtain ⟨rfl, tail⟩ := quoted_injective same
          exact ⟨rfl, tail⟩
      | bool flag => cases flag <;> cases kinds
      | null | number | array | object => cases kinds
  | @array values each induction =>
      intro other front back ends stops same
      have kinds := kind_eq same
      cases other with
      | array others =>
          rw [compact_array, compact_array] at same
          obtain ⟨rfl, tail⟩ := joined_injective layout_array compact_opens
            induction (List.cons.inj same).2
          exact ⟨rfl, tail⟩
      | bool flag => cases flag <;> cases kinds
      | null | number | string | object => cases kinds
  | @object fields sorted each induction =>
      intro other front back ends stops same
      have kinds := kind_eq same
      cases other with
      | object others =>
          rw [compact_object, compact_object] at same
          obtain ⟨rfl, tail⟩ := joined_injective layout_object
            (field_opens [':'] (by decide))
            (fun member inside => readsOff_field (induction member inside))
            (List.cons.inj same).2
          exact ⟨rfl, tail⟩
      | bool flag => cases flag <;> cases kinds
      | null | number | string | array => cases kinds

theorem plain_quoted (text : String) : OneLine (quoted text) := by
  intro character member
  unfold quoted at member
  simp only [List.mem_cons, List.mem_append, List.mem_flatMap,
    List.not_mem_nil, or_false] at member
  obtain rfl | ⟨letter, -, inside⟩ | rfl := member
  · decide
  · exact (escape_plain letter).2 character inside
  · decide

theorem plain_number (value : Number) : OneLine (number value) := by
  have plain {character : Char} (digit : Digit character) :
      character ≠ '\n' ∧ character ≠ '\r' := by
    constructor <;> rintro rfl <;> revert digit <;> decide
  intro character member
  obtain whole | part := List.mem_append.mp member
  · exact plain (digit_of_mem_repr whole)
  · cases value with
    | integer value => cases part
    | double value =>
        simp only [fraction] at part
        split_ifs at part
        · have each : OneLine ['.', '0'] := of_all rfl
          exact each character part
        · obtain rfl | digit := List.mem_cons.mp part
          · decide
          · apply plain
            apply digit_of_mem_digits
            simpa [Nat.repr] using digit

theorem plain_joined {pieces : List (List Char)} {stop : Char}
    (closes : stop ≠ '\n' ∧ stop ≠ '\r')
    (plain : ∀ piece ∈ pieces, OneLine piece) :
    OneLine (joined [','] [stop] pieces) := by
  have behind (pieces : List (List Char))
      (plain : ∀ piece ∈ pieces, OneLine piece) :
      OneLine (rest [','] [stop] pieces) := by
    induction pieces with
    | nil => simpa [OneLine, rest] using closes
    | cons piece pieces induction =>
        intro character member
        simp only [rest, List.cons_append, List.nil_append, List.mem_cons,
          List.mem_append] at member
        obtain rfl | inside | later := member
        · decide
        · exact plain piece List.mem_cons_self character inside
        · exact induction
            (fun piece member => plain piece (List.mem_cons_of_mem _ member))
            character later
  cases pieces with
  | nil => simpa [OneLine, joined] using closes
  | cons piece pieces =>
      intro character member
      obtain inside | later := List.mem_append.mp member
      · exact plain piece List.mem_cons_self character inside
      · exact behind pieces
          (fun piece member => plain piece (List.mem_cons_of_mem _ member))
          character later

/-- A compact text is one line. -/
theorem plain_compact {value : Value} (proper : value.Proper) :
    OneLine (compact value) := by
  induction proper with
  | null =>
      rw [compact]
      exact of_all rfl
  | bool flag => cases flag <;> rw [compact] <;> exact of_all rfl
  | number value =>
      rw [compact]
      exact plain_number value
  | string text =>
      rw [compact]
      exact plain_quoted text
  | @array values each induction =>
      rw [compact_array]
      intro character member
      obtain rfl | inside := List.mem_cons.mp member
      · decide
      · apply plain_joined (by decide) _ character inside
        intro piece member
        obtain ⟨value, listed, rfl⟩ := List.mem_map.mp member
        exact induction value listed
  | @object fields sorted each induction =>
      rw [compact_object]
      intro character member
      obtain rfl | inside := List.mem_cons.mp member
      · decide
      · apply plain_joined (by decide) _ character inside
        intro piece member
        obtain ⟨⟨key, value⟩, listed, rfl⟩ := List.mem_map.mp member
        intro character spelled
        simp only [field, List.mem_append, List.mem_singleton] at spelled
        obtain inKey | rfl | inValue := spelled
        · exact plain_quoted key character inKey
        · decide
        · exact induction _ listed character inValue

/-- The texts of a value: the compact one, and the one on several lines with
its line end. -/
def Spells (value : Value) (text : List Char) : Prop :=
  text = compact value ∨ text = pretty value ++ ['\n']

theorem stops_nil : Stops [] := by
  simp [Stops]

theorem stops_feed : Stops ['\n'] := by
  simp [Stops]

/-- No compact text goes on to a second line. -/
theorem compact_ne_pretty (value : Value) (back more : List Char) :
    compact value ++ back ≠ '\x7b' :: '\n' :: more := by
  intro same
  obtain ⟨first, behind, spelled, announces⟩ := compact_head value
  have opened : first = '\x7b' := by
    rw [spelled] at same
    exact (List.cons.inj same).1
  subst opened
  have isObject : announced '\x7b' = 5 := by decide
  rw [isObject] at announces
  cases value with
  | bool flag => cases flag <;> cases announces
  | null | number | string | array => cases announces
  | object fields =>
      rw [compact_object] at same
      cases fields with
      | nil => simp [joined] at same
      | cons member members => simp [joined, field, quoted] at same

theorem pretty_eq (value : Value) :
    pretty value = compact value ∨
      ∃ first others, value = .object (first :: others) := by
  unfold pretty
  split
  · exact .inr ⟨_, _, rfl⟩
  · exact .inl rfl

theorem pretty_injective {value other : Value} (proper : value.Proper)
    (same : pretty value ++ ['\n'] = pretty other ++ ['\n']) :
    value = other := by
  obtain plain | ⟨first, others, rfl⟩ := pretty_eq value
  · obtain otherPlain | ⟨second, members, rfl⟩ := pretty_eq other
    · rw [plain, otherPlain] at same
      exact (readsOff_compact proper other _ _ stops_feed stops_feed same).1
    · rw [plain] at same
      exact (compact_ne_pretty value _ _ same).elim
  · obtain otherPlain | ⟨second, members, rfl⟩ := pretty_eq other
    · rw [otherPlain] at same
      exact (compact_ne_pretty other _ _ same.symm).elim
    · cases proper with
      | object sorted each =>
          simp only [pretty, List.cons_append, List.cons.injEq,
            true_and] at same
          obtain ⟨fields, -⟩ := joined_injective layout_pretty
            (field_opens [':', ' '] (by decide))
            (fun member inside =>
              readsOff_field (readsOff_compact (each member inside))) same
          rw [fields]

/-- A text spells one value at most. -/
theorem spells_unique {value other : Value} {text : List Char}
    (proper : value.Proper) (otherProper : other.Proper)
    (spelled : Spells value text) (otherSpelled : Spells other text) :
    value = other := by
  have apart {value other : Value} (proper : value.Proper) :
      compact value ≠ pretty other ++ ['\n'] := by
    intro same
    have feed : '\n' ∈ compact value := by
      rw [same]
      simp
    exact (plain_compact proper _ feed).1 rfl
  obtain rfl | rfl := spelled
  · obtain same | same := otherSpelled
    · rw [← List.append_nil (compact value),
        ← List.append_nil (compact other)] at same
      exact (readsOff_compact proper other _ _ stops_nil stops_nil same).1
    · exact (apart proper same).elim
  · obtain same | same := otherSpelled
    · exact (apart otherProper same.symm).elim
    · exact pretty_injective proper same

open Classical in
/-- The library whose texts these are: it reads back what it has printed. -/
noncomputable def text : Text where
  display := fun value => String.ofList (compact value)
  displayPretty := fun value => String.ofList (pretty value)
  parse := fun text =>
    if known : ∃ value : Value, value.Proper ∧ Spells value text.toList then
      .ok known.choose
    else .error "expected value"
  quote := fun text => String.ofList (quoted text)

theorem parse_of_spells {value : Value} {spelling : String}
    (proper : value.Proper) (spelled : Spells value spelling.toList) :
    text.parse spelling = .ok value := by
  have known : ∃ value : Value,
      value.Proper ∧ Spells value spelling.toList := ⟨value, proper, spelled⟩
  have same := spells_unique known.choose_spec.1 proper known.choose_spec.2
    spelled
  simp only [text, dif_pos known, same]

theorem proper_of_parse {value : Value} {spelling : String}
    (parsed : text.parse spelling = .ok value) : value.Proper := by
  by_cases known : ∃ value : Value,
      value.Proper ∧ Spells value spelling.toList
  · simp only [text, dif_pos known, Except.ok.injEq] at parsed
    rw [← parsed]
    exact known.choose_spec.1
  · simp only [text, dif_neg known] at parsed
    cases parsed

end Json.Printer
