import Loa.RustFormat
import Mathlib.Algebra.Order.Field.Power
import Mathlib.Data.Int.Log
import Mathlib.Tactic.FieldSimp
import Mathlib.Tactic.IntervalCases
import Mathlib.Tactic.Linarith
import Mathlib.Tactic.Positivity
import Mathlib.Tactic.Ring

/-!
# Doubles that a machine holds

An exact number stands for a double when it is a whole number of less than 53
bits times a power of two.  The file rounds an exact number to the nearest
double, writes a double with as few decimals as tell it from its neighbours, and
reads it back.
-/

namespace RustFloat

/-- The distance of two neighbouring doubles of this magnitude. -/
def unit (value : F64) : F64 :=
  2 ^ max (Int.log 2 |value| - 52) (-1074)

/-- The nearest double, the even one of two. -/
def nearest (value : F64) : F64 :=
  rounded (value / unit value) * unit value

/-- Numbers with 53 bits. -/
def IsDouble (value : F64) : Prop :=
  ∃ mantissa exponent : Int, |mantissa| < 2 ^ 53 ∧ -1074 ≤ exponent ∧
    value = mantissa * 2 ^ exponent

theorem unit_pos (value : F64) : 0 < unit value := by
  unfold unit
  positivity

@[simp]
theorem rounded_intCast (whole : Int) : rounded (whole : F64) = whole := by
  simp [rounded]

/-- A number with 53 bits has no part below the unit of its magnitude. -/
theorem unit_le {mantissa exponent : Int} (small : |mantissa| < 2 ^ 53)
    (low : -1074 ≤ exponent) (nonzero : mantissa ≠ 0) :
    max (Int.log 2 |(mantissa : F64) * 2 ^ exponent| - 52) (-1074) ≤
      exponent := by
  have power : (0 : F64) < 2 ^ exponent := by positivity
  have size : |(mantissa : F64) * 2 ^ exponent| =
      ((|mantissa| : Int) : F64) * 2 ^ exponent := by
    rw [abs_mul, abs_of_pos power, Int.cast_abs]
  have positive : 0 < |(mantissa : F64) * 2 ^ exponent| :=
    abs_pos.mpr (mul_ne_zero (Int.cast_ne_zero.mpr nonzero) power.ne')
  have below : (2 : F64) ^ Int.log 2 |(mantissa : F64) * 2 ^ exponent| <
      2 ^ (53 + exponent) := by
    refine lt_of_le_of_lt (Int.zpow_log_le_self (by decide) positive) ?_
    rw [size, zpow_add₀ (by norm_num)]
    refine mul_lt_mul_of_pos_right ?_ power
    exact_mod_cast small
  have order := (zpow_lt_zpow_iff_right₀ (by norm_num : (1 : F64) < 2)).mp below
  omega

/-- The unit of a double divides it. -/
theorem IsDouble.unit_mul {value : F64} (double : IsDouble value) :
    ∃ whole : Int, value = whole * unit value := by
  obtain ⟨mantissa, exponent, small, low, rfl⟩ := double
  by_cases zero : mantissa = 0
  · exact ⟨0, by simp [zero]⟩
  · obtain ⟨steps, gap⟩ := Int.le.dest (unit_le small low zero)
    refine ⟨mantissa * 2 ^ steps, ?_⟩
    calc (mantissa : F64) * 2 ^ exponent
        = mantissa * 2 ^ (max (Int.log 2 |(mantissa : F64) * 2 ^ exponent| - 52)
            (-1074) + (steps : Int)) := by rw [gap]
      _ = mantissa * (unit (mantissa * 2 ^ exponent) * 2 ^ steps) := by
          rw [zpow_add₀ (by norm_num), zpow_natCast]
          rfl
      _ = _ := by
          push_cast
          ring

/-- The doubles are the numbers that are their own nearest double. -/
theorem nearest_eq_self_iff (value : F64) :
    nearest value = value ↔ IsDouble value := by
  constructor
  · intro fixed
    refine ⟨rounded (value / unit value), _, ?_, le_max_right _ _, fixed.symm⟩
    have above : |value| < 2 ^ (53 : Int) * unit value := by
      unfold unit
      rw [← zpow_add₀ (by norm_num)]
      refine lt_of_lt_of_le (Int.lt_zpow_succ_log_self (by decide : 1 < 2) _) ?_
      refine zpow_le_zpow_right₀ (by norm_num) ?_
      omega
    have size : |(rounded (value / unit value) : F64)| * unit value = |value| := by
      conv_rhs => rw [← fixed]
      unfold nearest
      rw [abs_mul, abs_of_pos (unit_pos value)]
    rw [← size] at above
    have small := lt_of_mul_lt_mul_right above (unit_pos value).le
    exact_mod_cast small
  · intro double
    obtain ⟨whole, divides⟩ := double.unit_mul
    have quotient : value / unit value = whole := by
      rw [div_eq_iff (unit_pos value).ne']
      exact divides
    unfold nearest
    rw [quotient, rounded_intCast]
    exact divides.symm

/-- Every count up to `2 ^ 53` is a double. -/
theorem isDouble_natCast {count : Nat} (small : count ≤ 2 ^ 53) :
    IsDouble (count : F64) := by
  rcases small.lt_or_eq with below | rfl
  · refine ⟨count, 0, ?_, by decide, by simp⟩
    rw [abs_of_nonneg (Int.natCast_nonneg count)]
    exact_mod_cast below
  · exact ⟨2 ^ 52, 1, by norm_num, by decide, by norm_num⟩

/-- `str::parse::<f64>`, with the rounding. -/
def parseNearest (text : String) : Option (Option F64) :=
  (parse text).map (Option.map nearest)

theorem ofDigits_eq (digits : List Char) :
    ofDigits digits = Nat.ofDigitChars 10 digits 0 := by
  simp only [ofDigits, Nat.ofDigitChars_eq_foldl, Nat.mul_comm]
  rfl

@[simp]
theorem ofDigits_toDigits (count : Nat) :
    ofDigits (Nat.toDigits 10 count) = count := by
  rw [ofDigits_eq, Nat.ofDigitChars_ten_toDigits]

theorem isDigit_of_mem_toDigits {count : Nat} {digit : Char}
    (member : digit ∈ Nat.toDigits 10 count) : digit.isDigit :=
  Nat.isDigit_of_mem_toDigits (by decide) (by decide) member

theorem takeWhile_digits {digits rest : List Char}
    (all : ∀ digit ∈ digits, digit.isDigit)
    (stops : ∀ next ∈ rest.head?, ¬ next.isDigit) :
    (digits ++ rest).takeWhile Char.isDigit = digits ∧
      (digits ++ rest).dropWhile Char.isDigit = rest := by
  induction digits with
  | nil =>
      cases rest with
      | nil => exact ⟨rfl, rfl⟩
      | cons next rest =>
          have other : next.isDigit = false := by simpa using stops next rfl
          simp [other]
  | cons digit digits induction =>
      obtain ⟨front, back⟩ := induction fun other member =>
        all other (List.mem_cons_of_mem _ member)
      have first := all digit List.mem_cons_self
      simp [first, front, back]

theorem unsigned_whole {digits : List Char} (nonempty : digits ≠ [])
    (all : ∀ digit ∈ digits, digit.isDigit) :
    unsigned digits = some (ofDigits digits : F64) := by
  obtain ⟨front, back⟩ := @takeWhile_digits digits [] all (by simp)
  rw [List.append_nil] at front back
  unfold unsigned
  simp [front, back, nonempty, exponent]

theorem unsigned_point {whole fraction : List Char} (nonempty : whole ≠ [])
    (digits : ∀ digit ∈ whole, digit.isDigit)
    (decimals : ∀ digit ∈ fraction, digit.isDigit) :
    unsigned (whole ++ '.' :: fraction) =
      some ((ofDigits (whole ++ fraction) : F64) *
        10 ^ (-(fraction.length : Int))) := by
  obtain ⟨front, back⟩ := @takeWhile_digits whole ('.' :: fraction) digits
    (by simp +decide)
  obtain ⟨behind, nothing⟩ := @takeWhile_digits fraction [] decimals (by simp)
  rw [List.append_nil] at behind nothing
  unfold unsigned
  simp [front, back, behind, nothing, nonempty, exponent]

theorem splitSign_of_plain {text : List Char}
    (minus : text.head? ≠ some '-') (plus : text.head? ≠ some '+') :
    splitSign text = (false, text) := by
  unfold splitSign
  split
  · exact absurd rfl minus
  · exact absurd rfl plus
  · rfl

/-- A text whose first character behind the sign begins neither a sign nor the
name of a number that is not finite. -/
theorem parse_plain (negative : Bool) {first : Char} (rest : List Char)
    (unsignedText : first ≠ '-' ∧ first ≠ '+')
    (unnamed : first.toLower ≠ 'i' ∧ first.toLower ≠ 'n') :
    parse (String.ofList ((if negative then ['-'] else []) ++ first :: rest)) =
      (unsigned (first :: rest)).map fun value =>
        if overflow ≤ value then none
        else some (if negative then -value else value) := by
  have split : splitSign ((if negative then ['-'] else []) ++ first :: rest) =
      (negative, first :: rest) := by
    cases negative with
    | true => rfl
    | false =>
        exact splitSign_of_plain
          (fun same => unsignedText.1 (Option.some.inj same))
          (fun same => unsignedText.2 (Option.some.inj same))
  have nameless : String.ofList ((first :: rest).map Char.toLower) ∉
      ["inf", "infinity", "nan"] := by
    intro member
    have heads : first.toLower = 'i' ∨ first.toLower = 'n' := by
      simp only [List.mem_cons, List.not_mem_nil, or_false,
        ← String.toList_inj, String.toList_ofList, List.map_cons] at member
      rcases member with inf | infinity | nan
      · exact .inl (List.cons.inj inf).1
      · exact .inl (List.cons.inj infinity).1
      · exact .inr (List.cons.inj nan).1
    exact heads.elim unnamed.1 unnamed.2
  unfold parse
  rw [String.toList_ofList, split]
  dsimp only
  rw [if_neg nameless]

theorem mem_of_isDigit {digit : Char} (isDigit : digit.isDigit) :
    digit ∈ ['0', '1', '2', '3', '4', '5', '6', '7', '8', '9'] := by
  have bounds : 48 ≤ digit.toNat ∧ digit.toNat ≤ 57 :=
    Char.isDigit_iff_toNat.mp isDigit
  rw [← Char.ofNat_toNat digit]
  generalize digit.toNat = code at bounds
  obtain ⟨low, high⟩ := bounds
  interval_cases code <;> decide

/-- What holds of each of the ten digits holds of every digit. -/
theorem forall_isDigit {good : Char → Prop} [DecidablePred good]
    (checked : ['0', '1', '2', '3', '4', '5', '6', '7', '8', '9'].all
      (fun digit => good digit) = true) {digit : Char} (isDigit : digit.isDigit) :
    good digit :=
  of_decide_eq_true (List.all_eq_true.mp checked digit (mem_of_isDigit isDigit))

/-- A number whose first character behind the sign is a digit. -/
theorem parse_digit (negative : Bool) {first : Char} (rest : List Char)
    (digit : first.isDigit) :
    parse (String.ofList ((if negative then ['-'] else []) ++ first :: rest)) =
      (unsigned (first :: rest)).map fun value =>
        if overflow ≤ value then none
        else some (if negative then -value else value) := by
  have plain : (first ≠ '-' ∧ first ≠ '+') ∧
      first.toLower ≠ 'i' ∧ first.toLower ≠ 'n' :=
    @forall_isDigit (fun other => (other ≠ '-' ∧ other ≠ '+') ∧
      other.toLower ≠ 'i' ∧ other.toLower ≠ 'n') _ (by decide) _ digit
  exact parse_plain negative rest plain.1 plain.2

/-- Every count of 64 bits is finite. -/
theorem natCast_lt_overflow {count : Nat} (small : count < 2 ^ 64) :
    (count : F64) < overflow := by
  have bound : (count : F64) < 2 ^ 64 := by
    exact_mod_cast small
  have wide : (2 : F64) ^ 64 < 2 ^ 1023 :=
    pow_lt_pow_right₀ (by norm_num) (by norm_num)
  have gap : (2 : F64) ^ 970 < 2 ^ 1023 :=
    pow_lt_pow_right₀ (by norm_num) (by norm_num)
  refine bound.trans (lt_sub_iff_add_lt.mpr ?_)
  calc (2 : F64) ^ 64 + 2 ^ 970
      < 2 ^ 1023 + 2 ^ 1023 := add_lt_add wide gap
    _ = 2 ^ 1024 := by rw [← two_mul, ← pow_succ']

/-- A count is read back from its digits. -/
theorem parse_toString {count : Nat} (finite : (count : F64) < overflow) :
    parse (toString count) = some (some (count : F64)) := by
  have written : toString count = String.ofList (Nat.toDigits 10 count) :=
    Nat.toString_eq_ofList_toDigits
  obtain ⟨first, rest, digits⟩ := List.exists_cons_of_ne_nil
    (@Nat.toDigits_ne_nil count 10)
  have first_digit : first.isDigit :=
    isDigit_of_mem_toDigits (digits ▸ List.mem_cons_self)
  have read := unsigned_whole (@Nat.toDigits_ne_nil count 10)
    fun digit => isDigit_of_mem_toDigits
  rw [written]
  have parsed := parse_digit false rest first_digit
  rw [← digits, read, ofDigits_toDigits] at parsed
  simpa [not_le.mpr finite] using parsed

/-- A count that is a double is read back from its digits. -/
theorem parseNearest_toString {count : Nat} (small : count ≤ 2 ^ 53) :
    parseNearest (toString count) = some (some (count : F64)) := by
  have read := parse_toString
    (natCast_lt_overflow (small.trans_lt (by norm_num)))
  have fixed := (nearest_eq_self_iff _).mpr (isDouble_natCast small)
  exact (congrArg (Option.map (Option.map nearest)) read).trans
    (congrArg (fun value => some (some value)) fixed)

/-- The digits of a number with so many decimals; with fewer than none, zeros
stand for the digits that are left out. -/
def positional (places : Int) (value : F64) : String :=
  if places < 0 then
    (if value < 0 then "-" else "") ++
      toString (rounded (|value| * 10 ^ places)).toNat ++
      String.ofList (List.replicate (-places).toNat '0')
  else RustFormat.fixed places.toNat value

/-- `{}`: the fewest decimals that are read back as the double. -/
def display (value : F64) : String :=
  if value = 0 then "0"
  else
    let whole := Nat.log 10 ⌊|value|⌋₊
    let tried := (List.range (1075 + whole)).map fun step =>
      (step : Int) - whole
    let told := tried.find? fun places =>
      parseNearest (positional places value) = some (some value)
    positional (told.getD 1074) value

example : [display (5 / 2), display 1200, display (-1 / 8)] =
    ["2.5", "1200", "-0.125"] := by
  decide +kernel

/-- A double with a finite magnitude. -/
structure Finite (value : F64) : Prop where
  double : IsDouble value
  below : |value| < overflow

theorem finite_natCast {count : Nat} (small : count ≤ 2 ^ 53) :
    Finite (count : F64) where
  double := isDouble_natCast small
  below := by
    rw [Nat.abs_cast]
    exact natCast_lt_overflow (small.trans_lt (by norm_num))

/-- The decimals of a number with zeros in front of them. -/
def padded (places part : Nat) : List Char :=
  List.replicate (places - (Nat.toDigits 10 part).length) '0' ++
    Nat.toDigits 10 part

theorem isDigit_of_mem_padded {places part : Nat} {digit : Char}
    (member : digit ∈ padded places part) : digit.isDigit := by
  rcases List.mem_append.mp member with zero | written
  · rw [List.eq_of_mem_replicate zero]
    rfl
  · exact isDigit_of_mem_toDigits written

theorem length_padded {places part : Nat} (positive : 0 < places)
    (small : part < 10 ^ places) : (padded places part).length = places := by
  have fits : (Nat.toDigits 10 part).length ≤ places :=
    (Nat.length_toDigits_le_iff (by decide) positive).mpr small
  simp only [padded, List.length_append, List.length_replicate]
  omega

theorem ofDigits_padded {places part : Nat} (whole : Nat)
    (positive : 0 < places) (small : part < 10 ^ places) :
    ofDigits (Nat.toDigits 10 whole ++ padded places part) =
      whole * 10 ^ places + part := by
  have fits : (Nat.toDigits 10 part).length ≤ places :=
    (Nat.length_toDigits_le_iff (by decide) positive).mpr small
  rw [padded, ofDigits_eq, Nat.ofDigitChars_append, Nat.ofDigitChars_append,
    Nat.ofDigitChars_ten_toDigits, Nat.ofDigitChars_replicate_zero,
    Nat.ofDigitChars_eq_ofDigitChars_zero, Nat.ofDigitChars_ten_toDigits,
    ← Nat.mul_assoc, ← Nat.pow_add, Nat.add_sub_cancel' fits, Nat.mul_comm]

theorem toList_sign (value : F64) :
    (if value < 0 then "-" else "").toList = if value < 0 then ['-'] else [] := by
  split_ifs <;> rfl

/-- The characters of a number with decimals. -/
theorem toList_fixed {places : Nat} (positive : 0 < places) (value : F64) :
    (RustFormat.fixed places value).toList =
      (if value < 0 then ['-'] else []) ++
        (Nat.toDigits 10 ((rounded (|value| * 10 ^ places)).toNat / 10 ^ places) ++
          '.' :: padded places
            ((rounded (|value| * 10 ^ places)).toNat % 10 ^ places)) := by
  have point : ".".toList = ['.'] := rfl
  unfold RustFormat.fixed RustFormat.decimals padded
  simp only [String.toList_append, toList_sign, if_neg positive.ne',
    Nat.toString_eq_ofList_toDigits, String.toList_ofList, point,
    String.length_ofList, List.cons_append, List.nil_append]

/-- A number that has so many decimals is read back from them. -/
theorem parse_fixed {places count : Nat} {value : F64} (positive : 0 < places)
    (whole : |value| * 10 ^ places = count) (finite : |value| < overflow) :
    parse (RustFormat.fixed places value) = some (some value) := by
  have scaled : (rounded (|value| * 10 ^ places)).toNat = count := by
    rw [whole]
    exact congrArg Int.toNat (rounded_intCast count)
  have small : count % 10 ^ places < 10 ^ places :=
    Nat.mod_lt _ (Nat.pow_pos (by decide))
  have written := toList_fixed positive value
  rw [scaled] at written
  have read := unsigned_point (@Nat.toDigits_ne_nil (count / 10 ^ places) 10)
    (fun digit => isDigit_of_mem_toDigits)
    (fun digit => @isDigit_of_mem_padded places (count % 10 ^ places) digit)
  rw [ofDigits_padded _ positive small, length_padded positive small,
    Nat.div_add_mod'] at read
  have size : (count : F64) * 10 ^ (-(places : Int)) = |value| := by
    rw [← whole, zpow_neg, zpow_natCast]
    field_simp
  obtain ⟨first, rest, digits⟩ := List.exists_cons_of_ne_nil
    (@Nat.toDigits_ne_nil (count / 10 ^ places) 10)
  have digit : first.isDigit :=
    isDigit_of_mem_toDigits (digits ▸ List.mem_cons_self)
  have parsed := parse_digit (decide (value < 0))
    (rest ++ '.' :: padded places (count % 10 ^ places)) digit
  rw [← List.cons_append, ← digits, read, size] at parsed
  simp only [decide_eq_true_eq, ← written, String.ofList_toList, Option.map_some,
    if_neg (not_le.mpr finite)] at parsed
  rw [parsed]
  split_ifs with negative
  · rw [abs_of_neg negative, neg_neg]
  · rw [abs_of_nonneg (not_lt.mp negative)]

theorem two_zpow_mul_ten_pow (places steps : Nat) :
    (2 : F64) ^ (-(places : Int) + steps) * 10 ^ places =
      5 ^ places * 2 ^ steps := by
  have ten : (10 : F64) ^ places = 5 ^ places * 2 ^ places := by
    rw [← mul_pow]
    norm_num
  rw [zpow_add₀ (by norm_num), zpow_neg, zpow_natCast, zpow_natCast, ten]
  field_simp

/-- A double has at most 1074 decimals. -/
theorem IsDouble.decimals {value : F64} (double : IsDouble value) :
    ∃ count : Nat, |value| * 10 ^ 1074 = count := by
  obtain ⟨mantissa, exponent, -, low, rfl⟩ := double
  obtain ⟨steps, gap⟩ := Int.le.dest low
  have power : (0 : F64) < 2 ^ exponent := by positivity
  refine ⟨mantissa.natAbs * (5 ^ 1074 * 2 ^ steps), ?_⟩
  rw [abs_mul, abs_of_pos power, ← gap, mul_assoc]
  have scaled := two_zpow_mul_ten_pow 1074 steps
  rw [Nat.cast_mul, Nat.cast_natAbs, Int.cast_abs]
  refine congrArg (|(mantissa : F64)| * ·) (scaled.trans ?_)
  rw [Nat.cast_mul, Nat.cast_pow, Nat.cast_pow]
  rfl

/-- A double is read back from its text. -/
theorem parseNearest_display {value : F64} (finite : Finite value) :
    parseNearest (display value) = some (some value) := by
  unfold display
  split_ifs with zero
  · rw [zero]
    exact @parseNearest_toString 0 (by decide)
  · dsimp only
    generalize List.map _ _ = tried
    cases told : tried.find? _ with
    | some places =>
        have found := List.find?_some told
        exact of_decide_eq_true found
    | none =>
        obtain ⟨count, whole⟩ := finite.double.decimals
        have parsed := parse_fixed (by decide) whole finite.below
        have fixed := (nearest_eq_self_iff value).mpr finite.double
        exact (congrArg (Option.map (Option.map nearest)) parsed).trans
          (congrArg (fun value => some (some value)) fixed)

/-- The characters of a number. -/
def Decimal (character : Char) : Prop :=
  character.isDigit ∨ character = '-' ∨ character = '.'

theorem decimal_of_mem_sign {value : F64} {character : Char}
    (member : character ∈ if value < 0 then ['-'] else []) :
    Decimal character := by
  split_ifs at member
  · exact .inr (.inl (List.mem_singleton.mp member))
  · cases member

theorem decimal_of_mem_fixed {places : Nat} {value : F64} {character : Char}
    (member : character ∈ (RustFormat.fixed places value).toList) :
    Decimal character := by
  rcases Nat.eq_zero_or_pos places with rfl | positive
  · unfold RustFormat.fixed RustFormat.decimals at member
    simp only [String.toList_append, toList_sign, if_true, List.mem_append,
      Nat.toString_eq_ofList_toDigits, String.toList_ofList] at member
    rcases member with signed | digit | nothing
    · exact decimal_of_mem_sign signed
    · exact .inl (isDigit_of_mem_toDigits digit)
    · cases nothing
  · rw [toList_fixed positive] at member
    simp only [List.mem_append, List.mem_cons] at member
    rcases member with signed | digit | point | decimal
    · exact decimal_of_mem_sign signed
    · exact .inl (isDigit_of_mem_toDigits digit)
    · exact .inr (.inr point)
    · exact .inl (isDigit_of_mem_padded decimal)

theorem decimal_of_mem_positional {places : Int} {value : F64} {character : Char}
    (member : character ∈ (positional places value).toList) :
    Decimal character := by
  unfold positional at member
  split at member
  · simp only [String.toList_append, toList_sign, List.mem_append,
      Nat.toString_eq_ofList_toDigits, String.toList_ofList] at member
    rcases member with (signed | digit) | zero
    · exact decimal_of_mem_sign signed
    · exact .inl (isDigit_of_mem_toDigits digit)
    · rw [List.eq_of_mem_replicate zero]
      exact .inl rfl
  · exact decimal_of_mem_fixed member

theorem decimal_of_mem_display {value : F64} {character : Char}
    (member : character ∈ (display value).toList) : Decimal character := by
  unfold display at member
  split_ifs at member
  · rw [List.mem_singleton.mp member]
    exact .inl rfl
  · exact decimal_of_mem_positional member

end RustFloat
