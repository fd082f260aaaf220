import Mathlib.Data.Rat.Floor
import Mathlib.Algebra.Order.Group.Unbundled.Abs

/-!
# Doubles

A double is an exact rational here: no rounding, no infinity and no NaN.  The
file has the conversions of the Rust standard library that the program depends
on: reading a double from text, casting one to a machine integer, and writing
one without its fraction.
-/

/-- A double, as an exact number. -/
abbrev F64 := ℚ

namespace RustFloat

/-- The number that a list of decimal digits denotes. -/
def ofDigits (digits : List Char) : Nat :=
  digits.foldl (fun value digit => value * 10 + (digit.toNat - 48)) 0

/-- The sign in front of a number: whether it is negative, and what follows. -/
def splitSign : List Char → Bool × List Char
  | '-' :: rest => (true, rest)
  | '+' :: rest => (false, rest)
  | text => (false, text)

/-- The exponent at the end of a number. -/
def exponent : List Char → Option Int
  | [] => some 0
  | mark :: rest =>
      if mark = 'e' ∨ mark = 'E' then
        let (negative, digits) := splitSign rest
        if digits ≠ [] ∧ digits.all Char.isDigit then
          some (if negative then -(ofDigits digits : Int) else ofDigits digits)
        else none
      else none

/-- An unsigned decimal number. -/
def unsigned (text : List Char) : Option F64 :=
  let whole := text.takeWhile Char.isDigit
  let afterWhole := text.dropWhile Char.isDigit
  let pointed := afterWhole.head? = some '.'
  let afterPoint := if pointed then afterWhole.drop 1 else afterWhole
  let fraction := if pointed then afterPoint.takeWhile Char.isDigit else []
  let rest := if pointed then afterPoint.dropWhile Char.isDigit else afterPoint
  if whole = [] ∧ fraction = [] then none
  else
    (exponent rest).map fun power =>
      (ofDigits (whole ++ fraction) : F64) * 10 ^ (power - (fraction.length : Int))

/-- The smallest magnitude that is read as an infinity. -/
def overflow : F64 :=
  2 ^ 1024 - 2 ^ 970

/-- `str::parse::<f64>`; the inner `none` is a number that is not finite. -/
def parse (text : String) : Option (Option F64) :=
  let (negative, body) := splitSign text.toList
  if String.ofList (body.map Char.toLower) ∈ ["inf", "infinity", "nan"] then
    some none
  else
    (unsigned body).map fun value =>
      if overflow ≤ value then none
      else some (if negative then -value else value)

/-- The number without its fraction. -/
def truncate (value : F64) : Int :=
  value.num.tdiv value.den

/-- `as u32`: the fraction goes, and what does not fit saturates. -/
def asU32 (value : F64) : UInt32 :=
  UInt32.ofNat (min (truncate value).toNat (2 ^ 32 - 1))

/-- `as i64`: the fraction goes, and what does not fit saturates. -/
def asI64 (value : F64) : Int :=
  max (-2 ^ 63) (min (truncate value) (2 ^ 63 - 1))

/-- `{:.0}`: the nearest whole number, the even one of two. -/
def rounded (value : F64) : Int :=
  let whole := ⌊value⌋
  let rest := value - whole
  if rest < 1 / 2 then whole
  else if 1 / 2 < rest then whole + 1
  else if whole % 2 = 0 then whole
  else whole + 1

/-- `{:.1}`: the nearest tenth, the even one of two. -/
def oneDecimal (value : F64) : String :=
  let tenths := (rounded (|value| * 10)).toNat
  (if value < 0 then "-" else "") ++ toString (tenths / 10) ++ "." ++
    toString (tenths % 10)

/-- `as usize`: the fraction goes, and what does not fit saturates. -/
def asUsize (value : F64) : Nat :=
  min (truncate value).toNat (2 ^ 64 - 1)

/-- `f64::round`: the nearest whole number, away from zero of two. -/
def round (value : F64) : F64 :=
  if value < 0 then truncate (value - 1 / 2) else truncate (value + 1 / 2)

/-- `%`: the remainder has the sign of the dividend. -/
def rem (value modulus : F64) : F64 :=
  value - modulus * truncate (value / modulus)

/-- `f64::rem_euclid`. -/
def remEuclid (value modulus : F64) : F64 :=
  let rest := rem value modulus
  if rest < 0 then rest + |modulus| else rest

/-- The functions of the mathematical library that have no exact form. -/
structure Libm where
  pi : F64
  sin : F64 → F64
  cos : F64 → F64
  exp : F64 → F64
  powf : F64 → F64 → F64

example : (exponent "e-2".toList, unsigned "x".toList) = (some (-2), none) := by
  decide

end RustFloat
