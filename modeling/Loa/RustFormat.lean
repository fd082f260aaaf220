import Loa.RustFloat

/-!
# Numbers as `format!` writes them

The width, fill and precision of a placeholder, as far as the pages use them.
-/

namespace RustFormat

/-- `{:>width$}`: blanks in front, up to the width. -/
def padLeft (width : Nat) (text : String) : String :=
  String.ofList (List.replicate (width - text.length) ' ') ++ text

/-- A number with its sign in front of the zeros that fill the width. -/
def zeroFill (width : Nat) (negative : Bool) (digits : String) : String :=
  let sign := if negative then "-" else ""
  sign ++ String.ofList
    (List.replicate (width - (sign.length + digits.length)) '0') ++ digits

/-- `{:0width$}` of a signed integer. -/
def zeroPadded (width : Nat) (value : Int) : String :=
  zeroFill width (decide (value < 0)) (toString value.natAbs)

/-- The digits of `{:.places$}`, without the sign: the nearest number with so
many decimals, the even one of two. -/
def decimals (places : Nat) (value : F64) : String :=
  let scaled := (RustFloat.rounded (|value| * 10 ^ places)).toNat
  let fraction := toString (scaled % 10 ^ places)
  toString (scaled / 10 ^ places) ++
    if places = 0 then ""
    else
      "." ++ String.ofList (List.replicate (places - fraction.length) '0') ++
        fraction

/-- `{:.places$}`. -/
def fixed (places : Nat) (value : F64) : String :=
  (if value < 0 then "-" else "") ++ decimals places value

/-- `{:0width$.places$}`. -/
def fixedPadded (width places : Nat) (value : F64) : String :=
  zeroFill width (decide (value < 0)) (decimals places value)

end RustFormat
