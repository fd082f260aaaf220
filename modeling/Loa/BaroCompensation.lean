import Loa.MachineInteger
import Loa.RustFloat
import Mathlib.Tactic

/-!
# The compensation of the pressure sensor

The datasheet's formula as the code computes it, in 64-bit integers with
Euclidean division, beside the reference, in unbounded integers with floor
division.  For the words and the raw values that the sensor can deliver only one
operation can leave the 64 bits, the square of the uncorrected pressure times
3038, and the two divisions agree where the divisor is positive or divides.
-/

/-- The calibration words of the sensor. -/
structure Cal where
  ac1 : Int16
  ac2 : Int16
  ac3 : Int16
  ac4 : UInt16
  ac5 : UInt16
  ac6 : UInt16
  b1 : Int16
  b2 : Int16
  mb : Int16
  mc : Int16
  md : Int16
  deriving DecidableEq

namespace Baro

open I64 (Build Fits Within)

/-- "Floor" division. -/
def fdiv (a b : Int) : Option Int :=
  I64.divEuclid a b

section Compensate

variable (build : Build) (cal : Cal)

/-- The true temperature, in sixteenths of a tenth of a degree. -/
def computeB5 (ut : Int) : Option Int := do
  let x1 := (← I64.mul build (← I64.sub build ut cal.ac6.toNat)
    cal.ac5.toNat) >>> (15 : Nat)
  let x2 ← fdiv (I64.shl cal.mc.toInt 11) (← I64.add build x1 cal.md.toInt)
  I64.add build x1 x2

def computeB3 (b6 : Int) : Option Int := do
  let x1 := (← I64.mul build cal.b2.toInt
    ((← I64.mul build b6 b6) >>> (12 : Nat))) >>> (11 : Nat)
  let x2 := (← I64.mul build cal.ac2.toInt b6) >>> (11 : Nat)
  let x3 ← I64.add build x1 x2
  pure ((← I64.add build
    (← I64.add build (← I64.mul build cal.ac1.toInt 4) x3) 2) >>> (2 : Nat))

def computeB4 (b6 : Int) : Option Int := do
  let x1 := (← I64.mul build cal.ac3.toInt b6) >>> (13 : Nat)
  let x2 := (← I64.mul build cal.b1.toInt
    ((← I64.mul build b6 b6) >>> (12 : Nat))) >>> (16 : Nat)
  let x3 := (← I64.add build (← I64.add build x1 x2) 2) >>> (2 : Nat)
  pure ((← I64.mul build cal.ac4.toNat (← I64.add build x3 32768)) >>> (15 : Nat))

/-- The pressure before the last correction. -/
def computeP (b7 b4 : Int) : Option Int :=
  if b7 < 0x80000000 then do fdiv (← I64.mul build b7 2) b4
  else do I64.mul build (← fdiv b7 b4) 2

/-- The last correction. -/
def correct (p : Int) : Option Int := do
  let x1 ← I64.mul build (p >>> (8 : Nat)) (p >>> (8 : Nat))
  let x1 := (← I64.mul build x1 3038) >>> (16 : Nat)
  let x2 := (← I64.mul build (-7357) p) >>> (16 : Nat)
  I64.add build p ((← I64.add build (← I64.add build x1 x2) 3791) >>> (4 : Nat))

/-- The temperature and the pressure; nothing where the code panics. -/
def compensate (ut up : Int) : Option (F64 × F64) := do
  let b5 ← computeB5 build cal ut
  let tempC : F64 := (((← I64.add build b5 8) >>> (4 : Nat) : Int) : F64) / 10
  let b6 ← I64.sub build b5 4000
  let b3 ← computeB3 build cal b6
  let b4 ← computeB4 build cal b6
  let b7 ← I64.mul build (← I64.sub build up b3) 50000
  let p ← computeP build b7 b4
  let p ← correct build p
  pure (tempC, p)

end Compensate

/-- The Python `_compensate`. -/
def reference (cal : Cal) (ut up : Int) : F64 × F64 :=
  let ac1 := cal.ac1.toInt
  let ac2 := cal.ac2.toInt
  let ac3 := cal.ac3.toInt
  let ac4 : Int := cal.ac4.toNat
  let ac5 : Int := cal.ac5.toNat
  let ac6 : Int := cal.ac6.toNat
  let b1 := cal.b1.toInt
  let b2 := cal.b2.toInt
  let mc := cal.mc.toInt
  let md := cal.md.toInt
  let x1 := ((ut - ac6) * ac5) >>> (15 : Nat)
  let x2 := (mc * 2 ^ 11).fdiv (x1 + md)
  let b5 := x1 + x2
  let tempC : F64 := (((b5 + 8) >>> (4 : Nat) : Int) : F64) / 10
  let b6 := b5 - 4000
  let x1 := (b2 * ((b6 * b6) >>> (12 : Nat))) >>> (11 : Nat)
  let x2 := (ac2 * b6) >>> (11 : Nat)
  let x3 := x1 + x2
  let b3 := (ac1 * 4 + x3 + 2) >>> (2 : Nat)
  let x1 := (ac3 * b6) >>> (13 : Nat)
  let x2 := (b1 * ((b6 * b6) >>> (12 : Nat))) >>> (16 : Nat)
  let x3 := (x1 + x2 + 2) >>> (2 : Nat)
  let b4 := (ac4 * (x3 + 32768)) >>> (15 : Nat)
  let b7 := (up - b3) * 50000
  let p := if b7 < 0x80000000 then (b7 * 2).fdiv b4 else b7.fdiv b4 * 2
  let x1 := (p >>> (8 : Nat)) * (p >>> (8 : Nat))
  let x1 := (x1 * 3038) >>> (16 : Nat)
  let x2 := (-7357 * p) >>> (16 : Nat)
  let p := p + ((x1 + x2 + 3791) >>> (4 : Nat))
  (tempC, p)

section Formula

variable (divide : Int → Int → Int) (cal : Cal) (ut up : Int)

/-- The raw temperature, scaled. -/
def scaled : Int :=
  ((ut - cal.ac6.toNat) * cal.ac5.toNat) >>> (15 : Nat)

/-- The first divisor. -/
def divisor : Int :=
  scaled cal ut + cal.md.toInt

def b5 : Int :=
  scaled cal ut + divide (cal.mc.toInt * 2 ^ 11) (divisor cal ut)

def tempC (b5 : Int) : F64 :=
  (((b5 + 8) >>> (4 : Nat) : Int) : F64) / 10

def b3 (b6 : Int) : Int :=
  (cal.ac1.toInt * (4 : Int) +
    ((cal.b2.toInt * ((b6 * b6) >>> (12 : Nat))) >>> (11 : Nat) +
      (cal.ac2.toInt * b6) >>> (11 : Nat)) + 2) >>> (2 : Nat)

def x3 (b6 : Int) : Int :=
  ((cal.ac3.toInt * b6) >>> (13 : Nat) +
    (cal.b1.toInt * ((b6 * b6) >>> (12 : Nat))) >>> (16 : Nat) + 2) >>> (2 : Nat)

/-- The second divisor. -/
def b4 (b6 : Int) : Int :=
  (cal.ac4.toNat * (x3 cal b6 + 32768)) >>> (15 : Nat)

def b7 (b6 : Int) : Int :=
  (up - b3 cal b6) * 50000

/-- The pressure before its last correction. -/
def uncorrected (b7 b4 : Int) : Int :=
  if b7 < 0x80000000 then divide (b7 * 2) b4 else divide b7 b4 * 2

def corrected (p : Int) : Int :=
  p + (((p >>> (8 : Nat)) * (p >>> (8 : Nat)) * 3038) >>> (16 : Nat) +
    (-7357 * p) >>> (16 : Nat) + 3791) >>> (4 : Nat)

/-- The pressure from `b6`. -/
def pressure (b6 : Int) : Int :=
  uncorrected divide (b7 cal up b6) (b4 cal b6)

end Formula

theorem reference_eq (cal : Cal) (ut up : Int) :
    reference cal ut up =
      (tempC (b5 Int.fdiv cal ut),
        (corrected (pressure Int.fdiv cal up (b5 Int.fdiv cal ut - 4000)) :
          F64)) :=
  rfl

theorem within_word (word : Int16) : Within 32768 word.toInt := by
  have low := word.le_toInt
  have high := word.toInt_lt
  unfold Within
  omega

theorem within_unsigned (word : UInt16) : Within 65535 (word.toNat : Int) := by
  have high := word.toNat_lt
  unfold Within
  omega

section Bounds

variable {cal : Cal} {ut up : Int} {b6 : Int}

theorem within_scaled (raw : Within 65535 ut) :
    Within 262143 (scaled cal ut) :=
  (((raw.sub (within_unsigned _)).mul (within_unsigned _)).shr 15).mono
    (by norm_num)

theorem within_divisor (raw : Within 65535 ut) :
    Within 294911 (divisor cal ut) :=
  (within_scaled raw).add (within_word _)

theorem within_dividend : Within 67108864 (cal.mc.toInt * 2 ^ 11) :=
  (within_word _).mul (I64.within_natCast 2048)

theorem within_b5 (raw : Within 65535 ut) :
    Within 67371007 (b5 (· / ·) cal ut) :=
  (within_scaled raw).add within_dividend.div

variable (small : Within 67375007 b6)
include small

/-- The square of `b6`, scaled. -/
theorem within_square : Within 1108249894593 ((b6 * b6) >>> (12 : Nat)) :=
  ((small.mul small).shr 12).mono (by norm_num)

theorem within_b3 : Within 4433269111170 (b3 cal b6) := by
  have squared : Within 17731998313489
      ((cal.b2.toInt * ((b6 * b6) >>> (12 : Nat))) >>> (11 : Nat)) :=
    (((within_word _).mul (within_square small)).shr 11).mono (by norm_num)
  have linear : Within 1078000113 ((cal.ac2.toInt * b6) >>> (11 : Nat)) :=
    (((within_word _).mul small).shr 11).mono (by norm_num)
  have offset : Within 131072 (cal.ac1.toInt * 4) :=
    (within_word _).mul (I64.within_natCast 4)
  exact (((offset.add (squared.add linear)).add (I64.within_natCast 2)).shr 2).mono
    (by norm_num)

theorem within_x3 : Within 138598611833 (x3 cal b6) := by
  have linear : Within 269500029 ((cal.ac3.toInt * b6) >>> (13 : Nat)) :=
    (((within_word _).mul small).shr 13).mono (by norm_num)
  have squared : Within 554124947297
      ((cal.b1.toInt * ((b6 * b6) >>> (12 : Nat))) >>> (16 : Nat)) :=
    (((within_word _).mul (within_square small)).shr 16).mono (by norm_num)
  exact (((linear.add squared).add (I64.within_natCast 2)).shr 2).mono (by norm_num)

theorem within_b7 (raw : Within 65535 up) :
    Within 221663458835250000 (b7 cal up b6) :=
  ((raw.sub (within_b3 small)).mul (I64.within_natCast 50000)).mono (by norm_num)

theorem within_pressure (raw : Within 65535 up) :
    Within 443326917670500000 (pressure (· / ·) cal up b6) := by
  unfold pressure uncorrected
  split
  · exact (((within_b7 small raw).mul (I64.within_natCast 2)).div).mono
      (by norm_num)
  · exact ((within_b7 small raw).div.mul (I64.within_natCast 2)).mono (by norm_num)

omit small

end Bounds

section Stages

variable {build : Build} {cal : Cal} {ut up : Int} {b6 : Int}

theorem computeB5_eq (raw : Within 65535 ut) :
    computeB5 build cal ut =
      if divisor cal ut = 0 then none else some (b5 (· / ·) cal ut) := by
  have fromZero : Within 131070 (ut - cal.ac6.toNat) :=
    raw.sub (within_unsigned _)
  have product := fromZero.mul (within_unsigned cal.ac5)
  have shifted : I64.shl cal.mc.toInt 11 = cal.mc.toInt * 2 ^ 11 :=
    I64.shl_of_fits (within_dividend.fits (by norm_num))
  unfold computeB5
  simp only [Option.bind_eq_bind]
  rw [I64.sub_of_within fromZero (by norm_num), Option.bind_some,
    I64.mul_of_within product (by norm_num), Option.bind_some]
  change ((I64.add build (scaled cal ut) cal.md.toInt).bind fun _ => _) = _
  rw [I64.add_of_within (within_divisor raw) (by norm_num), Option.bind_some,
    shifted, fdiv]
  change ((I64.divEuclid _ (divisor cal ut)).bind _) = _
  by_cases zero : divisor cal ut = 0
  · rw [if_pos zero, zero, I64.divEuclid_zero, Option.bind_none]
  · rw [if_neg zero, I64.divEuclid_of_within within_dividend (by norm_num) zero,
      Option.bind_some]
    exact I64.add_of_within (within_b5 raw) (by norm_num)

theorem computeB3_eq (small : Within 67375007 b6) :
    computeB3 build cal b6 = some (b3 cal b6) := by
  have squared := (within_word cal.b2).mul (within_square small)
  have linear := (within_word cal.ac2).mul small
  have offset : Within 131072 (cal.ac1.toInt * 4) :=
    (within_word _).mul (I64.within_natCast 4)
  have x3 := (squared.shr 11).add (linear.shr 11)
  have total : Within 17733076444676 (cal.ac1.toInt * (4 : Int) +
      ((cal.b2.toInt * ((b6 * b6) >>> (12 : Nat))) >>> (11 : Nat) +
        (cal.ac2.toInt * b6) >>> (11 : Nat)) + 2) :=
    ((offset.add x3).add (I64.within_natCast 2)).mono (by norm_num)
  unfold computeB3
  simp only [Option.bind_eq_bind]
  rw [I64.mul_of_within (small.mul small) (by norm_num), Option.bind_some,
    I64.mul_of_within squared (by norm_num), Option.bind_some,
    I64.mul_of_within linear (by norm_num), Option.bind_some,
    I64.add_of_within x3 (by norm_num), Option.bind_some,
    I64.mul_of_within offset (by norm_num), Option.bind_some,
    I64.add_of_within (offset.add x3) (by norm_num), Option.bind_some,
    I64.add_of_within total (by norm_num), Option.bind_some]
  rfl

theorem computeB4_eq (small : Within 67375007 b6) :
    computeB4 build cal b6 = some (b4 cal b6) := by
  have squared := (within_word cal.b1).mul (within_square small)
  have linear := (within_word cal.ac3).mul small
  have sum := (linear.shr 13).add (squared.shr 16)
  have total : Within 554394447330 ((cal.ac3.toInt * b6) >>> (13 : Nat) +
      (cal.b1.toInt * ((b6 * b6) >>> (12 : Nat))) >>> (16 : Nat) + 2) :=
    (sum.add (I64.within_natCast 2)).mono (by norm_num)
  have factor : Within 138598644601 (x3 cal b6 + 32768) :=
    (within_x3 small).add (I64.within_natCast 32768)
  unfold computeB4
  simp only [Option.bind_eq_bind]
  rw [I64.mul_of_within linear (by norm_num), Option.bind_some,
    I64.mul_of_within (small.mul small) (by norm_num), Option.bind_some,
    I64.mul_of_within squared (by norm_num), Option.bind_some,
    I64.add_of_within sum (by norm_num), Option.bind_some,
    I64.add_of_within total (by norm_num), Option.bind_some]
  change ((I64.add build (x3 cal b6) 32768).bind fun _ => _) = _
  rw [I64.add_of_within factor (by norm_num), Option.bind_some,
    I64.mul_of_within ((within_unsigned _).mul factor) (by norm_num),
    Option.bind_some]
  rfl

theorem computeP_eq {b7 b4 : Int} (within : Within 221663458835250000 b7) :
    computeP build b7 b4 =
      if b4 = 0 then none else some (uncorrected (· / ·) b7 b4) := by
  have doubled : Within 443326917670500000 (b7 * 2) :=
    within.mul (I64.within_natCast 2)
  have halved : Within 443326917670500000 (b7 / b4 * 2) :=
    within.div.mul (I64.within_natCast 2)
  unfold computeP uncorrected fdiv
  simp only [Option.bind_eq_bind]
  rw [I64.mul_of_within doubled (by norm_num), Option.bind_some]
  by_cases zero : b4 = 0
  · rw [if_pos zero, zero, I64.divEuclid_zero, I64.divEuclid_zero,
      Option.bind_none, ite_self]
  · rw [if_neg zero, I64.divEuclid_of_within doubled (by norm_num) zero,
      I64.divEuclid_of_within within (by norm_num) zero, Option.bind_some,
      I64.mul_of_within halved (by norm_num), ← apply_ite some]

/-- Before the last correction nothing leaves the 64 bits: the code divides by
zero, or it goes on with the pressure of the formula under its own division. -/
theorem compensate_eq (rawTemp : Within 65535 ut)
    (rawPressure : Within 65535 up) :
    compensate build cal ut up =
      if divisor cal ut = 0 then none
      else if b4 cal (b5 (· / ·) cal ut - 4000) = 0 then none
      else
        (correct build (pressure (· / ·) cal up
          (b5 (· / ·) cal ut - 4000))).map fun (p : Int) =>
            (tempC (b5 (· / ·) cal ut), (p : F64)) := by
  unfold compensate
  simp only [Option.bind_eq_bind]
  rw [computeB5_eq rawTemp]
  by_cases zero : divisor cal ut = 0
  · rw [if_pos zero, if_pos zero, Option.bind_none]
  rw [if_neg zero, if_neg zero, Option.bind_some]
  have heat : Within 67371007 (b5 (· / ·) cal ut) := within_b5 rawTemp
  generalize b5 (· / ·) cal ut = b5 at heat ⊢
  have small : Within 67375007 (b5 - 4000) :=
    heat.sub (I64.within_natCast 4000)
  have warm : Within 67371015 (b5 + 8) := heat.add (I64.within_natCast 8)
  have offset : Within 4433269111170 (b3 cal (b5 - 4000)) := within_b3 small
  have risen := rawPressure.sub offset
  have scaledUp : Within 221663458835250000 (b7 cal up (b5 - 4000)) :=
    within_b7 small rawPressure
  rw [I64.add_of_within warm (by norm_num), Option.bind_some,
    I64.sub_of_within small (by norm_num), Option.bind_some,
    computeB3_eq small, Option.bind_some, computeB4_eq small, Option.bind_some,
    I64.sub_of_within risen (by norm_num), Option.bind_some]
  change ((I64.mul build (up - b3 cal (b5 - 4000)) 50000).bind fun _ => _) = _
  rw [I64.mul_of_within scaledUp (by norm_num), Option.bind_some]
  change ((computeP build (b7 cal up (b5 - 4000)) _).bind fun _ => _) = _
  rw [computeP_eq scaledUp]
  by_cases stuck : b4 cal (b5 - 4000) = 0
  · rw [if_pos stuck, if_pos stuck, Option.bind_none]
  · rw [if_neg stuck, if_neg stuck, Option.bind_some, Option.map_eq_bind]
    rfl

end Stages

/-- The one product that may leave the 64 bits does not. -/
def Narrow (p : Int) : Prop :=
  3038 * ((p >>> (8 : Nat)) * (p >>> (8 : Nat))) < 2 ^ 63

instance (p : Int) : Decidable (Narrow p) :=
  inferInstanceAs (Decidable (_ < _))

section Correction

variable {build : Build} {p : Int}

theorem within_of_narrow (narrow : Narrow p) :
    Within 55100000 (p >>> (8 : Nat)) ∧ Within 14105600256 p := by
  have scaledDown : Within 55100000 (p >>> (8 : Nat)) := by
    by_contra wide
    have far : 55100001 ≤ (p >>> (8 : Nat)).natAbs := by
      unfold Within at wide
      omega
    have square : 55100001 * 55100001 ≤
        (p >>> (8 : Nat)).natAbs * (p >>> (8 : Nat)).natAbs :=
      Nat.mul_le_mul far far
    have same := Int.natAbs_mul_self (a := p >>> (8 : Nat))
    unfold Narrow at narrow
    omega
  refine ⟨scaledDown, ?_⟩
  have divided : p >>> (8 : Nat) = p / 256 := Int.shiftRight_eq_div_pow p 8
  unfold Within at scaledDown ⊢
  omega

theorem correct_of_narrow (narrow : Narrow p) :
    correct build p = some (corrected p) := by
  obtain ⟨scaledDown, small⟩ := within_of_narrow narrow
  have square : Within 3036010000000000 ((p >>> (8 : Nat)) * (p >>> (8 : Nat))) :=
    scaledDown.mul scaledDown
  have cubic : Within 9223372036854775807
      ((p >>> (8 : Nat)) * (p >>> (8 : Nat)) * 3038) := by
    have positive := mul_self_nonneg (p >>> (8 : Nat))
    unfold Narrow at narrow
    unfold Within
    omega
  have linear : Within 103774901083392 (-7357 * p) := by
    unfold Within at small ⊢
    omega
  have sum := (cubic.shr 16).add (linear.shr 16)
  have total : Within 140741783326513
      (((p >>> (8 : Nat)) * (p >>> (8 : Nat)) * 3038) >>> (16 : Nat) +
        (-7357 * p) >>> (16 : Nat) + 3791) :=
    (sum.add (I64.within_natCast 3791)).mono (by norm_num)
  unfold correct
  simp only [Option.bind_eq_bind]
  rw [I64.mul_of_within square (by norm_num), Option.bind_some,
    I64.mul_of_within cubic (by norm_num), Option.bind_some,
    I64.mul_of_within linear (by norm_num), Option.bind_some,
    I64.add_of_within sum (by norm_num), Option.bind_some,
    I64.add_of_within total (by norm_num), Option.bind_some,
    I64.add_of_within (small.add (total.shr 4)) (by norm_num)]
  rfl

theorem correct_debug_of_wide (wide : ¬ Narrow p) :
    correct .debug p = none := by
  have outside : ¬ Fits ((p >>> (8 : Nat)) * (p >>> (8 : Nat)) * 3038) := by
    unfold Narrow at wide
    unfold Fits
    omega
  unfold correct
  simp only [Option.bind_eq_bind]
  by_cases fits : Fits ((p >>> (8 : Nat)) * (p >>> (8 : Nat)))
  · rw [I64.mul, I64.settle_of_fits fits, Option.bind_some, I64.mul, I64.settle,
      if_neg outside, Option.bind_none]
  · rw [I64.mul, I64.settle, if_neg fits, Option.bind_none]

/-- The product is the only one to count: a linear term of its size would take a
pressure whose square is far larger. -/
theorem turns_positive {p k l a b : Int} (wide : ¬ Narrow p)
    (wholeX : (p >>> (8 : Nat)) * (p >>> (8 : Nat)) * 3038 = a + 2 ^ 64 * k)
    (wholeY : -7357 * p = b + 2 ^ 64 * l) (fitsX : Fits a) (fitsY : Fits b) :
    0 < k + l := by
  have divided : p >>> (8 : Nat) = p / 256 := Int.shiftRight_eq_div_pow p 8
  unfold Narrow at wide
  unfold Fits at fitsX fitsY
  generalize p >>> (8 : Nat) = q at divided wide wholeX
  by_contra few
  have far : 4000000000000 ≤ q := by omega
  have square : 4000000000000 * q ≤ q * q :=
    Int.mul_le_mul_of_nonneg_right far (by omega)
  omega

/-- In a release build the product wraps around, and the pressure is off by a
multiple of `2 ^ 44`. -/
theorem correct_release_of_wide (within : Within 443326917670500000 p)
    (wide : ¬ Narrow p) :
    ∃ turns : Int, 0 < turns ∧
      correct .release p = some (corrected p - 2 ^ 44 * turns) := by
  obtain ⟨k, wholeX⟩ :=
    I64.exists_turns ((p >>> (8 : Nat)) * (p >>> (8 : Nat)) * 3038)
  obtain ⟨l, wholeY⟩ := I64.exists_turns (-7357 * p)
  have fitsX :=
    I64.fits_bmod ((p >>> (8 : Nat)) * (p >>> (8 : Nat)) * 3038)
  have fitsY := I64.fits_bmod (-7357 * p)
  refine ⟨k + l, turns_positive wide wholeX wholeY fitsX fitsY, ?_⟩
  have product :
      (((p >>> (8 : Nat)) * (p >>> (8 : Nat))).bmod (2 ^ 64) * 3038).bmod
          (2 ^ 64) =
        ((p >>> (8 : Nat)) * (p >>> (8 : Nat)) * 3038).bmod (2 ^ 64) :=
    Int.bmod_mul_bmod
  unfold correct I64.mul
  simp only [Option.bind_eq_bind]
  rw [I64.settle_release, Option.bind_some, I64.settle_release,
    Option.bind_some, product, I64.settle_release, Option.bind_some]
  unfold corrected
  generalize ((p >>> (8 : Nat)) * (p >>> (8 : Nat)) * 3038).bmod (2 ^ 64) = x
    at fitsX wholeX ⊢
  generalize (-7357 * p).bmod (2 ^ 64) = y at fitsY wholeY ⊢
  have boundX : Within (2 ^ 63) x := by
    unfold Fits at fitsX
    unfold Within
    omega
  have boundY : Within (2 ^ 63) y := by
    unfold Fits at fitsY
    unfold Within
    omega
  have sum := (boundX.shr 16).add (boundY.shr 16)
  have total : Within 281474976714449 (x >>> (16 : Nat) + y >>> (16 : Nat) + 3791) :=
    (sum.add (I64.within_natCast 3791)).mono (by norm_num)
  rw [I64.add_of_within sum (by norm_num), Option.bind_some,
    I64.add_of_within total (by norm_num), Option.bind_some,
    I64.add_of_within (within.add (total.shr 4)) (by norm_num)]
  simp only [Int.shiftRight_eq_div_pow, Option.some.injEq] at wholeX ⊢
  omega

end Correction

section Reference

variable {build : Build} {cal : Cal} {ut up : UInt16}

/-- The two divisions agree. -/
def Agrees (dividend divisor : Int) : Prop :=
  0 ≤ divisor ∨ divisor ∣ dividend

/-- Both divisors of the reference are positive or divide. -/
def DivisorsAgree (cal : Cal) (ut up : Int) : Prop :=
  let b6 := b5 Int.fdiv cal ut - 4000
  let b7 := b7 cal up b6
  Agrees (cal.mc.toInt * 2 ^ 11) (divisor cal ut) ∧
    Agrees (if b7 < 0x80000000 then b7 * 2 else b7) (b4 cal b6)

theorem b5_eq_of_agrees {ut : Int}
    (agrees : Agrees (cal.mc.toInt * 2 ^ 11) (divisor cal ut)) :
    b5 (· / ·) cal ut = b5 Int.fdiv cal ut :=
  congrArg (scaled cal ut + ·) (I64.ediv_eq_fdiv_iff.mpr agrees)

/-- Elsewhere the code's temperature is one unit too high. -/
theorem b5_eq_of_not_agrees {ut : Int}
    (differs : ¬ Agrees (cal.mc.toInt * 2 ^ 11) (divisor cal ut)) :
    b5 (· / ·) cal ut = b5 Int.fdiv cal ut + 1 := by
  have floor := Int.fdiv_eq_ediv (a := cal.mc.toInt * 2 ^ 11)
    (b := divisor cal ut)
  unfold Agrees at differs
  rw [if_neg differs] at floor
  unfold b5
  dsimp only
  omega

theorem uncorrected_eq_of_agrees {b7 b4 : Int}
    (agrees : Agrees (if b7 < 0x80000000 then b7 * 2 else b7) b4) :
    uncorrected (· / ·) b7 b4 = uncorrected Int.fdiv b7 b4 := by
  unfold uncorrected
  split
  · rename_i small
    rw [if_pos small] at agrees
    exact I64.ediv_eq_fdiv_iff.mpr agrees
  · rename_i large
    rw [if_neg large] at agrees
    exact congrArg (· * 2) (I64.ediv_eq_fdiv_iff.mpr agrees)

/-- The last correction is the reference's exactly for the pressures whose
square, times 3038, fits. -/
theorem correct_eq_iff {p : Int} (within : Within 443326917670500000 p) :
    correct build p = some (corrected p) ↔ Narrow p := by
  refine ⟨fun same => ?_, correct_of_narrow⟩
  by_contra wide
  cases build with
  | debug =>
      rw [correct_debug_of_wide wide] at same
      cases same
  | release =>
      obtain ⟨turns, positive, wrapped⟩ := correct_release_of_wide within wide
      rw [wrapped, Option.some.injEq] at same
      omega

/-- For every calibration and every raw value without a zero divisor: where both
divisors are positive or divide, the code returns what the reference returns
exactly when the square of the uncorrected pressure, times 3038, is below
`2 ^ 63`.  A first divisor that is negative and does not divide makes the
temperature one unit too high, which shows whenever the tenth is about to turn. -/
theorem compensate_eq_reference_iff (build : Build) (cal : Cal)
    (ut up : UInt16) (first : divisor cal ut.toNat ≠ 0)
    (second : b4 cal (b5 Int.fdiv cal ut.toNat - 4000) ≠ 0) :
    (DivisorsAgree cal ut.toNat up.toNat →
      (compensate build cal ut.toNat up.toNat =
          some (reference cal ut.toNat up.toNat) ↔
        Narrow (pressure Int.fdiv cal up.toNat
          (b5 Int.fdiv cal ut.toNat - 4000)))) ∧
    (¬ Agrees (cal.mc.toInt * 2 ^ 11) (divisor cal ut.toNat) →
      16 ∣ b5 Int.fdiv cal ut.toNat + 9 →
      compensate build cal ut.toNat up.toNat ≠
        some (reference cal ut.toNat up.toNat)) := by
  have code := @compensate_eq build cal _ _ (within_unsigned ut)
    (within_unsigned up)
  constructor
  · rintro ⟨agreesFirst, agreesSecond⟩
    have heat := @within_b5 cal _ (within_unsigned ut)
    rw [if_neg first] at code
    rw [b5_eq_of_agrees agreesFirst] at code heat
    rw [if_neg second] at code
    have small : Within 67375007 (b5 Int.fdiv cal ut.toNat - 4000) :=
      heat.sub (I64.within_natCast 4000)
    have within := @within_pressure cal _ _ small (within_unsigned up)
    have same : pressure (· / ·) cal up.toNat
        (b5 Int.fdiv cal ut.toNat - 4000) =
        pressure Int.fdiv cal up.toNat (b5 Int.fdiv cal ut.toNat - 4000) :=
      uncorrected_eq_of_agrees agreesSecond
    rw [same] at code within
    rw [code, reference_eq, Option.map_eq_some_iff, ← correct_eq_iff within]
    constructor
    · rintro ⟨p, computed, equal⟩
      rw [computed, Int.cast_injective (Prod.mk.inj equal).2]
    · intro computed
      exact ⟨_, computed, rfl⟩
  · intro differs turning equal
    rw [code, reference_eq, if_neg first, b5_eq_of_not_agrees differs] at equal
    split at equal
    · cases equal
    · obtain ⟨p, -, pair⟩ := Option.map_eq_some_iff.mp equal
      have tenths := (Prod.mk.inj pair).1
      unfold tempC at tenths
      rw [div_left_inj' (by norm_num), Int.cast_inj,
        Int.shiftRight_eq_div_pow, Int.shiftRight_eq_div_pow] at tenths
      omega

end Reference

namespace Vectors

/-- The words read off the body's own sensor. -/
def body : Cal where
  ac1 := 8687
  ac2 := -1183
  ac3 := -14304
  ac4 := 33899
  ac5 := 25081
  ac6 := 20813
  b1 := 6515
  b2 := 47
  mb := -32768
  mc := -11786
  md := 2771

/-- At room temperature both divisors are positive. -/
theorem compensate_eq_reference_iff_body :
    compensate .release body (29065 : UInt16).toNat (43571 : UInt16).toNat =
      some (reference body (29065 : UInt16).toNat (43571 : UInt16).toNat) := by
  have agree : DivisorsAgree body (29065 : UInt16).toNat
      (43571 : UInt16).toNat := by
    constructor <;> exact .inl (by decide +kernel)
  exact ((compensate_eq_reference_iff .release body 29065 43571
    (by decide +kernel) (by decide +kernel)).1 agree).mpr (by decide +kernel)

/-- A raw temperature of zero makes the first divisor negative: the code's
pressure is one pascal too high. -/
theorem compensate_ne_reference :
    ¬ ∀ (cal : Cal) (ut up : UInt16), divisor cal ut.toNat ≠ 0 →
      b4 cal (b5 Int.fdiv cal ut.toNat - 4000) ≠ 0 →
      compensate .release cal ut.toNat up.toNat =
        some (reference cal ut.toNat up.toNat) := by
  intro equal
  have here := equal body 0 36000 (by decide +kernel) (by decide +kernel)
  revert here
  decide +kernel

end Vectors

end Baro
