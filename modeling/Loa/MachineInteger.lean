import Mathlib.Data.Int.Basic
import Mathlib.Tactic.NormNum
import Mathlib.Tactic.Linarith

/-!
# Signed 64-bit and 32-bit arithmetic

A result outside the bits traps in a debug build and wraps around in a release
build; division by zero traps in both.  `Within` bounds an integer on both sides
and composes along a formula, so that a long computation is seen to stay inside
the 64 bits one operation at a time.
-/

namespace I64

/-- What a build does with a result that does not fit. -/
inductive Build
  | debug
  | release
  deriving DecidableEq, Repr

/-- The range of the 64-bit integers. -/
def Fits (n : Int) : Prop :=
  -2 ^ 63 ≤ n ∧ n < 2 ^ 63

instance (n : Int) : Decidable (Fits n) :=
  inferInstanceAs (Decidable (_ ∧ _))

/-- A result as the build leaves it; nothing where the program stops. -/
def settle (build : Build) (n : Int) : Option Int :=
  if Fits n then some n
  else
    match build with
    | .debug => none
    | .release => some (n.bmod (2 ^ 64))

def add (build : Build) (a b : Int) : Option Int :=
  settle build (a + b)

def sub (build : Build) (a b : Int) : Option Int :=
  settle build (a - b)

def mul (build : Build) (a b : Int) : Option Int :=
  settle build (a * b)

/-- `<<`, which drops the bits that leave on top in every build. -/
def shl (a : Int) (count : Nat) : Int :=
  (a * 2 ^ count).bmod (2 ^ 64)

/-- `div_euclid`. -/
def divEuclid (a b : Int) : Option Int :=
  if b = 0 then none else if Fits (a / b) then some (a / b) else none

theorem settle_of_fits {build : Build} {n : Int} (fits : Fits n) :
    settle build n = some n :=
  if_pos fits

theorem bmod_of_fits {n : Int} (fits : Fits n) : n.bmod (2 ^ 64) = n := by
  obtain ⟨low, high⟩ := fits
  apply Int.bmod_eq_of_le <;> omega

/-- A release build always goes on, with the result taken modulo `2 ^ 64`. -/
theorem settle_release (n : Int) :
    settle .release n = some (n.bmod (2 ^ 64)) := by
  unfold settle
  split
  · rename_i fits
    rw [bmod_of_fits fits]
  · rfl

theorem fits_bmod (n : Int) : Fits (n.bmod (2 ^ 64)) := by
  have low : -((2 ^ 64 : Nat) / 2 : Int) ≤ n.bmod (2 ^ 64) :=
    Int.le_bmod (by omega)
  have high : n.bmod (2 ^ 64) < ((2 ^ 64 : Nat) + 1) / 2 :=
    Int.bmod_lt (by omega)
  constructor <;> omega

/-- The wrapped result is off by whole turns. -/
theorem exists_turns (n : Int) :
    ∃ turns : Int, n = n.bmod (2 ^ 64) + 2 ^ 64 * turns :=
  ⟨n.bdiv (2 ^ 64), (Int.bmod_add_bdiv n (2 ^ 64)).symm⟩

/-- At most `bound` away from zero. -/
def Within (bound : Nat) (n : Int) : Prop :=
  n.natAbs ≤ bound

section Within

variable {first second : Nat} {a b : Int}

theorem Within.mono (within : Within first a) (le : first ≤ second) :
    Within second a :=
  le_trans within le

theorem Within.add (left : Within first a) (right : Within second b) :
    Within (first + second) (a + b) :=
  (Int.natAbs_add_le a b).trans (Nat.add_le_add left right)

theorem Within.sub (left : Within first a) (right : Within second b) :
    Within (first + second) (a - b) :=
  (Int.natAbs_sub_le a b).trans (Nat.add_le_add left right)

theorem Within.mul (left : Within first a) (right : Within second b) :
    Within (first * second) (a * b) := by
  rw [Within, Int.natAbs_mul]
  exact Nat.mul_le_mul left right

theorem Within.shr (within : Within first a) (count : Nat) :
    Within (first / 2 ^ count + 1) (a >>> count) := by
  rw [Within, Int.shiftRight_eq_div_pow, Int.natAbs_ediv]
  have halved : a.natAbs / ((2 ^ count : Nat) : Int).natAbs ≤
      first / 2 ^ count := by
    rw [Int.natAbs_natCast]
    exact Nat.div_le_div_right within
  split <;> omega

/-- A quotient is no further from zero than the dividend. -/
theorem Within.div (within : Within first a) : Within first (a / b) :=
  (Int.natAbs_ediv_le_natAbs a b).trans within

theorem Within.fits (within : Within first a) (small : first < 2 ^ 63) :
    Fits a := by
  unfold Within at within
  constructor <;> omega

theorem within_natCast (n : Nat) : Within n (n : Int) :=
  (Int.natAbs_natCast n).le

section Operations

variable {build : Build} {bound : Nat}

theorem add_of_within (within : Within bound (a + b))
    (small : bound < 2 ^ 63) : add build a b = some (a + b) :=
  settle_of_fits (within.fits small)

theorem sub_of_within (within : Within bound (a - b))
    (small : bound < 2 ^ 63) : sub build a b = some (a - b) :=
  settle_of_fits (within.fits small)

theorem mul_of_within (within : Within bound (a * b))
    (small : bound < 2 ^ 63) : mul build a b = some (a * b) :=
  settle_of_fits (within.fits small)

theorem divEuclid_of_within (within : Within bound a)
    (small : bound < 2 ^ 63) (nonzero : b ≠ 0) :
    divEuclid a b = some (a / b) := by
  rw [divEuclid, if_neg nonzero, if_pos (within.div.fits small)]

end Operations

end Within

theorem shl_of_fits {a : Int} {count : Nat} (fits : Fits (a * 2 ^ count)) :
    shl a count = a * 2 ^ count :=
  bmod_of_fits fits

theorem divEuclid_zero (a : Int) : divEuclid a 0 = none :=
  if_pos rfl

/-- The two divisions agree where the divisor is positive or divides. -/
theorem ediv_eq_fdiv_iff {a b : Int} :
    a / b = a.fdiv b ↔ 0 ≤ b ∨ b ∣ a := by
  rw [Int.fdiv_eq_ediv]
  split
  · rename_i agree
    simpa using agree
  · rename_i differ
    exact iff_of_false (by omega) differ

end I64

namespace I32

open I64 (Build)

/-- The range of the 32-bit integers. -/
def Fits (n : Int) : Prop :=
  -2 ^ 31 ≤ n ∧ n < 2 ^ 31

instance (n : Int) : Decidable (Fits n) :=
  inferInstanceAs (Decidable (_ ∧ _))

/-- A result as the build leaves it; nothing where the program stops. -/
def settle (build : Build) (n : Int) : Option Int :=
  if Fits n then some n
  else
    match build with
    | .debug => none
    | .release => some (n.bmod (2 ^ 32))

def add (build : Build) (a b : Int) : Option Int :=
  settle build (a + b)

def sub (build : Build) (a b : Int) : Option Int :=
  settle build (a - b)

def mul (build : Build) (a b : Int) : Option Int :=
  settle build (a * b)

def neg (build : Build) (a : Int) : Option Int :=
  settle build (-a)

def abs (build : Build) (a : Int) : Option Int :=
  settle build a.natAbs

theorem settle_of_fits {build : Build} {n : Int} (fits : Fits n) :
    settle build n = some n :=
  if_pos fits

/-- Go on with a result that fits. -/
theorem settle_bind {α : Type*} {build : Build} {n : Int} (fits : Fits n)
    (rest : Int → Option α) : (settle build n).bind rest = rest n := by
  rw [settle_of_fits fits]
  rfl

/-- A release build always goes on, with the result taken modulo `2 ^ 32`. -/
theorem settle_release (n : Int) :
    settle .release n = some (n.bmod (2 ^ 32)) := by
  unfold settle
  split
  · rename_i fits
    obtain ⟨low, high⟩ := fits
    rw [Int.bmod_eq_of_le] <;> omega
  · rfl

/-- A debug build goes on only with a result that fits. -/
theorem settle_debug {n m : Int} :
    settle .debug n = some m ↔ Fits n ∧ n = m := by
  unfold settle
  split_ifs with fits
  · simp [fits]
  · simp [fits]

theorem fits_toInt (n : Int32) : Fits n.toInt :=
  ⟨n.le_toInt, n.toInt_lt⟩

/-- An integer fits whose magnitude does. -/
theorem Fits.of_natAbs {n : Int} (fits : Fits n.natAbs) : Fits n := by
  obtain ⟨-, high⟩ := fits
  constructor <;> omega

theorem Fits.neg_natAbs {n : Int} (fits : Fits n.natAbs) :
    Fits (-(n.natAbs : Int)) := by
  obtain ⟨-, high⟩ := fits
  constructor <;> omega

theorem Fits.natAbs_sub {n m : Int} (fits : Fits n.natAbs)
    (other : Fits m.natAbs) : Fits ((n.natAbs : Int) + -(m.natAbs : Int)) := by
  obtain ⟨-, high⟩ := fits
  obtain ⟨-, low⟩ := other
  constructor <;> omega

/-- What is between two integers that fit, fits. -/
theorem Fits.between {low high n : Int} (lowFits : Fits low) (highFits : Fits high)
    (above : low ≤ n) (below : n ≤ high) : Fits n :=
  ⟨lowFits.1.trans above, below.trans_lt highFits.2⟩

end I32
