import Mathlib.Algebra.BigOperators.Group.List.Basic
import Mathlib.Algebra.Order.Floor.Ring
import Mathlib.Tactic.Linarith

/-!
# Error diffusion

A sequence of numbers is sent as whole numbers: each time what is owed is
rounded down, and the fraction is carried to the next one.  Over any run nothing
is lost but the fraction that is carried at the end.
-/

namespace ErrorDiffusion

variable {K : Type} [Field K] [LinearOrder K] [FloorRing K]

/-- What is sent for a value. -/
def emit (carry value : K) : Int :=
  ⌊carry + value⌋

/-- What is carried on. -/
def keep (carry value : K) : K :=
  Int.fract (carry + value)

/-- The whole numbers that are sent for a sequence of values. -/
def emitted (carry : K) : List K → List Int
  | [] => []
  | value :: rest => emit carry value :: emitted (keep carry value) rest

/-- What is carried at the end. -/
def carried (carry : K) : List K → K
  | [] => carry
  | value :: rest => carried (keep carry value) rest

theorem emit_add_keep (carry value : K) :
    (emit carry value : K) + keep carry value = carry + value :=
  Int.floor_add_fract _

/-- What was sent and what is carried is what was asked for. -/
theorem sum_emitted (carry : K) (values : List K) :
    ((emitted carry values).map Int.cast).sum + carried carry values =
      carry + values.sum := by
  induction values generalizing carry with
  | nil => simp [emitted, carried]
  | cons value rest induction =>
      calc
        ((emitted carry (value :: rest)).map Int.cast).sum +
              carried carry (value :: rest) =
            (emit carry value : K) +
              (((emitted (keep carry value) rest).map Int.cast).sum +
                carried (keep carry value) rest) := by
          simp only [emitted, carried, List.map_cons, List.sum_cons, add_assoc]
        _ = (emit carry value : K) + (keep carry value + rest.sum) := by
          rw [induction]
        _ = carry + (value :: rest).sum := by
          rw [← add_assoc, emit_add_keep, List.sum_cons, add_assoc]

variable [IsStrictOrderedRing K]

theorem keep_nonneg (carry value : K) : 0 ≤ keep carry value :=
  Int.fract_nonneg _

theorem keep_lt_one (carry value : K) : keep carry value < 1 :=
  Int.fract_lt_one _

/-- A carry that is a fraction stays one. -/
theorem carried_fraction {carry : K} (fraction : 0 ≤ carry ∧ carry < 1)
    (values : List K) : 0 ≤ carried carry values ∧ carried carry values < 1 := by
  induction values generalizing carry with
  | nil => exact fraction
  | cons value rest induction =>
      exact induction ⟨keep_nonneg carry value, keep_lt_one carry value⟩

/-- A value up to a whole number is sent as a number up to it. -/
theorem emit_le {carry value : K} {most : Int} (fraction : carry < 1)
    (bounded : value ≤ most) : emit carry value ≤ most := by
  have below : carry + value < (most + 1 : Int) := by
    push_cast
    linarith
  exact Int.lt_add_one_iff.mp (Int.floor_lt.mpr below)

theorem emit_nonneg {carry value : K} (fraction : 0 ≤ carry)
    (positive : 0 ≤ value) : 0 ≤ emit carry value :=
  Int.floor_nonneg.mpr (add_nonneg fraction positive)

end ErrorDiffusion
