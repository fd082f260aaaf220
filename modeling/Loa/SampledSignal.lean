import Mathlib.Algebra.Order.Group.Int
import Mathlib.Tactic.Common

/-!
# A line that is looked at

A line has two levels and switches between them.  Somebody looks at it again and
again, never longer apart than a gap, and notes each change of the level with a
stamp.  Where the switches are further apart than the looks, every one of them
is noted, in its order and not much later.
-/

namespace SampledSignal

/-- The level of a line that switches at these times, in their order. -/
def level (initial : Bool) : List Int → Int → Bool
  | [], _ => initial
  | switch :: later, time =>
      if time < switch then initial else level (!initial) later time

/-- A look at the line, and the stamp it gets behind it. -/
structure Look where
  read : Int
  stamp : Int

/-- The looks follow each other within a gap, and a stamp its look within a
delay. -/
def Paced (gap delay : Int) : Int → List Look → Prop
  | _, [] => True
  | last, look :: later =>
      (last ≤ look.read ∧ look.read ≤ last + gap) ∧
        (look.read ≤ look.stamp ∧ look.stamp ≤ look.read + delay) ∧
        Paced gap delay look.read later

/-- When the last look was. -/
def lastRead : Int → List Look → Int
  | last, [] => last
  | _, look :: later => lastRead look.read later

/-- The switches come after a time, and more than a gap behind each other. -/
def Apart (gap : Int) : Int → List Int → Prop
  | _, [] => True
  | last, switch :: later => last < switch ∧ Apart gap (switch + gap) later

/-- The changes of the level, with their stamps. -/
def turns : Bool → List (Bool × Int) → List (Bool × Int)
  | _, [] => []
  | previous, (now, stamp) :: later =>
      if now ≠ previous then (now, stamp) :: turns now later
      else turns previous later

/-- The changes are the switches, each stamped within a slack. -/
def Follows (slack : Int) : Bool → List (Bool × Int) → List Int → Prop
  | _, [], [] => True
  | initial, (now, stamp) :: edges, switch :: switches =>
      now = !initial ∧ (switch ≤ stamp ∧ stamp ≤ switch + slack) ∧
        Follows slack (!initial) edges switches
  | _, _, _ => False

theorem Apart.earlier {gap early late : Int} {switches : List Int}
    (apart : Apart gap late switches) (before : early ≤ late) :
    Apart gap early switches := by
  cases switches with
  | nil => trivial
  | cons switch later => exact ⟨lt_of_le_of_lt before apart.1, apart.2⟩

theorem level_behind {initial : Bool} {switch time : Int} {later : List Int}
    (behind : switch ≤ time) :
    level initial (switch :: later) time = level (!initial) later time :=
  if_neg (not_lt.mpr behind)

theorem Follows.length_eq {slack : Int} {initial : Bool}
    {edges : List (Bool × Int)} {switches : List Int}
    (follows : Follows slack initial edges switches) :
    edges.length = switches.length := by
  induction switches generalizing initial edges with
  | nil =>
      cases edges with
      | nil => rfl
      | cons edge edges => cases follows
  | cons switch switches induction =>
      cases edges with
      | nil => cases follows
      | cons edge edges =>
          rw [List.length_cons, List.length_cons, induction follows.2.2]

end SampledSignal
