import Mathlib.Data.List.Basic
import Mathlib.Algebra.Group.Nat.Even

/-!
# A lamp that blinks when it is visited

A lamp is switched at the first visit at which it is due, and is due again half a
period later.  Where visits are never far apart, neither half of the blink is
shorter than it should be, and none is longer by more than the time between two
visits.
-/

namespace SampledBlink

/-- How the lamp is, and when it is due. -/
structure Lamp where
  lit : Bool
  due : Nat

def Lamp.visit (half : Nat) (lamp : Lamp) (now : Nat) : Lamp :=
  if lamp.due ≤ now then { lit := !lamp.lit, due := now + half } else lamp

/-- The visits at which the lamp is switched. -/
def switches (half : Nat) : Lamp → List Nat → List Nat
  | _, [] => []
  | lamp, now :: later =>
      if lamp.due ≤ now then now :: switches half (lamp.visit half now) later
      else switches half lamp later

/-- Visits in their order from `last` on, none later than `gap` after the one
before. -/
def Visits (gap last : Nat) (times : List Nat) : Prop :=
  List.IsChain (fun earlier later => earlier ≤ later ∧ later ≤ earlier + gap)
    (last :: times)

/-- One half of the blink. -/
def Spaced (half gap earlier later : Nat) : Prop :=
  earlier + half ≤ later ∧ later < earlier + half + gap

variable {half gap since last now : Nat} {times : List Nat} {lamp : Lamp}

theorem visit_of_due (due : lamp.due ≤ now) :
    lamp.visit half now = { lit := !lamp.lit, due := now + half } :=
  if_pos due

theorem visit_of_early (early : now < lamp.due) : lamp.visit half now = lamp :=
  if_neg (Nat.not_le.mpr early)

theorem switches_of_due (due : lamp.due ≤ now) :
    switches half lamp (now :: times) =
      now :: switches half (lamp.visit half now) times :=
  if_pos due

theorem switches_of_early (early : now < lamp.due) :
    switches half lamp (now :: times) = switches half lamp times :=
  if_neg (Nat.not_le.mpr early)

theorem Visits.first (visits : Visits gap last (now :: times)) :
    last ≤ now ∧ now ≤ last + gap ∧ Visits gap now times := by
  obtain ⟨near, rest⟩ := List.isChain_cons_cons.mp visits
  exact ⟨near.1, near.2, rest⟩

/-- Every half takes its time, and not much more. -/
theorem switches_spaced (waits : 0 < half) (due : lamp.due = since + half)
    (early : last < lamp.due) (visits : Visits gap last times) :
    List.IsChain (Spaced half gap) (since :: switches half lamp times) := by
  induction times generalizing lamp since last with
  | nil => exact List.IsChain.singleton since
  | cons now times induction =>
      obtain ⟨after, near, rest⟩ := visits.first
      by_cases dueNow : lamp.due ≤ now
      · have spaced : Spaced half gap since now := by
          unfold Spaced
          omega
        have renewed : (lamp.visit half now).due = now + half := by
          rw [visit_of_due dueNow]
        rw [switches_of_due dueNow]
        exact List.isChain_cons_cons.mpr
          ⟨spaced, induction renewed (by omega) rest⟩
      · rw [switches_of_early (by omega)]
        exact induction due (by omega) rest

/-- The lamp is as it was after an even number of switches. -/
theorem lit_iff (lamp : Lamp) (times : List Nat) :
    (times.foldl (Lamp.visit half) lamp).lit = lamp.lit ↔
      Even (switches half lamp times).length := by
  induction times generalizing lamp with
  | nil => simp [switches]
  | cons now times induction =>
      rw [List.foldl_cons]
      by_cases dueNow : lamp.due ≤ now
      · have rest := induction (lamp.visit half now)
        have switched : (lamp.visit half now).lit = !lamp.lit := by
          rw [visit_of_due dueNow]
        rw [switches_of_due dueNow, List.length_cons, Nat.even_add_one, ← rest,
          switched]
        grind
      · rw [switches_of_early (by omega), visit_of_early (by omega)]
        exact induction lamp

/-- At the last visit the lamp was not overdue: it was switched less than half a
period before. -/
theorem last_switch (waits : 0 < half) (due : lamp.due = since + half)
    (early : last < lamp.due) (visits : Visits gap last times) :
    (times.getLastD last) < (switches half lamp times).getLastD since + half := by
  induction times generalizing lamp since last with
  | nil => simpa [switches, ← due] using early
  | cons now times induction =>
      obtain ⟨after, near, rest⟩ := visits.first
      rw [List.getLastD_cons]
      by_cases dueNow : lamp.due ≤ now
      · have renewed : (lamp.visit half now).due = now + half := by
          rw [visit_of_due dueNow]
        rw [switches_of_due dueNow, List.getLastD_cons]
        exact induction renewed (by omega) rest
      · rw [switches_of_early (by omega)]
        exact induction due (by omega) rest

end SampledBlink
