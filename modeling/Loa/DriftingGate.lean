import Mathlib.Algebra.Order.Group.Abs

/-!
# A gate that is passed by on the side

A number is published when it moved from the one last published.  A receiver that is
also told the number of the moment, whenever it asks, may be told one that is off the
last published by nearly the threshold; and from there the number may go nearly the
threshold to the other side before it is published again.  So the receiver is right
to within twice the threshold, and to within once where it was told nothing on the
side.
-/

namespace DriftingGate

variable {K : Type*} [AddCommGroup K] [LinearOrder K]

/-- The number last measured did not move from the one last published. -/
structure Gated (threshold : K) (measured sent : Option K) : Prop where
  both : measured.isSome = sent.isSome
  close : ∀ number ∈ measured, ∀ last ∈ sent, |number - last| < threshold

/-- The receiver holds a number close to the one last published. -/
def Loose (threshold : K) (sent held : Option K) : Prop :=
  ∀ last ∈ sent, ∃ number ∈ held, |number - last| < threshold

theorem gated_none (threshold : K) : Gated threshold none none where
  both := rfl
  close := by
    intro number impossible
    cases impossible

theorem gated_publish [IsOrderedAddMonoid K] {threshold : K}
    (positive : 0 < threshold) (number : K) :
    Gated threshold (some number) (some number) where
  both := rfl
  close := by
    intro first here second there
    cases here
    cases there
    rw [sub_self, abs_zero]
    exact positive

theorem gated_keep {threshold number : K} {sent : Option K}
    (close : ∃ last ∈ sent, |number - last| < threshold) :
    Gated threshold (some number) sent := by
  obtain ⟨last, rfl, close⟩ := close
  refine ⟨rfl, fun first here second there => ?_⟩
  cases here
  cases there
  exact close

/-- A published number is held as it is. -/
theorem loose_publish [IsOrderedAddMonoid K] {threshold : K}
    (positive : 0 < threshold) (number : K) :
    Loose threshold (some number) (some number) := by
  intro last same
  refine ⟨last, same, ?_⟩
  rw [sub_self, abs_zero]
  exact positive

/-- What was measured is told on the side. -/
theorem loose_told {threshold : K} {measured sent : Option K}
    (gated : Gated threshold measured sent) (held : Option K) :
    Loose threshold sent (measured.or held) := by
  intro last sentLast
  have known : measured.isSome = true := by
    rw [gated.both, sentLast]
    rfl
  obtain ⟨number, rfl⟩ := Option.isSome_iff_exists.mp known
  exact ⟨number, rfl, gated.close number rfl last sentLast⟩

/-- The receiver is right to within twice the threshold. -/
theorem Loose.near [IsOrderedAddMonoid K] {threshold : K} {measured sent held : Option K}
    (loose : Loose threshold sent held) (gated : Gated threshold measured sent) :
    ∀ number ∈ measured, ∃ told ∈ held, |number - told| < threshold + threshold := by
  intro number measuredNumber
  have published : sent.isSome = true := by
    rw [← gated.both, measuredNumber]
    rfl
  obtain ⟨last, sentLast⟩ := Option.isSome_iff_exists.mp published
  obtain ⟨told, heldTold, near⟩ := loose last sentLast
  have close := gated.close number measuredNumber last sentLast
  refine ⟨told, heldTold, ?_⟩
  calc |number - told|
      ≤ |number - last| + |last - told| := abs_sub_le number last told
    _ < threshold + threshold := by
        rw [abs_sub_comm last told]
        exact add_lt_add close near

end DriftingGate
