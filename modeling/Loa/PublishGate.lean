import Mathlib.Data.List.Induction
import Mathlib.Data.List.Chain
import Mathlib.Algebra.Order.Group.Abs
import Mathlib.Data.UInt

/-!
# Publishing behind a gate

A source is fed one input after another, and publishes some messages on each.
A receiver that takes what is published knows of the inputs only what passed the
gate.  Three things are general here: the run and its induction, what a
threshold against the last published number leaves the receiver with, and what
a counter of fixed width shows of a growing total.
-/

namespace PublishGate

/-- A source, and what it has published. -/
structure Outlet (State Message : Type*) where
  state : State
  published : List Message

section Run

variable {State Input Message : Type*}

def Outlet.feed (step : State → Input → List Message × State)
    (outlet : Outlet State Message) (input : Input) : Outlet State Message where
  state := (step outlet.state input).2
  published := outlet.published ++ (step outlet.state input).1

def run (step : State → Input → List Message × State) (start : State)
    (inputs : List Input) : Outlet State Message :=
  inputs.foldl (Outlet.feed step) ⟨start, []⟩

theorem run_concat (step : State → Input → List Message × State)
    (start : State) (before : List Input) (input : Input) :
    run step start (before ++ [input]) =
      (run step start before).feed step input :=
  List.foldl_concat ..

/-- What holds of the start and is kept by each input holds after every run. -/
theorem run_induction {step : State → Input → List Message × State}
    {start : State} {holds : List Input → Outlet State Message → Prop}
    (starts : holds [] ⟨start, []⟩)
    (steps : ∀ before input outlet, holds before outlet →
      holds (before ++ [input]) (outlet.feed step input))
    (inputs : List Input) : holds inputs (run step start inputs) := by
  induction inputs using List.reverseRecOn with
  | nil => exact starts
  | append_singleton before input induction =>
      rw [run_concat]
      exact steps before input _ induction

end Run

section Threshold

variable {K : Type*} [AddCommGroup K] [LinearOrder K]

/-- The held number, if there is one to be held, is closer to the measured one
than the threshold. -/
def Near (threshold : K) (measured held : Option K) : Prop :=
  ∀ number ∈ measured, ∃ last ∈ held, |number - last| < threshold

/-- The receiver holds the number last sent, and the number last measured did
not move away from it. -/
structure Followed (threshold : K) (measured sent held : Option K) : Prop where
  heard : ∀ last ∈ sent, held = some last
  close : Near threshold measured sent

theorem followed_nothing (threshold : K) (held : Option K) :
    Followed threshold none none held where
  heard := fun _ impossible => nomatch impossible
  close := fun _ impossible => nomatch impossible

theorem Followed.near {threshold : K} {measured sent held : Option K}
    (followed : Followed threshold measured sent held) :
    Near threshold measured held := by
  intro number measuredNumber
  obtain ⟨last, sentLast, close⟩ := followed.close number measuredNumber
  exact ⟨last, followed.heard last sentLast, close⟩

/-- A published number is held as it is. -/
theorem followed_publish [IsOrderedAddMonoid K] {threshold : K}
    (positive : 0 < threshold) (number : K) :
    Followed threshold (some number) (some number) (some number) where
  heard := fun _ same => same
  close := by
    intro _ same
    refine ⟨_, same, ?_⟩
    rw [sub_self, abs_zero]
    exact positive

/-- A number that did not move may stay unpublished. -/
theorem Followed.keep {threshold number : K} {measured sent held : Option K}
    (followed : Followed threshold measured sent held)
    (close : ∃ last ∈ sent, |number - last| < threshold) :
    Followed threshold (some number) sent held where
  heard := followed.heard
  close := by
    intro _ same
    obtain rfl : number = _ := Option.some.inj same
    exact close

end Threshold

/-- The counts are the totals at some moments, in order and up to now, in 32
bits. -/
def Marked (counts : List UInt32) (total : ℕ) : Prop :=
  ∃ totals : List ℕ, counts = totals.map UInt32.ofNat ∧
    (totals ++ [total]).Pairwise (· ≤ ·)

theorem marked_nil (total : ℕ) : Marked [] total :=
  ⟨[], rfl, List.pairwise_singleton ..⟩

theorem Marked.grow {counts : List UInt32} {total later : ℕ}
    (marked : Marked counts total) (grown : total ≤ later) :
    Marked counts later := by
  obtain ⟨totals, rfl, ordered⟩ := marked
  refine ⟨totals, rfl, ?_⟩
  rw [List.pairwise_append] at ordered ⊢
  refine ⟨ordered.1, List.pairwise_singleton .., ?_⟩
  intro earlier member latest single
  rw [List.mem_singleton.mp single]
  exact (ordered.2.2 earlier member total (List.mem_singleton_self _)).trans
    grown

/-- Messages that tell the total of their moment, however many. -/
theorem Marked.publish {counts news : List UInt32} {total : ℕ}
    (marked : Marked counts total)
    (counted : ∀ count ∈ news, count = UInt32.ofNat total) :
    Marked (counts ++ news) total := by
  obtain ⟨totals, rfl, ordered⟩ := marked
  obtain ⟨totalsOrdered, -, bounded⟩ := List.pairwise_append.mp ordered
  refine ⟨totals ++ List.replicate news.length total, ?_, ?_⟩
  · rw [List.map_append, List.map_replicate,
      ← List.eq_replicate_of_mem counted]
  · rw [List.append_assoc, ← List.replicate_succ', List.pairwise_append]
    refine ⟨totalsOrdered, List.pairwise_replicate.mpr (.inr le_rfl), ?_⟩
    intro earlier member latest constant
    rw [List.eq_of_mem_replicate constant]
    exact bounded earlier member total (List.mem_singleton_self _)

/-- A total that fits the counter has never gone back. -/
theorem Marked.nondecreasing {counts : List UInt32} {total : ℕ}
    (marked : Marked counts total) (fits : total < 2 ^ 32) :
    counts.Pairwise (· ≤ ·) := by
  obtain ⟨totals, rfl, ordered⟩ := marked
  obtain ⟨totalsOrdered, -, bounded⟩ := List.pairwise_append.mp ordered
  rw [List.pairwise_map]
  refine totalsOrdered.imp_of_mem ?_
  intro earlier later _ member rise
  have small := bounded later member total (List.mem_singleton_self _)
  rw [UInt32.le_iff_toNat_le, UInt32.toNat_ofNat', UInt32.toNat_ofNat',
    Nat.mod_eq_of_lt (by omega), Nat.mod_eq_of_lt (by omega)]
  exact rise

end PublishGate
