import Mathlib.Data.List.Induction
import Mathlib.Order.Monotone.Basic

/-!
# Layers of writes that may stop short

A picture is written from its first cell on, again and again, and each write may
stop anywhere.  What is seen then is a stack of pictures: the newest one covers
the front of those below it.
-/

namespace LayeredWrites

variable {Value : Type}

/-- A write of `content` over `below` as far as `reach`. -/
def cover (reach : Nat) (content below : Nat → Value) : Nat → Value :=
  fun cell => if cell < reach then content cell else below cell

/-- The writes, each with its reach, over what was there at the start. -/
def picture (start : Nat → Value) (writes : List (Nat × (Nat → Value))) :
    Nat → Value :=
  writes.foldl (fun below write => cover write.1 write.2 below) start

theorem picture_concat (start : Nat → Value)
    (writes : List (Nat × (Nat → Value))) (write : Nat × (Nat → Value)) :
    picture start (writes ++ [write]) =
      cover write.1 write.2 (picture start writes) := by
  simp [picture]

/-- How many writes there were up to the last one that got as far as the cell, or
zero; the writes are given newest first. -/
def depth (cell : Nat) : List (Nat × (Nat → Value)) → Nat
  | [] => 0
  | write :: earlier =>
      if cell < write.1 then earlier.length + 1 else depth cell earlier

/-- The layer that a cell shows. -/
def layer (writes : List (Nat × (Nat → Value))) (cell : Nat) : Nat :=
  depth cell writes.reverse

theorem layer_concat (writes : List (Nat × (Nat → Value)))
    (write : Nat × (Nat → Value)) (cell : Nat) :
    layer (writes ++ [write]) cell =
      if cell < write.1 then writes.length + 1 else layer writes cell := by
  simp [layer, depth]

theorem layer_le (writes : List (Nat × (Nat → Value))) (cell : Nat) :
    layer writes cell ≤ writes.length := by
  induction writes using List.reverseRecOn with
  | nil => exact Nat.le_refl 0
  | append_singleton writes write induction =>
      rw [layer_concat, List.length_append, List.length_singleton]
      split_ifs
      · exact Nat.le_refl _
      · omega

/-- The newest layers are in front. -/
theorem layer_antitone (writes : List (Nat × (Nat → Value))) :
    Antitone (layer writes) := by
  induction writes using List.reverseRecOn with
  | nil => exact fun _ _ _ => Nat.le_refl 0
  | append_singleton writes write induction =>
      intro front back before
      rw [layer_concat, layer_concat]
      have older := layer_le writes back
      split_ifs with reachedBack reachedFront reachedFront
      · exact Nat.le_refl _
      · exact absurd (Nat.lt_of_le_of_lt before reachedBack) reachedFront
      · exact Nat.le_succ_of_le older
      · exact induction before

/-- Each cell shows its layer. -/
theorem picture_eq (start : Nat → Value) (writes : List (Nat × (Nat → Value)))
    (cell : Nat) :
    some (picture start writes cell) =
      ((start :: writes.map Prod.snd)[layer writes cell]?).map
        fun content => content cell := by
  induction writes using List.reverseRecOn with
  | nil => rfl
  | append_singleton writes write induction =>
      rw [picture_concat, layer_concat, cover, List.map_append, List.map_singleton,
        ← List.cons_append]
      have length : (start :: writes.map Prod.snd).length = writes.length + 1 := by
        simp
      split_ifs with reached
      · rw [List.getElem?_append_right (by omega), length, Nat.sub_self]
        rfl
      · have below := layer_le writes cell
        rw [List.getElem?_append_left (by omega)]
        exact induction

/-- A write that got as far as a cell is in the cell's layer or below it. -/
theorem le_layer {writes : List (Nat × (Nat → Value))} {number cell : Nat}
    (within : number < writes.length) (reached : cell < writes[number].1) :
    number + 1 ≤ layer writes cell := by
  induction writes using List.reverseRecOn with
  | nil => simp at within
  | append_singleton writes write induction =>
      rw [layer_concat]
      split_ifs with covered
      · rw [List.length_append, List.length_singleton] at within
        omega
      · by_cases earlier : number < writes.length
        · exact induction earlier
            (by simpa [List.getElem_append_left earlier] using reached)
        · have last : number = writes.length := by
            rw [List.length_append, List.length_singleton] at within
            omega
          subst last
          exact absurd (by simpa using reached) covered

end LayeredWrites
