import Mathlib.Logic.Function.Iterate

/-!
# A memory behind a pointer

A device takes a stream of values: each is written where a pointer stands, and
the pointer moves on by itself.
-/

/-- The cells, and where the next value goes. -/
structure PointerMemory (Address Value : Type) where
  cells : Address → Value
  pointer : Address

namespace PointerMemory

variable {Address Value : Type} [DecidableEq Address] (next : Address → Address)

def write (memory : PointerMemory Address Value) (value : Value) :
    PointerMemory Address Value where
  cells := Function.update memory.cells memory.pointer value
  pointer := next memory.pointer

def stream (memory : PointerMemory Address Value) (values : List Value) :
    PointerMemory Address Value :=
  values.foldl (write next) memory

variable {next} {memory : PointerMemory Address Value} {values : List Value}

@[simp]
theorem stream_nil : stream next memory [] = memory :=
  rfl

@[simp]
theorem stream_cons (value : Value) :
    stream next memory (value :: values) =
      stream next (write next memory value) values :=
  rfl

/-- A cell that the pointer does not pass keeps its value. -/
theorem stream_apart {address : Address}
    (apart : ∀ i < values.length, next^[i] memory.pointer ≠ address) :
    (stream next memory values).cells address = memory.cells address := by
  induction values generalizing memory with
  | nil => rfl
  | cons value values induction =>
      rw [stream_cons, induction]
      · exact Function.update_of_ne (apart 0 (by simp)).symm _ _
      · intro i below
        exact apart (i + 1) (by simpa using below)

/-- A cell that the pointer passes, and does not come back to, has the value
that came with the pointer. -/
theorem stream_passed {i : Nat} (below : i < values.length)
    (onward : ∀ j < values.length, i < j →
      next^[j] memory.pointer ≠ next^[i] memory.pointer) :
    (stream next memory values).cells (next^[i] memory.pointer) = values[i] := by
  induction values generalizing memory i with
  | nil => simp at below
  | cons value values induction =>
      cases i with
      | zero =>
          rw [stream_cons, stream_apart]
          · exact Function.update_self _ _ _
          · intro j belowJ
            exact onward (j + 1) (by simpa using belowJ) (Nat.succ_pos j)
      | succ i =>
          have later := @induction (write next memory value) i
            (by simpa using below) fun j belowJ behind =>
              onward (j + 1) (by simpa using belowJ) (by omega)
          exact later

end PointerMemory
