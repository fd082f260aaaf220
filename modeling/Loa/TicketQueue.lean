import Mathlib.Data.List.Basic

/-!
# Tickets

A server takes requests in the order in which they came, and begins work of its
own only where no request waits.  So the number of the work that will serve a
request is known when the request comes in.
-/

/-- How many pieces of work have begun, and the requests that wait, each with the
number of the work that is going to serve it. -/
structure TicketQueue (α : Type) where
  begun : Nat
  waiting : List (Nat × α)
  numbered : waiting.map Prod.fst = List.range' begun waiting.length

namespace TicketQueue

variable {α : Type}

def empty (begun : Nat) : TicketQueue α where
  begun := begun
  waiting := []
  numbered := rfl

/-- The ticket of a request that comes in now. -/
def ticket (line : TicketQueue α) : Nat :=
  line.begun + line.waiting.length

def request (line : TicketQueue α) (item : α) : TicketQueue α where
  begun := line.begun
  waiting := line.waiting ++ [(line.ticket, item)]
  numbered := by
    rw [List.map_append, line.numbered, List.length_append, List.length_singleton,
      List.range'_concat]
    simp [ticket]

/-- Work for the oldest request, with its ticket. -/
def serve (line : TicketQueue α) : Option ((Nat × α) × TicketQueue α) :=
  match same : line.waiting with
  | [] => none
  | first :: rest =>
      some (first,
        { begun := line.begun + 1
          waiting := rest
          numbered := by
            have numbered := line.numbered
            rw [same, List.length_cons, List.range'_succ] at numbered
            exact (List.cons.inj numbered).2 })

/-- Work of the server's own, where no request waits. -/
def work (line : TicketQueue α) : Option (TicketQueue α) :=
  if line.waiting = [] then some (empty (line.begun + 1)) else none

/-- A request is served by the work that its ticket names. -/
theorem serve_eq_some {line rest : TicketQueue α} {first : Nat × α}
    (served : line.serve = some (first, rest)) :
    first.1 = line.begun ∧ line.waiting = first :: rest.waiting ∧
      rest.begun = line.begun + 1 := by
  unfold serve at served
  split at served
  · cases served
  · rename_i head tail same
    have numbered := line.numbered
    rw [same, List.length_cons, List.range'_succ] at numbered
    cases served
    exact ⟨(List.cons.inj numbered).1, same, rfl⟩

theorem work_eq_some {line rest : TicketQueue α} (worked : line.work = some rest) :
    line.waiting = [] ∧ rest = empty (line.begun + 1) := by
  unfold work at worked
  split_ifs at worked with none
  cases worked
  exact ⟨none, rfl⟩

end TicketQueue
