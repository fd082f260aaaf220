import Mathlib.Data.List.Infix
import Mathlib.Data.List.Nodup

/-!
# Channels between two threads

An unbounded channel hands items over in the order in which they were sent.  A
channel here also remembers everything that was sent through it, so what is
still queued is an end of that.
-/

/-- A channel: everything sent, and what nobody has received yet. -/
structure FifoChannel (α : Type*) where
  sent : List α
  queue : List α
  kept : queue <:+ sent

namespace FifoChannel

variable {α : Type*}

def empty : FifoChannel α where
  sent := []
  queue := []
  kept := List.suffix_rfl

def send (channel : FifoChannel α) (item : α) : FifoChannel α where
  sent := channel.sent ++ [item]
  queue := channel.queue ++ [item]
  kept := by
    obtain ⟨received, whole⟩ := channel.kept
    exact ⟨received, by rw [← List.append_assoc, whole]⟩

/-- The oldest item that is queued, and the channel without it. -/
def recv (channel : FifoChannel α) : Option (α × FifoChannel α) :=
  match same : channel.queue with
  | [] => none
  | item :: rest =>
      some (item,
        { channel with
          queue := rest
          kept := (List.suffix_cons item rest).trans (same ▸ channel.kept) })

@[simp]
theorem send_sent (channel : FifoChannel α) (item : α) :
    (channel.send item).sent = channel.sent ++ [item] :=
  rfl

@[simp]
theorem send_queue (channel : FifoChannel α) (item : α) :
    (channel.send item).queue = channel.queue ++ [item] :=
  rfl

theorem recv_eq_none_iff {channel : FifoChannel α} :
    channel.recv = none ↔ channel.queue = [] := by
  unfold recv
  split <;> simp_all

/-- What a receive does: it takes the head of the queue and nothing else. -/
theorem recv_eq_some {channel after : FifoChannel α} {item : α}
    (received : channel.recv = some (item, after)) :
    channel.queue = item :: after.queue ∧ after.sent = channel.sent := by
  unfold recv at received
  split at received
  · cases received
  · rename_i head rest same
    obtain ⟨rfl, rfl⟩ := Prod.mk.inj (Option.some.inj received)
    exact ⟨same, rfl⟩

/-- Where every item is sent once, a receive takes the newest item exactly where
it empties the queue. -/
theorem recv_newest_iff {channel after : FifoChannel α} {item : α}
    (once : channel.sent.Nodup)
    (received : channel.recv = some (item, after)) :
    channel.sent.getLast? = some item ↔ after.queue = [] := by
  obtain ⟨queued, -⟩ := recv_eq_some received
  obtain ⟨old, whole⟩ := channel.kept
  rw [queued] at whole
  rw [← whole] at once ⊢
  obtain empty | ⟨front, last, rest⟩ := after.queue.eq_nil_or_concat'
  · simp [empty]
  · have apart : item ≠ last := by
      rintro rfl
      rw [rest, List.nodup_append] at once
      simp at once
    rw [rest, ← List.cons_append, ← List.append_assoc,
      List.getLast?_concat]
    simp [apart.symm]

end FifoChannel
