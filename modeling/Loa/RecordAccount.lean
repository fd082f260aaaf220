import Mathlib.Data.List.Basic

/-!
# The account of a queue

Records go into a queue, and a worker settles them from its front: a settled
record is kept or lost.  An account remembers both, so that what was sent and
what was kept can be compared at any time.  A queue with a limit may lose its
excess, which is what stands in front of the newest `limit` records.
-/

/-- The settled records, oldest first, each with whether it was kept; and the
pending ones. -/
structure RecordAccount (R : Type) where
  settled : List (R × Bool) := []
  pending : List R := []

namespace RecordAccount

variable {R : Type} (account : RecordAccount R)

def sent : List R :=
  account.settled.map Prod.fst ++ account.pending

def kept : List R :=
  (account.settled.filter Prod.snd).map Prod.fst

/-- The record sent at this position was lost. -/
def Lost (position : Nat) : Prop :=
  ∃ record, account.settled[position]? = some (record, false)

/-- The record sent at this position is pending, and so are more than `limit`
from it on. -/
def Excess (limit position : Nat) : Prop :=
  account.settled.length ≤ position ∧
    position + limit < account.settled.length + account.pending.length

def queue (records : List R) : RecordAccount R :=
  { account with pending := account.pending ++ records }

def settle (record : R) (rest : List R) (kept : Bool) : RecordAccount R where
  settled := account.settled ++ [(record, kept)]
  pending := rest

@[simp]
theorem sent_queue (records : List R) :
    (account.queue records).sent = account.sent ++ records := by
  simp [sent, queue]

@[simp]
theorem kept_queue (records : List R) :
    (account.queue records).kept = account.kept :=
  rfl

section Settle

variable {record : R} {rest : List R}

theorem sent_settle (front : account.pending = record :: rest) (kept : Bool) :
    (account.settle record rest kept).sent = account.sent := by
  simp [sent, settle, front]

theorem kept_settle (kept : Bool) :
    (account.settle record rest kept).kept =
      account.kept ++ if kept then [record] else [] := by
  cases kept <;> simp [RecordAccount.kept, settle]

theorem lost_settle {kept : Bool} {position : Nat}
    (lost : (account.settle record rest kept).Lost position) :
    account.Lost position ∨
      kept = false ∧ position = account.settled.length := by
  obtain ⟨found, there⟩ := lost
  simp only [settle] at there
  rcases Nat.lt_or_ge position account.settled.length with before | after
  · rw [List.getElem?_append_left before] at there
    exact Or.inl ⟨found, there⟩
  · rw [List.getElem?_append_right after, List.getElem?_singleton] at there
    split at there
    · rename_i first
      simp only [Option.some.injEq, Prod.mk.injEq] at there
      exact Or.inr ⟨there.2, by omega⟩
    · cases there

/-- The record at the front of a queue that is over its limit is excess. -/
theorem excess_front {limit : Nat} (beyond : limit < account.pending.length) :
    account.Excess limit account.settled.length :=
  ⟨Nat.le_refl _, by omega⟩

end Settle

/-- With nothing pending, everything sent is settled. -/
theorem sent_of_drained (drained : account.pending = []) :
    account.sent = account.settled.map Prod.fst := by
  rw [sent, drained, List.append_nil]

end RecordAccount
