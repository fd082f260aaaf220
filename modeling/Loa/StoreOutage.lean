import Loa.CortexEffects
import Loa.RecordAccount
import Loa.TransitionRun

/-!
# Records and outages of the store

Every record that the cortex queues goes through the flusher's hands once: it
is written, or it is lost when the store cannot take it at that moment.  The
file keeps the account of a run and says in which runs the store ends up with
every record.
-/

namespace Cortex

open FileDirectory Json Wire RustText TransitionRun

/-- The records that the flusher has taken and not tried to write. -/
def FlusherPhase.inHand : FlusherPhase → List Write
  | .taken batch => batch
  | .writing rest _ _ => rest
  | _ => []

/-- The records that nobody has tried to write, oldest first. -/
def Sys.pending (sys : Sys) : List Write :=
  sys.flusher.inHand ++ sys.writes

/-- The record sent at this position is pending, and so are more than the bound
from it on. -/
def InExcess (sys : Sys) (position : Nat) : Prop :=
  sys.sent.length - sys.pending.length ≤ position ∧
    position + PENDING_RECORDS_MAX < sys.sent.length

/-- When a record is about to be written, the store takes it (it gets to the
database, which accepts it), or more records than the bound are pending. -/
def Writable (sys : Sys) (action : Action) : Prop :=
  ∀ write rest snapshot failed, action = .flush →
    sys.flusher = .writing (write :: rest) snapshot failed →
    sys.store.takes (.record write) = true ∨ PENDING_RECORDS_MAX < sys.pending.length

/-- The tables of records of two servers. -/
structure SameRecords (first second : Server) : Prop where
  events : first.events = second.events
  baroSamples : first.baroSamples = second.baroSamples

def Server.recordAll (server : Server) (writes : List Write) : Server :=
  writes.foldl Server.record server

/-- Every record that was sent is in the tables once and in order, behind the
rows that were there, but for some that were in excess at some time. -/
def Whole (server : Server) (trace : List (Sys × Action)) (sys : Sys) : Prop :=
  ∃ settled : List (Write × Bool),
    settled.map Prod.fst = sys.sent ∧
      SameRecords sys.store.server
        (server.recordAll ((settled.filter Prod.snd).map Prod.fst)) ∧
      ∀ position write, settled[position]? = some (write, false) →
        ∃ entry ∈ trace, InExcess entry.1 position

theorem SameRecords.record {first second : Server}
    (same : SameRecords first second) (write : Write) :
    SameRecords (first.record write) (second.record write) := by
  obtain ⟨events, baroSamples⟩ := same
  cases write with
  | event kind detail ts =>
      constructor
      · simp [Server.record, events]
      · exact baroSamples
  | baro ts hpa =>
      constructor
      · exact events
      · simp [Server.record, baroSamples]

/-- The account of a run is that of its queue and its tables. -/
structure Accounted (server : Server) (trace : List (Sys × Action)) (sys : Sys)
    (account : RecordAccount Write) : Prop where
  pending : account.pending = sys.pending
  sent : account.sent = sys.sent
  tables : SameRecords sys.store.server (server.recordAll account.kept)
  excused : ∀ position, account.Lost position →
    ∃ entry ∈ trace, InExcess entry.1 position

section Steps

variable {server : Server} {trace : List (Sys × Action)} {sys after : Sys}
  {action : Action} {account : RecordAccount Write}

theorem Accounted.excess (accounted : Accounted server trace sys account)
    {position : Nat}
    (excess : account.Excess PENDING_RECORDS_MAX position) :
    InExcess sys position := by
  have sentLength : sys.sent.length =
      account.settled.length + account.pending.length := by
    rw [← accounted.sent, RecordAccount.sent]
    simp
  obtain ⟨pending, beyond⟩ := excess
  constructor
  · rw [← accounted.pending]
    omega
  · omega

theorem Accounted.later (accounted : Accounted server trace sys account)
    {entry : Sys × Action} {position : Nat} (lost : account.Lost position) :
    ∃ found ∈ trace ++ [entry], InExcess found.1 position := by
  obtain ⟨found, member, excess⟩ := accounted.excused position lost
  exact ⟨found, List.mem_append_left _ member, excess⟩

/-- A step that neither queues nor settles a record. -/
theorem Accounted.of_same (accounted : Accounted server trace sys account)
    (pending : after.pending = sys.pending) (sent : after.sent = sys.sent)
    (tables : SameRecords after.store.server sys.store.server) :
    Accounted server (trace ++ [(sys, action)]) after account where
  pending := accounted.pending.trans pending.symm
  sent := accounted.sent.trans sent.symm
  tables :=
    ⟨tables.events.trans accounted.tables.events,
      tables.baroSamples.trans accounted.tables.baroSamples⟩
  excused _ lost := accounted.later lost

theorem Accounted.queue (accounted : Accounted server trace sys account)
    {records : List Write} (queues : Queues sys after records) :
    Accounted server (trace ++ [(sys, action)]) after
      (account.queue records) where
  pending := by
    rw [RecordAccount.queue, accounted.pending]
    simp [Sys.pending, queues.writes, queues.flusher]
  sent := by
    rw [RecordAccount.sent_queue, accounted.sent, queues.sent]
  tables := by
    rw [RecordAccount.kept_queue]
    exact ⟨queues.events.trans accounted.tables.events,
      queues.baroSamples.trans accounted.tables.baroSamples⟩
  excused _ lost := accounted.later lost

/-- A step that settles the first pending record: it is kept, or it is lost, and
then in excess. -/
theorem Accounted.settle (accounted : Accounted server trace sys account)
    {write : Write} {rest : List Write} {kept : Bool}
    (front : sys.pending = write :: rest) (pending : after.pending = rest)
    (sent : after.sent = sys.sent)
    (tables : SameRecords after.store.server
      (if kept then sys.store.server.record write else sys.store.server))
    (beyond : kept = false → PENDING_RECORDS_MAX < sys.pending.length) :
    Accounted server (trace ++ [(sys, action)]) after
      (account.settle write rest kept) where
  pending := pending.symm
  sent := by
    rw [account.sent_settle (accounted.pending.trans front), accounted.sent,
      sent]
  tables := by
    rw [account.kept_settle]
    cases kept with
    | true =>
        have before := accounted.tables.record write
        rw [if_pos rfl, Server.recordAll, List.foldl_append]
        exact ⟨tables.events.trans before.events,
          tables.baroSamples.trans before.baroSamples⟩
    | false =>
        rw [if_neg Bool.false_ne_true, List.append_nil]
        exact ⟨tables.events.trans accounted.tables.events,
          tables.baroSamples.trans accounted.tables.baroSamples⟩
  excused position lost := by
    rcases account.lost_settle lost with earlier | ⟨gone, rfl⟩
    · exact accounted.later earlier
    · have many := beyond gone
      rw [← accounted.pending] at many
      exact ⟨(sys, action), by simp,
        accounted.excess (account.excess_front many)⟩

theorem accounted_of_flushes (accounted : Accounted server trace sys account)
    (flushes : Flushes sys after) (writable : Writable sys .flush) :
    ∃ account, Accounted server (trace ++ [(sys, .flush)]) after account := by
  have same : SameRecords sys.store.server sys.store.server := ⟨rfl, rfl⟩
  -- Only a statement for a pending record changes what is pending.
  have unmoved (pending : after.pending = sys.pending)
      (sent : after.sent = sys.sent)
      (tables : SameRecords after.store.server sys.store.server) :
      ∃ account, Accounted server (trace ++ [(sys, .flush)]) after account :=
    ⟨account, accounted.of_same pending sent tables⟩
  cases flushes with
  | took phase some =>
      apply unmoved _ rfl same
      simp [Sys.pending, FlusherPhase.inHand, phase]
  | snapped phase =>
      apply unmoved _ rfl same
      simp [Sys.pending, FlusherPhase.inHand, phase]
  | @wrote write rest snapshot failed phase takes =>
      have front : sys.pending = write :: (rest ++ sys.writes) := by
        simp [Sys.pending, FlusherPhase.inHand, phase]
      exact ⟨account.settle write (rest ++ sys.writes) true,
        accounted.settle front rfl rfl ⟨rfl, rfl⟩ (by simp)⟩
  | @lost write rest snapshot failed phase refuses =>
      have front : sys.pending = write :: (rest ++ sys.writes) := by
        simp [Sys.pending, FlusherPhase.inHand, phase]
      have beyond : PENDING_RECORDS_MAX < sys.pending.length := by
        rcases writable write rest snapshot failed rfl phase with
          takes | beyond
        · rw [takes] at refuses
          cases refuses
        · exact beyond
      exact ⟨account.settle write (rest ++ sys.writes) false,
        accounted.settle front rfl rfl ⟨rfl, rfl⟩ fun _ => beyond⟩
  | turned phase =>
      apply unmoved _ rfl same
      simp [Sys.pending, FlusherPhase.inHand, phase]
  | saved phase kept takes =>
      apply unmoved _ rfl ⟨rfl, rfl⟩
      simp [Sys.pending, FlusherPhase.inHand, phase]
  | unsaved phase kept refuses =>
      apply unmoved _ rfl same
      simp [Sys.pending, FlusherPhase.inHand, phase]
  | skipped phase foreign =>
      apply unmoved _ rfl same
      simp [Sys.pending, FlusherPhase.inHand, phase]
  | settled phase =>
      apply unmoved _ rfl same
      simp [Sys.pending, FlusherPhase.inHand, phase]

end Steps

theorem exists_accounted {env : Env} {dsn : Bool} {host : Host}
    {server : Server} {trace : List (Sys × Action)} {sys : Sys}
    (run : Run (Sys.step env) (boot env dsn host server) trace sys)
    (writable : Along Writable trace) :
    ∃ account, Accounted server trace sys account := by
  induction run with
  | stay =>
      obtain ⟨-, -, -, writes, sent, -⟩ := boot_fields env dsn host server
      obtain ⟨stored, idle⟩ := boot_store env dsn host server
      refine ⟨{}, ?_, ?_, ?_, ?_⟩
      · rw [Sys.pending, writes]
        rcases idle with gone | waiting
        · rw [gone]
          rfl
        · rw [waiting]
          rfl
      · rw [sent]
        rfl
      · rw [stored]
        exact ⟨rfl, rfl⟩
      · rintro position ⟨record, found⟩
        simp at found
  | @move trace before after action run stepped induction =>
      obtain ⟨earlier, now⟩ := along_concat.mp writable
      obtain ⟨account, accounted⟩ := induction earlier
      have effect := effect_of_step stepped
      by_cases flush : action = .flush
      · subst flush
        cases effect with
        | flushed flushes => exact accounted_of_flushes accounted flushes now
      · obtain ⟨records, queues⟩ := queues_of_effect effect flush
        exact ⟨account.queue records, accounted.queue queues⟩

/-- Where no record was tried on a store that did not take it, but for excess, a
drained queue means that the store has everything. -/
theorem records_whole (env : Env) (dsn : Bool) (host : Host) (server : Server)
    {trace : List (Sys × Action)} {sys : Sys}
    (run : Run (Sys.step env) (boot env dsn host server) trace sys)
    (writable : Along Writable trace) (drained : sys.pending = []) :
    Whole server trace sys := by
  obtain ⟨account, accounted⟩ := exists_accounted run writable
  refine ⟨account.settled, ?_, accounted.tables, ?_⟩
  · rw [← accounted.sent, account.sent_of_drained]
    rw [accounted.pending, drained]
  · intro position write lost
    exact accounted.excused position ⟨write, lost⟩

/-- A single record that is not in the tables was lost. -/
theorem not_whole_of_missing {server : Server} {trace : List (Sys × Action)}
    {sys : Sys} (write : Write) (sent : sys.sent = [write])
    (few : ∀ entry ∈ trace, entry.1.sent.length ≤ PENDING_RECORDS_MAX)
    (missing : ¬ SameRecords sys.store.server (server.record write)) :
    ¬ Whole server trace sys := by
  rintro ⟨settled, same, tables, excused⟩
  rw [sent] at same
  obtain ⟨⟨record, kept⟩, rfl, only⟩ := List.map_eq_singleton_iff.mp same
  dsimp only at only
  subst only
  cases kept with
  | true => exact missing tables
  | false =>
      obtain ⟨entry, member, -, excess⟩ := excused 0 record rfl
      have := few entry member
      omega

/-- What the database accepts is the same all along a run. -/
theorem accepts_of_run {env : Env} {dsn : Bool} {host : Host}
    {server : Server} {trace : List (Sys × Action)} {sys : Sys}
    (run : Run (Sys.step env) (boot env dsn host server) trace sys) :
    Along (fun before _ => before.store.server.accepts = server.accepts)
      trace := by
  rintro ⟨before, action⟩ member
  obtain ⟨earlier, later, rfl⟩ := List.append_of_mem member
  obtain ⟨sofar, -⟩ := run.split
  have started :
      (boot env dsn host server).store.server.accepts = server.accepts := by
    rw [(boot_store env dsn host server).1]
  have keeps (before : Sys) (action : Action) (after : Sys)
      (stepped : Sys.step env before action = some after)
      (same : before.store.server.accepts = server.accepts) :
      after.store.server.accepts = server.accepts := by
    rw [accepts_of_effect (effect_of_step stepped)]
    exact same
  exact sofar.kept started keeps

/-- A database that accepts everything takes what gets to it. -/
theorem takes_of_reachable {env : Env} {dsn : Bool} {host : Host}
    {server : Server} {trace : List (Sys × Action)} {sys : Sys}
    (run : Run (Sys.step env) (boot env dsn host server) trace sys)
    (accepting : server.accepts = fun _ _ => true)
    (reachable : Along (fun before _ => before.store.reachable = true) trace) :
    Along (fun before _ => ∀ statement, before.store.takes statement = true)
      trace := by
  intro entry member statement
  have same := (accepts_of_run run entry member).trans accepting
  exact Store.takes_of_accepting (reachable entry member) same statement

namespace Trial

def pressure : Action :=
  push "weather" (.weather { ts := some 1, pressureHpa := some 1013 })

/-- The flusher's statements for one record: take, snapshot, write, turn to the
settings, nine settings, and the end. -/
def flushes : List Action :=
  List.replicate 14 .flush

/-- The store goes away and comes back before the record is written: the write
goes to the dead connection, and the record is nowhere. -/
theorem record_lost :
    ∃ trace sys, Run (Sys.step env) (boot env true host (server ∅)) trace sys ∧
      trace.map Prod.snd =
        asks ++ [.outage, .recovery, pressure] ++ flushes ∧
      sys.pending = [] ∧ sys.store.reachable = true ∧
      ¬ Whole (server ∅) trace sys := by
  have followed : follow (Sys.step env) (boot env true host (server ∅))
      (asks ++ [.outage, .recovery, pressure] ++ flushes) = some (_, _) := rfl
  refine ⟨_, _, run_of_follow followed, actions_of_follow followed, rfl, rfl,
    not_whole_of_missing (.baro 1 1013) rfl ?_ ?_⟩
  · decide
  · rintro ⟨-, baroSamples⟩
    cases baroSamples

theorem records_whole_trial :
    ∃ trace sys, Run (Sys.step env) (boot env true host (server ∅)) trace sys ∧
      trace.map Prod.snd = asks ++ [pressure] ++ flushes ∧
      sys.sent = [.baro 1 1013] ∧ Whole (server ∅) trace sys := by
  have followed : follow (Sys.step env) (boot env true host (server ∅))
      (asks ++ [pressure] ++ flushes) = some (_, _) := rfl
  have run := run_of_follow followed
  refine ⟨_, _, run, actions_of_follow followed, rfl,
    records_whole env true host (server ∅) run ?_ rfl⟩
  intro entry member write rest snapshot failed _ _
  refine Or.inl (takes_of_reachable run rfl ?_ entry member (.record write))
  unfold Along
  decide

end Trial

end Cortex
