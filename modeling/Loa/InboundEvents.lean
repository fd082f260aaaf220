import Loa.CortexEffects
import Loa.TransitionRun

/-!
# The events of the daemons

The cortex puts events on the feed and hands event records to the store's
writer.  The file follows both through a run and compares them with the events
that came in.
-/

namespace Cortex

open FileDirectory Json Wire RustText TransitionRun

/-- The event that a body carries. -/
def readEvent : Body → Option Event
  | .event e => some e
  | _ => none

/-- The events on a feed. -/
def eventsOn (prost : Prost) (feed : List Parts) : List Event :=
  saidUnder prost "event" readEvent feed

/-- The row that a record leaves in the table of events. -/
def rowOf : Write → Option (F64 × String × Value)
  | .event kind detail ts => some (ts, kind, detail)
  | .baro _ _ => none

def rowsOf (writes : List Write) : List (F64 × String × Value) :=
  writes.filterMap rowOf

/-- The row for an event that came in, its detail as an object. -/
def rowFor (e : Event) : F64 × String × Value :=
  (e.ts, e.kind,
    .object ((e.detail.entries.map fun member =>
      (member.1, Value.string member.2)).mergeSort fun first second =>
        first.1 ≤ second.1))

/-- The events that came in on a run, in order. -/
def arrived (env : Env) (trace : List (Sys × Action)) : List Event :=
  trace.filterMap fun entry =>
    match entry.2 with
    | .inbound parts => (accepted env parts).bind readEvent
    | _ => none

/-- The rows of the door's own events, each with the time it was heard at. -/
def ownRows (env : Env) (trace : List (Sys × Action)) :
    List (F64 × String × Value) :=
  trace.filterMap fun entry =>
    match entry.2, entry.1.news with
    | .hearNews, .event kind detail :: _ =>
        some (env.clock entry.1.ticks, kind, detail)
    | _, _ => none

/-- The message about a row of the door's own. -/
def messageFor (env : Env) (row : F64 × String × Value) : Event where
  ts := row.1
  kind := row.2.1
  detail := eventDetail env.vault.text row.2.2

/-- Every event that came in is on the feed once and with the writer once,
beside the door's own. -/
structure Survive (env : Env) (trace : List (Sys × Action)) (sys : Sys) :
    Prop where
  published : (eventsOn env.prost sys.feed).Perm
    ((ownRows env trace).map (messageFor env) ++ arrived env trace)
  handed : (rowsOf sys.sent).Perm
    (ownRows env trace ++ (arrived env trace).map rowFor)

@[simp]
theorem eventsOn_append (prost : Prost) (feed said : List Parts) :
    eventsOn prost (feed ++ said) =
      eventsOn prost feed ++ eventsOn prost said :=
  saidUnder_append ..

@[simp]
theorem rowsOf_append (writes more : List Write) :
    rowsOf (writes ++ more) = rowsOf writes ++ rowsOf more :=
  List.filterMap_append

theorem eventsOn_published_event (prost : Prost) (e : Event) :
    eventsOn prost (published "event" (.event e)) = [e] :=
  saidUnder_published prost readEvent (by decide) rfl

theorem eventsOn_published_other (prost : Prost) {topic : String}
    (other : topic ≠ "event") (body : Body) :
    eventsOn prost (published topic body) = [] :=
  saidUnder_published_other prost readEvent other body

theorem eventsOn_relayed (prost : Prost) (parts : Parts) :
    eventsOn prost (relayed parts) = [] :=
  saidUnder_relayed prost readEvent (by decide) parts

theorem eventsOn_rebuilt (prost : Prost) (cx : Cortex) (dbDown : Bool)
    (now : F64) (msg : Msg) : eventsOn prost (rebuilt cx dbDown now msg) = [] :=
  saidUnder_rebuilt prost readEvent (by decide) cx dbDown now msg

theorem eventsOn_republished (env : Env) (sys : Sys) :
    eventsOn env.prost (republished env sys) = [] :=
  saidUnder_republished env.prost readEvent "event" env sys

theorem rowsOf_sampleOf (msg : Msg) : rowsOf (sampleOf msg) = [] := by
  unfold sampleOf
  split
  · split <;> rfl
  · rfl

/-- What one step adds: the door's own event, when it is heard. -/
theorem events_of_effect {env : Env} {sys after : Sys} {action : Action}
    (effect : Effect env sys action after) :
    eventsOn env.prost after.feed = eventsOn env.prost sys.feed ++
        (ownRows env [(sys, action)]).map (messageFor env) ∧
      rowsOf after.sent = rowsOf sys.sent ++ ownRows env [(sys, action)] := by
  cases effect with
  | asked main =>
      simp [ownRows,
        eventsOn_published_other env.prost (by decide : "init" ≠ "event")]
  | opened main => simp [ownRows, eventsOn_republished]
  | relay main frame => simp [ownRows, eventsOn_relayed]
  | merged ticks main decoded =>
      simp [ownRows, eventsOn_rebuilt, rowsOf_sampleOf]
  | @logged kind detail rest main news =>
      have own : ownRows env [(sys, .hearNews)] =
          [(env.clock sys.ticks, kind, detail)] := by
        simp [ownRows, news]
      rw [own]
      simp only [eventsOn_append, rowsOf_append]
      exact ⟨congrArg _ (eventsOn_published_event env.prost _), rfl⟩
  | republish main news => simp [ownRows, news, eventsOn_republished]
  | powered main news =>
      simp [ownRows,
        eventsOn_published_other env.prost (by decide : "power" ≠ "event")]
  | flushed flushes => cases flushes <;> simp [ownRows]
  | dropped | verbed | answered | sampled | cut | restored => simp [ownRows]

/-- The events on the feed and with the writer are the door's own and no
others. -/
theorem events_of_run {env : Env} {dsn : Bool} {host : Host} {server : Server}
    {trace : List (Sys × Action)} {sys : Sys}
    (run : Run (Sys.step env) (boot env dsn host server) trace sys) :
    eventsOn env.prost sys.feed = (ownRows env trace).map (messageFor env) ∧
      rowsOf sys.sent = ownRows env trace := by
  induction run with
  | stay =>
      obtain ⟨-, feed, -, -, sent, -⟩ := boot_fields env dsn host server
      rw [feed, sent]
      exact ⟨rfl, rfl⟩
  | @move trace before after action run stepped induction =>
      obtain ⟨published, handed⟩ := events_of_effect (effect_of_step stepped)
      have split : ownRows env (trace ++ [(before, action)]) =
          ownRows env trace ++ ownRows env [(before, action)] :=
        List.filterMap_append
      rw [published, handed, split, List.map_append, induction.1, induction.2]
      exact ⟨rfl, rfl⟩

theorem arrived_eq_nil_of_survive {env : Env} {dsn : Bool} {host : Host}
    {server : Server} {trace : List (Sys × Action)} {sys : Sys}
    (run : Run (Sys.step env) (boot env dsn host server) trace sys)
    (survive : Survive env trace sys) : arrived env trace = [] := by
  have lengths := survive.handed.length_eq
  rw [(events_of_run run).2, List.length_append, List.length_map] at lengths
  exact List.eq_nil_of_length_eq_zero (by omega)

/-- The events of the daemons survive a run exactly when there are none. -/
theorem survive_iff (env : Env) (dsn : Bool) (host : Host) (server : Server)
    {trace : List (Sys × Action)} {sys : Sys}
    (run : Run (Sys.step env) (boot env dsn host server) trace sys) :
    Survive env trace sys ↔ arrived env trace = [] := by
  obtain ⟨published, handed⟩ := events_of_run run
  constructor
  · exact arrived_eq_nil_of_survive run
  · intro none
    constructor
    · rw [published, none, List.append_nil]
    · rw [handed, none, List.map_nil, List.append_nil]

namespace Trial

/-- The record of the motion daemon that the ring is to play. -/
def scan : Event where
  ts := 3
  kind := "ring"
  detail := AList.singleton "state" "scan"

theorem exists_arrived :
    ∃ trace sys, Run (Sys.step env) (boot env true host (server ∅)) trace sys ∧
      arrived env trace = [scan] := by
  have followed : follow (Sys.step env) (boot env true host (server ∅))
      (asks ++ [push "event" (.event scan)]) = some (_, _) := rfl
  exact ⟨_, _, run_of_follow followed, rfl⟩

/-- The record comes in and goes nowhere. -/
theorem scan_not_survives :
    ∃ trace sys, Run (Sys.step env) (boot env true host (server ∅)) trace sys ∧
      arrived env trace = [scan] ∧ ¬ Survive env trace sys := by
  obtain ⟨trace, sys, run, came⟩ := exists_arrived
  refine ⟨trace, sys, run, came, fun survive => ?_⟩
  rw [arrived_eq_nil_of_survive run survive] at came
  cases came

theorem survive_iff_trial :
    ∃ trace sys, Run (Sys.step env) (boot env true host (server ∅)) trace sys ∧
      arrived env trace = [scan] ∧
      (Survive env trace sys ↔ arrived env trace = []) := by
  obtain ⟨trace, sys, run, came⟩ := exists_arrived
  exact ⟨trace, sys, run, came, survive_iff env true host (server ∅) run⟩

end Trial

end Cortex
