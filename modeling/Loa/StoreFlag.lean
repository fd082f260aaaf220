import Loa.CortexFeed

/-!
# The fault that the store raises

The flusher sets a flag when it has settled a batch, and the fault messages
carry the row for the store by that flag.  The file keeps, beside a run, an
account of how the flushes went and of when the faults were told, and says when
the last fault message is true to it.
-/

namespace Cortex

open FileDirectory Wire TransitionRun

/-- How the store stands, as a run shows it: whether a statement of the flush
under way was refused, whether the last flush failed (or the read at boot, if
nothing was flushed since), and how that stood when the faults were last
told. -/
structure Ledger where
  refused : Bool
  failed : Bool
  told : Option Bool

namespace Ledger

/-- The statement that a flusher is at fails: it does not get to the database, or
is refused there. -/
def refuses (sys : Sys) : Bool :=
  match sys.flusher with
  | .writing (write :: _) _ _ => !sys.store.takes (.record write)
  | .saving ((key, value) :: _) _ =>
      key ∈ PERSISTED && !sys.store.takes (.upsert key value)
  | _ => false

/-- Account for one step. -/
def note (env : Env) (ledger : Ledger) (entry : Sys × Action) : Ledger :=
  match entry.2 with
  | .flush =>
      match entry.1.flusher with
      | .waiting => { ledger with refused := false }
      | .saving [] _ => { ledger with failed := ledger.refused }
      | _ => { ledger with refused := ledger.refused || refuses entry.1 }
  | action =>
      if tells env entry.1 action then { ledger with told := some ledger.failed }
      else ledger

end Ledger

/-- The read at boot failed: there is no store, or it does not take the read. -/
def bootFailed (dsn : Bool) (server : Server) : Bool :=
  !(dsn && (⟨none, server, 0⟩ : Store).takes .readSettings)

/-- The account of a run. -/
def ledgerOf (env : Env) (dsn : Bool) (server : Server)
    (trace : List (Sys × Action)) : Ledger :=
  trace.foldl (Ledger.note env) ⟨false, bootFailed dsn server, none⟩

/-- A flush under way has failed so far exactly if a statement was refused. -/
def FailedSoFar (refused : Bool) : FlusherPhase → Prop
  | .taken _ => refused = false
  | .writing _ _ failed | .saving _ failed => failed = refused
  | .gone | .waiting => True

/-- The flag and the feed against the account. -/
structure Ledgered (env : Env) (ledger : Ledger) (sys : Sys) : Prop where
  flag : sys.dbDown = ledger.failed
  underway : FailedSoFar ledger.refused sys.flusher
  told : Telling env (fun down => ledger.told = some down) sys

theorem boot_flag (env : Env) (dsn : Bool) (host : Host) (server : Server) :
    (boot env dsn host server).dbDown = bootFailed dsn server := by
  unfold boot bootFailed
  cases dsn with
  | false => rfl
  | true =>
      dsimp only
      rw [if_pos rfl]
      unfold Store.loadSettings
      cases answer : (⟨none, server, 0⟩ : Store).takes .readSettings with
      | true =>
          rw [Store.withConn_of_takes answer]
          rfl
      | false =>
          rw [Store.withConn_of_refuses answer]
          rfl

/-- Only the flusher moves the flag and its own phase. -/
theorem flag_of_effect {env : Env} {sys after : Sys} {action : Action}
    (effect : Effect env sys action after) (notFlush : action ≠ .flush) :
    after.dbDown = sys.dbDown ∧ after.flusher = sys.flusher := by
  cases effect with
  | flushed => exact absurd rfl notFlush
  | _ => exact ⟨rfl, rfl⟩

/-- The account of a statement of the flusher. -/
theorem ledgered_of_flushes {env : Env} {ledger : Ledger} {sys after : Sys}
    (ledgered : Ledgered env ledger sys) (flushes : Flushes sys after) :
    after.dbDown = (ledger.note env (sys, .flush)).failed ∧
      FailedSoFar (ledger.note env (sys, .flush)).refused after.flusher ∧
      (ledger.note env (sys, .flush)).told = ledger.told := by
  obtain ⟨flag, underway, -⟩ := ledgered
  cases flushes with
  | took phase some =>
      simp only [Ledger.note, phase]
      exact ⟨flag, rfl, trivial⟩
  | snapped phase =>
      rw [phase] at underway
      simp only [Ledger.note, phase, Ledger.refuses, Bool.or_false]
      exact ⟨flag, underway.symm, trivial⟩
  | wrote phase takes =>
      rw [phase] at underway
      simp only [Ledger.note, phase, Ledger.refuses, takes, Bool.not_true,
        Bool.or_false]
      exact ⟨flag, underway, trivial⟩
  | lost phase refuses =>
      simp only [Ledger.note, phase, Ledger.refuses, refuses,
        Bool.not_false, Bool.or_true]
      exact ⟨flag, rfl, trivial⟩
  | turned phase =>
      rw [phase] at underway
      simp only [Ledger.note, phase, Ledger.refuses, Bool.or_false]
      exact ⟨flag, underway, trivial⟩
  | saved phase kept takes =>
      rw [phase] at underway
      simp only [Ledger.note, phase, Ledger.refuses, takes, Bool.not_true,
        Bool.and_false, Bool.or_false]
      exact ⟨flag, underway, trivial⟩
  | unsaved phase kept refuses =>
      simp only [Ledger.note, phase, Ledger.refuses, kept, refuses,
        decide_true, Bool.not_false, Bool.and_self, Bool.or_true]
      exact ⟨flag, rfl, trivial⟩
  | skipped phase foreign =>
      rw [phase] at underway
      simp only [Ledger.note, phase, Ledger.refuses, foreign, decide_false,
        Bool.false_and, Bool.or_false]
      exact ⟨flag, underway, trivial⟩
  | settled phase =>
      rw [phase] at underway
      simp only [Ledger.note, phase]
      exact ⟨underway, trivial, trivial⟩

theorem ledgered_of_effect {env : Env} {ledger : Ledger} {sys after : Sys}
    {action : Action} (ledgered : Ledgered env ledger sys)
    (effect : Effect env sys action after) :
    Ledgered env (ledger.note env (sys, action)) after := by
  have told := telling_of_effect ledgered.told effect
  by_cases flush : action = .flush
  · subst flush
    cases effect with
    | flushed flushes =>
        obtain ⟨flag, underway, same⟩ := ledgered_of_flushes ledgered flushes
        refine ⟨flag, underway, ?_⟩
        rw [same]
        exact told
  · obtain ⟨flag, flusher⟩ := flag_of_effect effect flush
    have noted : ledger.note env (sys, action) =
        if tells env sys action then { ledger with told := some ledger.failed }
        else ledger := by
      cases action with
      | flush => exact absurd rfl flush
      | _ => rfl
    rw [noted]
    by_cases now : tells env sys action = true
    · rw [if_pos now] at told ⊢
      refine ⟨flag.trans ledgered.flag, flusher ▸ ledgered.underway, ?_⟩
      exact told.mono fun down same => by rw [same, ledgered.flag]
    · rw [if_neg now] at told ⊢
      exact ⟨flag.trans ledgered.flag, flusher ▸ ledgered.underway, told⟩

/-- The flag, and what was told of it, are true to the account of the run. -/
theorem ledgered_of_run {env : Env} {dsn : Bool} {host : Host}
    {server : Server} {trace : List (Sys × Action)} {sys : Sys}
    (run : Run (Sys.step env) (boot env dsn host server) trace sys) :
    Ledgered env (ledgerOf env dsn server trace) sys := by
  induction run with
  | stay =>
      refine ⟨boot_flag env dsn host server, ?_, telling_boot ..⟩
      rcases (boot_store env dsn host server).2 with gone | waiting
      · rw [gone]
        trivial
      · rw [waiting]
        trivial
  | move run stepped induction =>
      have moved := ledgered_of_effect induction (effect_of_step stepped)
      simpa [ledgerOf, List.foldl_append] using moved

/-- The last fault message has the row for the store. -/
def ShowsDbDown (prost : Prost) (feed : List Parts) : Prop :=
  ∃ f ∈ (heardOn prost feed).fault, ∃ row ∈ f.rows, row.code = "DB DOWN"

/-- The last sweep brought a row of that code itself. -/
def SweepSaysDbDown (cx : Cortex) : Prop :=
  ∃ row ∈ cx.st.faults, row.code = "DB DOWN"

instance (cx : Cortex) : Decidable (SweepSaysDbDown cx) :=
  inferInstanceAs (Decidable (∃ row ∈ cx.st.faults, row.code = "DB DOWN"))

theorem dbDown_in_rows_iff (cx : Cortex) (dbDown : Bool) (now : F64) :
    (∃ row ∈ (cx.faultMessage dbDown now).rows, row.code = "DB DOWN") ↔
      dbDown = true ∨ SweepSaysDbDown cx := by
  have injected : (∃ row ∈ injectedFaults dbDown, row.code = "DB DOWN") ↔
      dbDown = true := by
    cases dbDown <;> simp [injectedFaults]
  simp only [faultMessage, faultRows, List.mem_map, exists_exists_and_eq_and,
    FaultRow.toWire, List.mem_append, or_and_right, exists_or]
  rw [injected]
  rfl

/-- The row for the store is shown just when the last flush failed (or the read
at boot) exactly when that stood so as well when the faults were last told; a
sweep with a row of that code shows it whatever was told. -/
theorem dbDown_shown_iff (env : Env) (dsn : Bool) (host : Host)
    (server : Server) {trace : List (Sys × Action)} {sys : Sys}
    (run : Run (Sys.step env) (boot env dsn host server) trace sys)
    (running : sys.main = .running) :
    (ShowsDbDown env.prost sys.feed ↔
        (ledgerOf env dsn server trace).failed = true) ↔
      if SweepSaysDbDown sys.cx then
        (ledgerOf env dsn server trace).failed = true
      else
        (ledgerOf env dsn server trace).told =
          some (ledgerOf env dsn server trace).failed := by
  obtain ⟨down, now, told, last⟩ := (ledgered_of_run run).told.told running
  have shown : ShowsDbDown env.prost sys.feed ↔
      down = true ∨ SweepSaysDbDown sys.cx := by
    unfold ShowsDbDown
    rw [last]
    simpa using dbDown_in_rows_iff sys.cx down now
  rw [shown, told]
  by_cases sweep : SweepSaysDbDown sys.cx
  · rw [if_pos sweep]
    simp [sweep]
  · rw [if_neg sweep, Option.some.injEq, Bool.eq_iff_iff]
    simp [sweep]

namespace Trial

/-- Nothing is queued anywhere and the flusher is between two batches. -/
def Drained (sys : Sys) : Prop :=
  sys.main = .running ∧ sys.news = [] ∧ sys.powerNews = [] ∧
    sys.writes = [] ∧ sys.flusher = .waiting

/-- A mood while the store is out of reach: the event, the republish, and the
flush of the event, which fails at the record and at the first setting. -/
def moodInOutage : List Action :=
  asks ++ [.outage, post feelPleased, .hearNews, .hearNews] ++
    List.replicate 6 .flush

theorem not_shows_of_rows {prost : Prost} {feed : List Parts}
    (quiet : (heardOn prost feed).fault.map Fault.rows = some []) :
    ¬ ShowsDbDown prost feed := by
  rintro ⟨f, said, row, member, -⟩
  rw [said] at quiet
  have none : f.rows = [] := Option.some.inj quiet
  rw [none] at member
  cases member

/-- The flush has failed and no fault message says so. -/
theorem dbDown_untold :
    ∃ trace sys, Run (Sys.step env) (boot env true host (server ∅)) trace sys ∧
      trace.map Prod.snd = moodInOutage ∧ Drained sys ∧
      (ledgerOf env true (server ∅) trace).failed = true ∧
      ¬ ShowsDbDown env.prost sys.feed := by
  have followed :
      follow (Sys.step env) (boot env true host (server ∅)) moodInOutage =
        some (_, _) := rfl
  refine ⟨_, _, run_of_follow followed, actions_of_follow followed,
    ⟨rfl, rfl, rfl, rfl, rfl⟩, rfl, not_shows_of_rows rfl⟩

/-- The next mood tells it. -/
theorem dbDown_shown_iff_told :
    ∃ trace sys, Run (Sys.step env) (boot env true host (server ∅)) trace sys ∧
      trace.map Prod.snd =
        moodInOutage ++ [post feelPleased, .hearNews, .hearNews] ∧
      (ShowsDbDown env.prost sys.feed ↔
        (ledgerOf env true (server ∅) trace).failed = true) := by
  have followed :
      follow (Sys.step env) (boot env true host (server ∅))
        (moodInOutage ++ [post feelPleased, .hearNews, .hearNews]) =
          some (_, _) := rfl
  exact ⟨_, _, run_of_follow followed, actions_of_follow followed,
    (dbDown_shown_iff env true host (server ∅) (run_of_follow followed)
      rfl).mpr rfl⟩

end Trial

end Cortex
