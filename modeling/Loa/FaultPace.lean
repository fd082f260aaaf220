import Loa.FaultProcess

/-!
# The clock of the fault daemon

How old a report gets while the daemon lives, and when the sweeps of a period
begin.
-/

namespace FaultDaemon

open TransitionRun Wire

/-- How fast the main thread is: what its waits take beyond their time, and the
longest that a sweep takes. -/
structure Pace where
  slack : Nat
  longest : Nat

/-- A time at which the main thread need not be somewhere else yet. -/
def Timely (pace : Pace) (process : Process) (time : Nat) : Prop :=
  match process.main with
  | .waiting since => time ≤ since + POLL + pace.slack
  | .probing _ start => time ≤ start + pace.longest
  | .publishing _ start _ _ => time ≤ start + pace.longest

instance (pace : Pace) (process : Process) (time : Nat) :
    Decidable (Timely pace process time) :=
  match same : process.main with
  | .waiting since =>
      decidable_of_iff (time ≤ since + POLL + pace.slack) (by rw [Timely, same])
  | .probing _ start =>
      decidable_of_iff (time ≤ start + pace.longest) (by rw [Timely, same])
  | .publishing _ start _ _ =>
      decidable_of_iff (time ≤ start + pace.longest) (by rw [Timely, same])

/-- Every event of a run comes in time. -/
def OnTime (pace : Pace) (trace : List (Process × (Event × Nat))) : Prop :=
  Along (fun process event => Timely pace process event.2) trace

/-- When the sweep behind this one is due, if no ask comes first. -/
def Sweep.next (sweep : Sweep) : Nat :=
  match sweep.reason with
  | .boot => sweep.finish + SWEEP_PERIOD
  | .ask _ _ => sweep.finish + SWEEP_PERIOD
  | .period =>
      if sweep.due + SWEEP_PERIOD ≤ sweep.finish then sweep.finish + SWEEP_PERIOD
      else sweep.due + SWEEP_PERIOD

/-- A sweep that began where the clock had it, and took no longer than it may. -/
structure Sweep.Paced (pace : Pace) (sweep : Sweep) : Prop where
  started : sweep.start ≤ sweep.finish
  within : sweep.finish ≤ sweep.start + pace.longest
  due : sweep.reason = .period →
    sweep.due ≤ sweep.start ∧ sweep.start ≤ sweep.due + POLL + pace.slack

theorem Sweep.Paced.next_bounds {pace : Pace} {sweep : Sweep}
    (paced : sweep.Paced pace) :
    sweep.finish < sweep.next ∧ sweep.next ≤ sweep.finish + SWEEP_PERIOD := by
  have period : 0 < SWEEP_PERIOD := by decide
  obtain ⟨started, -, due⟩ := paced
  unfold Sweep.next
  cases reason : sweep.reason with
  | boot => exact ⟨Nat.lt_add_of_pos_right period, Nat.le_refl _⟩
  | ask ticket asked => exact ⟨Nat.lt_add_of_pos_right period, Nat.le_refl _⟩
  | period =>
      have early := (due reason).1
      dsimp only
      split_ifs <;> omega

namespace Process

variable {prost : Prost} {process after : Process} {event : Event} {time : Nat}
  {pace : Pace}

/-- A sweep that is not over, in time. -/
structure Begun (pace : Pace) (process : Process) (reason : Reason)
    (start : Nat) : Prop where
  started : start ≤ process.clock
  within : process.clock ≤ start + pace.longest
  behind : ∀ sweep ∈ process.sweeps.getLast?,
    start ≤ sweep.next + POLL + pace.slack
  due : reason = .period →
    process.nextSweep ≤ start ∧ start ≤ process.nextSweep + POLL + pace.slack

/-- A wait that is not over. -/
structure Waits (pace : Pace) (process : Process) (since : Nat) : Prop where
  started : since ≤ process.clock
  within : process.clock ≤ since + POLL + pace.slack
  early : since < process.nextSweep

/-- What the clocks say, in each place of the main thread. -/
structure Paced (pace : Pace) (process : Process) : Prop where
  swept : ∀ sweep ∈ process.sweeps, sweep.Paced pace
  ended : ∀ sweep ∈ process.sweeps, sweep.finish ≤ process.clock
  next : ∀ sweep ∈ process.sweeps.getLast?, process.nextSweep = sweep.next
  chained : ∀ number first second, process.sweeps[number]? = some first →
    process.sweeps[number + 1]? = some second → second.due = first.next
  place : match process.main with
    | .waiting since => Waits pace process since
    | .probing reason start => Begun pace process reason start
    | .publishing reason start _ _ => Begun pace process reason start

theorem boot_paced (clock : Nat) : (boot clock).Paced pace where
  swept sweep member := by cases member
  ended sweep member := by cases member
  next sweep member := by cases member
  chained number first second there := by cases there
  place :=
    { started := Nat.le_refl _
      within := Nat.le_add_right _ _
      behind := fun sweep member => by cases member
      due := fun wrong => by cases wrong }

/-- A sweep that begins after a wait is in time. -/
theorem Waits.begun {since : Nat} {reason : Reason} {line : TicketQueue Nat}
    (waits : Waits pace process since)
    (next : ∀ sweep ∈ process.sweeps.getLast?, process.nextSweep = sweep.next)
    (timely : time ≤ since + POLL + pace.slack)
    (due : reason = .period → process.nextSweep ≤ time) :
    Begun pace
      { process with
        clock := time, line := line, main := .probing reason time }
      reason time where
  started := Nat.le_refl _
  within := Nat.le_add_right _ _
  behind sweep member := by
    have early := waits.early
    have same := next sweep member
    omega
  due period := by
    have early := waits.early
    exact ⟨due period, by change time ≤ process.nextSweep + _ + _; omega⟩

theorem step_paced (paced : process.Paced pace)
    (timely : Timely pace process time)
    (stepped : process.step prost (event, time) = some after) :
    after.Paced pace := by
  obtain ⟨onward, stepped⟩ := stepped_of_step stepped
  obtain ⟨swept, ended, next, chained, place⟩ := paced
  have past : ∀ sweep ∈ process.sweeps, sweep.finish ≤ time :=
    fun sweep member => (ended sweep member).trans onward
  unfold Timely at timely
  cases stepped with
  | hear parts =>
      refine ⟨swept, past, next, chained, ?_⟩
      change match process.main with
        | .waiting since => _
        | .probing reason start => _
        | .publishing reason start _ _ => _
      cases main : process.main with
      | waiting since =>
          rw [main] at timely place
          exact ⟨place.started.trans onward, timely, place.early⟩
      | probing reason start =>
          rw [main] at timely place
          exact ⟨place.started.trans onward, timely, place.behind, place.due⟩
      | publishing reason start heard weather =>
          rw [main] at timely place
          exact ⟨place.started.trans onward, timely, place.behind, place.due⟩
  | wake main served =>
      rw [main] at timely place
      exact ⟨swept, past, next, chained,
        place.begun next timely fun wrong => by cases wrong⟩
  | idle main waited early =>
      exact ⟨swept, past, next, chained,
        ⟨Nat.le_refl _, by change time ≤ time + _ + _; omega, early⟩⟩
  | period main waited due worked =>
      rw [main] at timely place
      exact ⟨swept, past, next, chained, place.begun next timely fun _ => due⟩
  | look main =>
      rw [main] at timely place
      exact ⟨swept, past, next, chained,
        ⟨place.started.trans onward, timely, place.behind, place.due⟩⟩
  | @finish reason start count weather main =>
      rw [main] at timely place
      have last : Sweep.Paced pace
          ⟨reason, start, process.nextSweep, count, weather, time⟩ :=
        ⟨place.started.trans onward, timely, place.due⟩
      have same : process.next time reason = Sweep.next
          ⟨reason, start, process.nextSweep, count, weather, time⟩ := by
        cases reason <;> rfl
      refine ⟨?_, ?_, ?_, ?_, ?_⟩
      · intro sweep member
        obtain earlier | here := List.mem_append.mp member
        · exact swept sweep earlier
        · rw [List.mem_singleton.mp here]
          exact last
      · intro sweep member
        obtain earlier | here := List.mem_append.mp member
        · exact past sweep earlier
        · rw [List.mem_singleton.mp here]
      · intro sweep member
        rw [List.getLast?_concat, Option.mem_def, Option.some.injEq] at member
        rw [← member]
        exact same
      · intro number first second there follows
        dsimp only at there follows
        by_cases inside : number + 1 < process.sweeps.length
        · rw [List.getElem?_append_left (by omega)] at there
          rw [List.getElem?_append_left inside] at follows
          exact chained number first second there follows
        · rw [List.getElem?_append_right (by omega)] at follows
          obtain ⟨within, here⟩ := List.getElem?_eq_some_iff.mp follows
          rw [List.length_singleton] at within
          rw [List.getElem_singleton] at here
          rw [List.getElem?_append_left (by omega)] at there
          have final : process.sweeps.getLast? = some first := by
            rw [List.getLast?_eq_getElem?, ← there]
            congr 1
            omega
          rw [← here]
          exact next first final
      · refine ⟨Nat.le_refl _, by change time ≤ time + _ + _; omega, ?_⟩
        change time < process.next time reason
        rw [same]
        exact last.next_bounds.1

theorem run_paced {clock : Nat} {trace : List (Process × (Event × Nat))}
    {last : Process} (run : Run (step prost) (boot clock) trace last)
    (timely : OnTime pace trace) : last.Paced pace :=
  run.invariant timely (boot_paced clock)
    fun _ _ _ timely stepped paced => step_paced paced timely stepped

end Process

/-- When a report that a reader may find was begun: it is the last one that is
over, or the one that is being published. -/
def Process.Readable (process : Process) (start : Nat) : Prop :=
  (∃ sweep ∈ process.sweeps.getLast?, sweep.start = start) ∨
    ∃ reason heard weather, process.main = .publishing reason start heard weather

/-- While the daemon lives, no report gets older than a period, two sweeps and
the waits between them. -/
theorem Process.Paced.recent {pace : Pace} {process : Process} {start now : Nat}
    (paced : process.Paced pace) (timely : Timely pace process now)
    (later : process.clock ≤ now) (readable : process.Readable start) :
    start ≤ now ∧
      now ≤ start + SWEEP_PERIOD + POLL + pace.slack + 2 * pace.longest := by
  have place := paced.place
  unfold Timely at timely
  obtain ⟨sweep, member, rfl⟩ | ⟨reason, heard, weather, main⟩ := readable
  · have among := List.mem_of_mem_getLast? member
    have own := paced.swept sweep among
    have next := paced.next sweep member
    have bounds := own.next_bounds
    have within := own.within
    refine ⟨own.started.trans ((paced.ended sweep among).trans later), ?_⟩
    split at place
    · rename_i since main
      rw [main] at timely
      have early := place.early
      dsimp only at timely
      omega
    · rename_i reason start main
      rw [main] at timely
      have behind := place.behind sweep member
      dsimp only at timely
      omega
    · rename_i reason start heard weather main
      rw [main] at timely
      have behind := place.behind sweep member
      dsimp only at timely
      omega
  · rw [main] at place timely
    have started := place.started
    dsimp only at timely
    omega

/-- A clock on the wall that is not put forward. -/
def Steady (wall : Nat → F64) : Prop :=
  ∀ first later, first ≤ later →
    wall later - wall first ≤ ((later - first : Nat) : F64) / SECOND

/-- A reader that finds a report of a daemon that lives never takes the daemon
for dead, where two sweeps and the waits fit between a period and the age of a
dead report. -/
theorem live_report_not_mute {prost : Prost} {pace : Pace} {clock start now : Nat}
    {trace : List (Process × (Event × Nat))} {last : Process} {wall : Nat → F64}
    (run : Run (Process.step prost) (Process.boot clock) trace last)
    (timely : OnTime pace trace) (alive : Timely pace last now)
    (later : last.clock ≤ now)
    (fits : SWEEP_PERIOD + POLL + pace.slack + 2 * pace.longest ≤ 300 * SECOND)
    (steady : Steady wall) (readable : last.Readable start)
    (boot : Option String) (rows : List Row) :
    condition (some (Report.new (wall start) boot rows)) (wall now) ≠ "mute" := by
  obtain ⟨started, recent⟩ :=
    (Process.run_paced run timely).recent alive later readable
  have second : (0 : F64) < SECOND := by norm_num [SECOND]
  have aged : now - start ≤ 300 * SECOND := by omega
  have age : wall now - wall start ≤ 300 := by
    have passed := steady _ _ started
    have bound : ((now - start : Nat) : F64) / SECOND ≤ 300 := by
      rw [div_le_iff₀ second]
      exact_mod_cast aged
    exact passed.trans bound
  have fresh : ¬ FAULTS_STALE_S < wall now - wall start :=
    not_lt.mpr age
  unfold condition
  dsimp only [Report.new]
  rw [if_neg fresh]
  split_ifs <;> decide

/-- A period's sweep that is over before the next one is due. -/
def Sweep.Prompt (sweep : Sweep) : Prop :=
  sweep.reason = .period ∧ sweep.finish < sweep.due + SWEEP_PERIOD

/-- The period does not drift: however many of its sweeps there are with no ask
between them, each begins where the first one was due and as many periods later,
but for the wait that ran at that time. -/
theorem period_does_not_drift {prost : Prost} {pace : Pace} {clock : Nat}
    {trace : List (Process × (Event × Nat))} {last : Process}
    (run : Run (Process.step prost) (Process.boot clock) trace last)
    (timely : OnTime pace trace) {first count : Nat} {sweep later : Sweep}
    (there : last.sweeps[first]? = some sweep)
    (prompt : ∀ number between, first ≤ number → number < first + count →
      last.sweeps[number]? = some between → between.Prompt)
    (follows : last.sweeps[first + count]? = some later)
    (period : later.reason = .period) :
    sweep.due + count * SWEEP_PERIOD ≤ later.start ∧
      later.start ≤
        sweep.due + count * SWEEP_PERIOD + POLL + pace.slack := by
  have paced := Process.run_paced run timely
  have due : later.due = sweep.due + count * SWEEP_PERIOD := by
    clear period
    induction count generalizing later with
    | zero =>
        rw [Nat.add_zero, there] at follows
        cases follows
        simp
    | succ count induction =>
        obtain ⟨within, -⟩ := List.getElem?_eq_some_iff.mp follows
        have before := List.getElem?_eq_getElem (l := last.sweeps)
          (i := first + count) (by omega)
        obtain ⟨reason, early⟩ :=
          prompt _ _ (Nat.le_add_right _ _) (by omega) before
        have same := induction (fun number between above below =>
          prompt number between above (by omega)) before
        rw [paced.chained _ _ _ before follows, Sweep.next, reason, Nat.succ_mul]
        dsimp only
        rw [if_neg (Nat.not_le.mpr early), same, Nat.add_assoc]
  obtain ⟨began, waited⟩ :=
    (paced.swept later (List.mem_of_getElem? follows)).due period
  rw [due] at began waited
  exact ⟨began, waited⟩

namespace Morning

def pace : Pace :=
  ⟨60 * SECOND, 10 * SECOND⟩

theorem onTime : OnTime pace trace := by
  have each : trace.all (fun entry =>
      decide (Timely pace entry.1 entry.2.2)) = true := by
    decide +kernel
  exact fun entry member => of_decide_eq_true (List.all_eq_true.mp each entry member)

/-- The wall clock of the monotonic one. -/
def wall (time : Nat) : F64 :=
  time / SECOND

theorem steady : Steady wall := by
  intro first later before
  unfold wall
  rw [← sub_div, ← Nat.cast_sub before]

theorem live_report_not_mute_later :
    condition (some (Report.new (wall (126 * SECOND)) none []))
      (wall (188 * SECOND)) ≠ "mute" :=
  live_report_not_mute run onTime (by decide +kernel) (by decide +kernel)
    (by decide) steady
    (.inl ⟨_, Option.some_get (by decide +kernel) |>.symm, by decide +kernel⟩) none []

/-- The two sweeps of a period. -/
def first : Sweep :=
  (last.sweeps[2]?).get (by decide +kernel)

def second : Sweep :=
  (last.sweeps[3]?).get (by decide +kernel)

theorem first_there : last.sweeps[2]? = some first :=
  (Option.some_get _).symm

theorem period_does_not_drift_once :
    first.due + 1 * SWEEP_PERIOD ≤ second.start ∧
      second.start ≤ first.due + 1 * SWEEP_PERIOD + POLL + pace.slack :=
  period_does_not_drift run onTime first_there (by
    intro number between above below there
    obtain rfl : number = 2 := by omega
    rw [first_there] at there
    cases there
    exact ⟨by decide +kernel, by decide +kernel⟩) (Option.some_get _).symm
    (by decide +kernel)

end Morning

end FaultDaemon
