import Loa.FaultVerdict
import Loa.TicketQueue
import Loa.TransitionRun

/-!
# The fault daemon as a process

One thread reads the feed: it keeps the last weather, and passes each ask on.
The other sweeps at the start, for each ask, and when the period is over.  Here
the two run in any order, on a clock, and a sweep takes its time.
-/

namespace FaultDaemon

open RustText TransitionRun Wire

/-- A second of the monotonic clock, which counts nanoseconds. -/
def SECOND : Nat := 1000000000

def SWEEP_PERIOD : Nat := 60 * SECOND

/-- How long the main thread waits for an ask before it looks at the clock. -/
def POLL : Nat := SECOND / 10

/-- Why there is a sweep: an ask comes with its ticket, and with how many
messages the feed had brought. -/
inductive Reason
  | boot
  | ask (ticket asked : Nat)
  | period
  deriving DecidableEq

/-- A sweep that is over: when it began, when it was due, how many messages there
were when it took the weather, the weather, and when it was published. -/
structure Sweep where
  reason : Reason
  start : Nat
  due : Nat
  heard : Nat
  weather : Option Weather
  finish : Nat

/-- Where the main thread is. -/
inductive Main
  | waiting (since : Nat)
  | probing (reason : Reason) (start : Nat)
  | publishing (reason : Reason) (start heard : Nat) (weather : Option Weather)

/-- The two threads, what they share, and what has happened. -/
structure Process where
  clock : Nat
  heard : List Parts
  listener : Listener
  line : TicketQueue Nat
  nextSweep : Nat
  main : Main
  sweeps : List Sweep

/-- What can happen: a message off the feed, an ask that wakes the main thread, a
wait without one, the look at the weather in a sweep, and the sweep's end. -/
inductive Event
  | hear (parts : Parts)
  | wake
  | idle
  | look
  | finish

/-- A message that is an ask. -/
def IsAsk (parts : Parts) : Prop :=
  fromUtf8Lossy parts.topic = "init"

instance (parts : Parts) : Decidable (IsAsk parts) :=
  inferInstanceAs (Decidable (_ = _))

namespace Process

variable (prost : Prost)

/-- The first sweep begins as soon as the feed thread is there. -/
def boot (clock : Nat) : Process where
  clock := clock
  heard := []
  listener := {}
  line := TicketQueue.empty 1
  nextSweep := clock
  main := .probing .boot clock
  sweeps := []

def hear (parts : Parts) (process : Process) : Process :=
  { process with
    heard := process.heard ++ [parts]
    listener := process.listener.hear prost parts
    line :=
      if IsAsk parts then process.line.request (process.heard.length + 1)
      else process.line }

/-- The next time after a sweep: the period starts again behind an ask, and is
kept to otherwise, where it has not been missed. -/
def next (process : Process) (time : Nat) : Reason → Nat
  | .boot => time + SWEEP_PERIOD
  | .ask _ _ => time + SWEEP_PERIOD
  | .period =>
      if process.nextSweep + SWEEP_PERIOD ≤ time then time + SWEEP_PERIOD
      else process.nextSweep + SWEEP_PERIOD

/-- What an event leaves at its time, if it can happen then. -/
def happen (process : Process) (time : Nat) : Event → Option Process
  | .hear parts => some { process.hear prost parts with clock := time }
  | .wake =>
      match process.main with
      | .waiting _ =>
          process.line.serve.map fun ((ticket, asked), line) =>
            { process with
              clock := time
              line := line
              main := .probing (.ask ticket asked) time }
      | _ => none
  | .idle =>
      match process.main with
      | .waiting since =>
          if process.line.waiting = [] ∧ since + POLL ≤ time then
            if process.nextSweep ≤ time then
              process.line.work.map fun line =>
                { process with
                  clock := time
                  line := line
                  main := .probing .period time }
            else some { process with clock := time, main := .waiting time }
          else none
      | _ => none
  | .look =>
      match process.main with
      | .probing reason start =>
          some { process with
            clock := time
            main := .publishing reason start process.heard.length
              process.listener.weather }
      | _ => none
  | .finish =>
      match process.main with
      | .publishing reason start heard weather =>
          some { process with
            clock := time
            nextSweep := process.next time reason
            main := .waiting time
            sweeps := process.sweeps ++
              [⟨reason, start, process.nextSweep, heard, weather, time⟩] }
      | _ => none

/-- Events come in the order of their times. -/
def step (process : Process) (event : Event × Nat) : Option Process :=
  if event.2 < process.clock then none else process.happen prost event.2 event.1

variable {prost} {process after : Process} {event : Event} {time : Nat}

/-- What a step can do. -/
inductive Stepped (prost : Prost) (process : Process) (time : Nat) :
    Event → Process → Prop
  | hear (parts : Parts) :
      Stepped prost process time (.hear parts)
        { process.hear prost parts with clock := time }
  | wake {since ticket asked : Nat} {line : TicketQueue Nat}
      (main : process.main = .waiting since)
      (served : process.line.serve = some ((ticket, asked), line)) :
      Stepped prost process time .wake
        { process with
          clock := time, line := line, main := .probing (.ask ticket asked) time }
  | idle {since : Nat} (main : process.main = .waiting since)
      (waited : since + POLL ≤ time) (early : time < process.nextSweep) :
      Stepped prost process time .idle
        { process with clock := time, main := .waiting time }
  | period {since : Nat} {line : TicketQueue Nat}
      (main : process.main = .waiting since) (waited : since + POLL ≤ time)
      (due : process.nextSweep ≤ time) (worked : process.line.work = some line) :
      Stepped prost process time .idle
        { process with
          clock := time, line := line, main := .probing .period time }
  | look {reason : Reason} {start : Nat}
      (main : process.main = .probing reason start) :
      Stepped prost process time .look
        { process with
          clock := time
          main := .publishing reason start process.heard.length
            process.listener.weather }
  | finish {reason : Reason} {start heard : Nat} {weather : Option Weather}
      (main : process.main = .publishing reason start heard weather) :
      Stepped prost process time .finish
        { process with
          clock := time
          nextSweep := process.next time reason
          main := .waiting time
          sweeps := process.sweeps ++
            [⟨reason, start, process.nextSweep, heard, weather, time⟩] }

theorem stepped_of_step
    (stepped : process.step prost (event, time) = some after) :
    process.clock ≤ time ∧ Stepped prost process time event after := by
  unfold step at stepped
  split_ifs at stepped with past
  refine ⟨Nat.le_of_not_lt past, ?_⟩
  cases event with
  | hear parts =>
      cases stepped
      exact .hear parts
  | wake =>
      unfold happen at stepped
      dsimp only at stepped
      split at stepped
      · rename_i since main
        obtain ⟨⟨⟨ticket, asked⟩, line⟩, served, rfl⟩ :=
          Option.map_eq_some_iff.mp stepped
        exact .wake main served
      · cases stepped
  | idle =>
      unfold happen at stepped
      dsimp only at stepped
      split at stepped
      · rename_i since main
        split_ifs at stepped with waited due
        · obtain ⟨line, worked, rfl⟩ := Option.map_eq_some_iff.mp stepped
          exact .period main waited.2 due worked
        · cases stepped
          exact .idle main waited.2 (Nat.lt_of_not_le due)
      · cases stepped
  | look =>
      unfold happen at stepped
      dsimp only at stepped
      split at stepped
      · rename_i reason start main
        cases stepped
        exact .look main
      · cases stepped
  | finish =>
      unfold happen at stepped
      dsimp only at stepped
      split at stepped
      · rename_i reason start heard weather main
        cases stepped
        exact .finish main
      · cases stepped

end Process

/-- Which messages were asks, counted from one. -/
def asksOf (heard : List Parts) : List Nat :=
  ((heard.zipIdx 1).filter fun entry => IsAsk entry.1).map Prod.snd

theorem asksOf_concat (heard : List Parts) (parts : Parts) :
    asksOf (heard ++ [parts]) =
      asksOf heard ++ if IsAsk parts then [heard.length + 1] else [] := by
  unfold asksOf
  rw [List.zipIdx_append, List.filter_append, List.map_append]
  split_ifs with ask <;> simp [ask, Nat.add_comm]

theorem le_of_mem_asksOf {heard : List Parts} {asked : Nat}
    (member : asked ∈ asksOf heard) : asked ≤ heard.length := by
  obtain ⟨entry, kept, rfl⟩ := List.mem_map.mp member
  have below := (List.mem_zipIdx (List.mem_filter.mp kept).1).2.1
  omega

/-- The ask that a reason is about. -/
def Reason.asked : Reason → Option Nat
  | .ask _ asked => some asked
  | _ => none

def Main.reason : Main → Option Reason
  | .waiting _ => none
  | .probing reason _ => some reason
  | .publishing reason _ _ _ => some reason

namespace Process

variable {prost : Prost} {process after : Process} {event : Event} {time : Nat}

/-- Why the sweeps began, with the one that is not over. -/
def reasons (process : Process) : List Reason :=
  process.sweeps.map Sweep.reason ++ process.main.reason.toList

/-- The weather was the newest, and the ask was heard before it was taken. -/
structure Taken (prost : Prost) (heard : List Parts) (reason : Reason)
    (count : Nat) (weather : Option Weather) : Prop where
  within : count ≤ heard.length
  newest : weather = ((heard.take count).foldl (Listener.hear prost) {}).weather
  asked : ∀ asked ∈ reason.asked, asked ≤ count

theorem Taken.later {heard : List Parts} {reason : Reason} {count : Nat}
    {weather : Option Weather} (taken : Taken prost heard reason count weather)
    (parts : Parts) : Taken prost (heard ++ [parts]) reason count weather where
  within := by
    rw [List.length_append]
    exact Nat.le_add_right_of_le taken.within
  newest := by
    rw [List.take_append_of_le_length taken.within]
    exact taken.newest
  asked := taken.asked

/-- What the threads agree on. -/
structure Sound (prost : Prost) (process : Process) : Prop where
  listener : process.listener = process.heard.foldl (Listener.hear prost) {}
  begun : process.line.begun = process.reasons.length
  account : process.reasons.filterMap Reason.asked ++
    process.line.waiting.map Prod.snd = asksOf process.heard
  tickets : ∀ number ticket asked,
    process.reasons[number]? = some (Reason.ask ticket asked) → ticket = number
  swept : ∀ sweep ∈ process.sweeps,
    Taken prost process.heard sweep.reason sweep.heard sweep.weather
  taken : ∀ reason start count weather,
    process.main = .publishing reason start count weather →
      Taken prost process.heard reason count weather

theorem reasons_waiting {since : Nat} (main : process.main = .waiting since) :
    process.reasons = process.sweeps.map Sweep.reason := by
  rw [reasons, main]
  exact List.append_nil _

/-- Nothing new was heard and nothing begun. -/
theorem Sound.goes_on {other : Process} (sound : process.Sound prost)
    (heard : other.heard = process.heard)
    (listener : other.listener = process.listener)
    (line : other.line = process.line)
    (reasons : other.reasons = process.reasons)
    (swept : ∀ sweep ∈ other.sweeps,
      Taken prost process.heard sweep.reason sweep.heard sweep.weather)
    (taken : ∀ reason start count weather,
      other.main = .publishing reason start count weather →
        Taken prost process.heard reason count weather) :
    other.Sound prost where
  listener := by rw [listener, heard, sound.listener]
  begun := by rw [line, reasons, sound.begun]
  account := by rw [reasons, line, heard, sound.account]
  tickets := by
    rw [reasons]
    exact sound.tickets
  swept := by
    rw [heard]
    exact swept
  taken := by
    rw [heard]
    exact taken

/-- The main thread begins a sweep: the reasons have one more, which is not about
an ask or is about the oldest that waited. -/
theorem Sound.begins {since : Nat} {reason : Reason} {line : TicketQueue Nat}
    (sound : process.Sound prost) (main : process.main = .waiting since)
    (begun : line.begun = process.line.begun + 1)
    (oldest : process.line.waiting.map Prod.snd =
      reason.asked.toList ++ line.waiting.map Prod.snd)
    (ticket : ∀ ticket asked, reason = .ask ticket asked →
      ticket = process.line.begun) :
    Sound prost
      { process with
        clock := time, line := line, main := .probing reason time } := by
  have before := reasons_waiting main
  have account := sound.account
  have begunBefore := sound.begun
  have tickets := sound.tickets
  rw [before] at account begunBefore tickets
  refine ⟨sound.listener, ?_, ?_, ?_, sound.swept, fun _ _ _ _ wrong => ?_⟩
  · rw [begun, begunBefore]
    simp [reasons, Main.reason]
  · rw [oldest] at account
    rw [← account]
    cases same : reason.asked <;>
      simp [reasons, Main.reason, List.filterMap_append, same]
  · intro number numbered asked there
    change (process.sweeps.map Sweep.reason ++ [reason])[number]? = _ at there
    by_cases earlier : number < (process.sweeps.map Sweep.reason).length
    · rw [List.getElem?_append_left earlier] at there
      exact tickets _ _ _ there
    · rw [List.getElem?_append_right (Nat.le_of_not_lt earlier)] at there
      obtain ⟨within, same⟩ := List.getElem?_eq_some_iff.mp there
      rw [List.getElem_singleton] at same
      rw [ticket _ _ same, begunBefore]
      rw [List.length_singleton] at within
      omega
  · cases wrong

theorem boot_sound (clock : Nat) : (boot clock).Sound prost where
  listener := rfl
  begun := rfl
  account := rfl
  tickets number ticket asked there := by
    cases number <;> simp [boot, reasons, Main.reason] at there
  swept sweep member := by cases member
  taken reason start count weather main := by cases main

theorem step_sound (sound : process.Sound prost)
    (stepped : process.step prost (event, time) = some after) :
    after.Sound prost := by
  obtain ⟨-, stepped⟩ := stepped_of_step stepped
  cases stepped with
  | hear parts =>
      refine ⟨?_, ?_, ?_, sound.tickets, ?_, ?_⟩
      · change _ = (process.heard ++ [parts]).foldl (Listener.hear prost) {}
        rw [List.foldl_append, ← sound.listener]
        rfl
      · change (if IsAsk parts then _ else _ : TicketQueue Nat).begun =
          process.reasons.length
        rw [← sound.begun]
        split_ifs <;> rfl
      · change process.reasons.filterMap Reason.asked ++
          (if IsAsk parts then _ else _ : TicketQueue Nat).waiting.map Prod.snd =
            asksOf (process.heard ++ [parts])
        rw [asksOf_concat, ← sound.account]
        split_ifs
        · simp [TicketQueue.request]
        · simp
      · exact fun sweep member => (sound.swept sweep member).later parts
      · exact fun reason start count weather main =>
          (sound.taken reason start count weather main).later parts
  | wake main served =>
      obtain ⟨ticket, waiting, begun⟩ := TicketQueue.serve_eq_some served
      apply sound.begins main begun
      · rw [waiting]
        rfl
      · intro other asked same
        cases same
        exact ticket
  | idle main waited early =>
      refine sound.goes_on rfl rfl rfl ?_ sound.swept fun _ _ _ _ wrong => ?_
      · rw [reasons_waiting main]
        exact List.append_nil _
      · cases wrong
  | period main waited due worked =>
      obtain ⟨none, rfl⟩ := TicketQueue.work_eq_some worked
      apply sound.begins main rfl
      · rw [none]
        rfl
      · intro ticket asked wrong
        cases wrong
  | @look reason start main =>
      have same : process.reasons =
          process.sweeps.map Sweep.reason ++ [reason] := by
        rw [reasons, main]
        rfl
      refine sound.goes_on rfl rfl rfl same.symm sound.swept ?_
      intro other begin count weather publishing
      cases publishing
      refine ⟨Nat.le_refl _, by rw [List.take_length, sound.listener], ?_⟩
      intro asked ask
      apply le_of_mem_asksOf
      rw [← sound.account, same]
      apply List.mem_append_left
      exact List.mem_filterMap.mpr ⟨reason, by simp, ask⟩
  | @finish reason start count weather main =>
      refine sound.goes_on rfl rfl rfl ?_ ?_ fun _ _ _ _ wrong => ?_
      · rw [reasons, reasons, main]
        simp [Main.reason]
      · intro sweep member
        obtain earlier | last := List.mem_append.mp member
        · exact sound.swept sweep earlier
        · rw [List.mem_singleton.mp last]
          exact sound.taken _ _ _ _ main
      · cases wrong

/-- The step that heard an ask, and the ticket that the ask got there. -/
def Issued (trace : List (Process × (Event × Nat))) (ticket asked : Nat) : Prop :=
  ∃ entry ∈ trace, (∃ parts, entry.2.1 = .hear parts ∧ IsAsk parts) ∧
    entry.1.heard.length + 1 = asked ∧ entry.1.line.ticket = ticket

theorem Issued.later {trace : List (Process × (Event × Nat))} {ticket asked : Nat}
    (issued : Issued trace ticket asked) (entry : Process × (Event × Nat)) :
    Issued (trace ++ [entry]) ticket asked := by
  obtain ⟨first, member, found⟩ := issued
  exact ⟨first, List.mem_append_left _ member, found⟩

/-- The asks that wait, and those that a sweep was begun for. -/
def Asks (process : Process) (ticket asked : Nat) : Prop :=
  (ticket, asked) ∈ process.line.waiting ∨
    Reason.ask ticket asked ∈ process.reasons

theorem run_sound {clock : Nat} {trace : List (Process × (Event × Nat))}
    {last : Process} (run : Run (step prost) (boot clock) trace last) :
    last.Sound prost :=
  run.kept (boot_sound clock) fun _ _ _ stepped sound => step_sound sound stepped

end Process

namespace Morning

def prost : Prost where
  encodeToVec _ := []
  decode _ := .error "buffer underflow"

/-- An ask during the first sweep, and then two periods. -/
def events : List (Event × Nat) :=
  [(.hear ⟨asBytes "init", .bytes []⟩, SECOND), (.look, 2 * SECOND),
    (.finish, 3 * SECOND), (.wake, 3 * SECOND), (.look, 4 * SECOND),
    (.finish, 5 * SECOND), (.idle, 65 * SECOND + POLL), (.look, 66 * SECOND),
    (.finish, 67 * SECOND), (.idle, 126 * SECOND), (.look, 127 * SECOND),
    (.finish, 128 * SECOND)]

theorem happened :
    (follow (Process.step prost) (Process.boot 0) events).isSome := by
  decide +kernel

def trace : List (Process × (Event × Nat)) :=
  ((follow (Process.step prost) (Process.boot 0) events).get happened).1

def last : Process :=
  ((follow (Process.step prost) (Process.boot 0) events).get happened).2

theorem run : Run (Process.step prost) (Process.boot 0) trace last :=
  run_of_follow (Option.some_get happened).symm

end Morning

end FaultDaemon
