import Loa.FifoChannel
import Loa.OledRenderState

/-!
# The face's frames

Every render goes over an unbounded channel to the thread that owns the glass,
and up to the cortex unless `--fps` trims it.  The thread takes the oldest frame
that is queued, so what it draws is the newest frame only where no burst of
renders has outrun it, and the trim keeps back the last frame of a run like any
other.
-/

namespace Oled

/-- One item for the thread that owns the glass.  `frame` numbers the renders. -/
structure Blit where
  frame : Nat
  buf : Bytes
  dim : Bool
  flip : Bool
  deriving DecidableEq

/-- One frame pushed up: the pixels and the clock. -/
structure Pushed where
  frame : Nat
  face : Bytes
  ts : F64
  deriving DecidableEq

/-- The trim on the pushes. -/
structure Gate where
  every : Option F64
  last : F64 := 0

namespace Gate

def new (fps : Option F64) : Gate where
  every := (fps.filter fun f => 0 < f).map fun f => 1 / f

def allows (gate : Gate) (t : F64) : Bool × Gate :=
  match gate.every with
  | none => (true, gate)
  | some interval =>
      if interval ≤ t - gate.last then (true, { gate with last := t })
      else (false, gate)

end Gate

/-- Where a rendered frame goes: the glass's channel, and the pushes behind the
gate. -/
structure Sinks where
  tx : FifoChannel Blit
  up : List Pushed
  gate : Gate

/-- A render at a time of the daemon's clock, whatever its picture, or the glass
thread ready for its next frame. -/
inductive Event
  | render (buf : Bytes) (dim flip : Bool) (t : F64)
  | take

namespace Sinks

def new (fps : Option F64) : Sinks where
  tx := FifoChannel.empty
  up := []
  gate := Gate.new fps

/-- Send the result wherever it goes. -/
def emit (sinks : Sinks) (buf : Bytes) (dim flip : Bool) (t : F64) : Sinks :=
  let frame := sinks.tx.sent.length
  { tx := sinks.tx.send { frame, buf, dim, flip }
    up :=
      if (sinks.gate.allows t).1 then
        sinks.up ++ [{ frame, face := buf, ts := t }]
      else sinks.up
    gate := (sinks.gate.allows t).2 }

/-- The glass thread receives; it waits where nothing is queued. -/
def receive (sinks : Sinks) : Sinks :=
  match sinks.tx.recv with
  | some (_, tx) => { sinks with tx }
  | none => sinks

def after (sinks : Sinks) : Event → Sinks
  | .render buf dim flip t => sinks.emit buf dim flip t
  | .take => sinks.receive

/-- A schedule from the start of the daemon. -/
def run (fps : Option F64) (schedule : List Event) : Sinks :=
  schedule.foldl after (new fps)

theorem run_append (fps : Option F64) (schedule more : List Event) :
    run fps (schedule ++ more) = more.foldl after (run fps schedule) := by
  simp [run]

theorem run_snoc (fps : Option F64) (schedule : List Event) (event : Event) :
    run fps (schedule ++ [event]) = (run fps schedule).after event := by
  simp [run]

theorem receive_sent (sinks : Sinks) :
    sinks.receive.tx.sent = sinks.tx.sent := by
  unfold receive
  cases received : sinks.tx.recv with
  | none => rfl
  | some taken => exact (FifoChannel.recv_eq_some received).2

theorem receive_queue (sinks : Sinks) :
    sinks.receive.tx.queue = sinks.tx.queue.tail := by
  unfold receive
  cases received : sinks.tx.recv with
  | none => simp [FifoChannel.recv_eq_none_iff.mp received]
  | some taken => simp [(FifoChannel.recv_eq_some received).1]

theorem receive_up (sinks : Sinks) : sinks.receive.up = sinks.up := by
  unfold receive
  split <;> rfl

variable {fps : Option F64} {schedule past later : List Event}

/-- The renders are numbered in the order in which they came, and a push has the
number of one of them. -/
theorem run_numbered (fps : Option F64) (schedule : List Event) :
    (run fps schedule).tx.sent.map Blit.frame =
        List.range (run fps schedule).tx.sent.length ∧
      ∀ pushed ∈ (run fps schedule).up,
        pushed.frame < (run fps schedule).tx.sent.length := by
  induction schedule using List.reverseRecOn with
  | nil =>
      refine ⟨rfl, ?_⟩
      intro pushed member
      cases member
  | append_singleton schedule event induction =>
      obtain ⟨numbered, below⟩ := induction
      rw [run_snoc]
      cases event with
      | take =>
          unfold after
          dsimp only
          rw [receive_sent, receive_up]
          exact ⟨numbered, below⟩
      | render buf dim flip t =>
          simp only [after, emit, FifoChannel.send_sent, List.length_append,
            List.length_singleton, List.map_append, numbered,
            List.map_singleton, List.range_succ, true_and]
          intro pushed member
          split_ifs at member
          · rw [List.mem_append, List.mem_singleton] at member
            obtain earlier | rfl := member
            · have := below pushed earlier
              omega
            · exact Nat.lt_succ_self _
          · have := below pushed member
            omega

theorem run_once (fps : Option F64) (schedule : List Event) :
    (run fps schedule).tx.sent.Nodup := by
  apply List.Nodup.of_map Blit.frame
  rw [(run_numbered fps schedule).1]
  exact List.nodup_range

/-- Renders alone make the queue longer. -/
theorem queue_length_renders (sinks : Sinks) (renders : List Event)
    (alone : Event.take ∉ renders) :
    (renders.foldl after sinks).tx.queue.length =
      sinks.tx.queue.length + renders.length := by
  induction renders generalizing sinks with
  | nil => rfl
  | cons event renders induction =>
      have more := induction (sinks.after event)
        fun member => alone (List.mem_cons_of_mem _ member)
      rw [List.foldl_cons, more]
      cases event with
      | take => exact (alone List.mem_cons_self).elim
      | render buf dim flip t =>
          simp [after, emit]
          omega

end Sinks

def Event.Renders : Event → Prop
  | .render _ _ _ _ => True
  | .take => False

theorem Event.ne_take_of_renders {event : Event} (renders : event.Renders) :
    event ≠ .take := by
  rintro rfl
  exact renders

/-- Two renders with no take between them. -/
def Burst (schedule : List Event) : Prop :=
  ∃ before first second rest, schedule = before ++ first :: second :: rest ∧
    first.Renders ∧ second.Renders

/-- The glass thread comes back for a frame after a burst. -/
def Hurried (schedule : List Event) : Prop :=
  ∃ past later, schedule = past ++ .take :: later ∧ Burst past

section Burst

open Sinks

variable {fps : Option F64} {schedule past later : List Event} {event : Event}

theorem Burst.snoc (burst : Burst schedule) : Burst (schedule ++ [event]) := by
  obtain ⟨before, first, second, rest, rfl, renders⟩ := burst
  exact ⟨before, first, second, rest ++ [event], by simp, renders⟩

/-- A frame that is queued was rendered just now, or there was a burst; two
frames are queued after a burst alone. -/
theorem burst_of_queued (fps : Option F64) (schedule : List Event) :
    (1 ≤ (run fps schedule).tx.queue.length →
        (∃ before last, schedule = before ++ [last] ∧ last.Renders) ∨
          Burst schedule) ∧
      (2 ≤ (run fps schedule).tx.queue.length → Burst schedule) := by
  induction schedule using List.reverseRecOn with
  | nil =>
      have none : (run fps []).tx.queue.length = 0 := rfl
      omega
  | append_singleton schedule event induction =>
      obtain ⟨one, two⟩ := induction
      rw [run_snoc]
      cases event with
      | take =>
          have length : ((run fps schedule).after .take).tx.queue.length =
              (run fps schedule).tx.queue.length - 1 := by
            unfold after
            rw [receive_queue, List.length_tail]
          rw [length]
          constructor
          · intro queued
            exact .inr (two (by omega)).snoc
          · intro queued
            exact (two (by omega)).snoc
      | render buf dim flip t =>
          have length : ((run fps schedule).after
              (.render buf dim flip t)).tx.queue.length =
                (run fps schedule).tx.queue.length + 1 := by
            simp [after, emit]
          rw [length]
          constructor
          · intro queued
            exact .inl ⟨schedule, _, rfl, trivial⟩
          · intro queued
            obtain ⟨before, last, rfl, renders⟩ | burst := one (by omega)
            · exact ⟨before, last, .render buf dim flip t, [], by simp,
                renders, trivial⟩
            · exact burst.snoc

/-- The first take after a burst finds two frames at least. -/
theorem queued_of_hurried (fps : Option F64) (hurried : Hurried schedule) :
    ∃ past later, schedule = past ++ .take :: later ∧
      2 ≤ (run fps past).tx.queue.length := by
  obtain ⟨past, later, rfl, before, first, second, rest, rfl, renders⟩ := hurried
  obtain ⟨alone, more, split, untaken⟩ :
      ∃ alone more, rest ++ .take :: later = alone ++ .take :: more ∧
        Event.take ∉ alone :=
    List.eq_append_cons_of_mem (by simp)
  refine ⟨before ++ first :: second :: alone, more, ?_, ?_⟩
  · simp [split]
  · have grown := queue_length_renders (run fps before)
      (first :: second :: alone) (by
        simp only [List.mem_cons, not_or]
        exact ⟨(Event.ne_take_of_renders renders.1).symm,
          (Event.ne_take_of_renders renders.2).symm, untaken⟩)
    rw [run_append, grown]
    simp only [List.length_cons]
    omega

end Burst

section Newest

open Sinks

/-- The newest frame wins over a schedule: each time the glass thread takes a
frame it is the newest one rendered so far, and at the end the last frame pushed
up is the last one rendered. -/
structure NewestWins (fps : Option F64) (schedule : List Event) : Prop where
  glass : ∀ past later, schedule = past ++ .take :: later →
    ∀ blit tx, (run fps past).tx.recv = some (blit, tx) →
      (run fps past).tx.sent.getLast? = some blit
  upstream : (run fps schedule).up.getLast?.map Pushed.frame =
    (run fps schedule).tx.sent.getLast?.map Blit.frame

/-- The gate is open for the last render. -/
def LastAllowed (fps : Option F64) (schedule : List Event) : Prop :=
  ∀ past buf dim flip t later,
    schedule = past ++ .render buf dim flip t :: later →
    (∀ event ∈ later, event = .take) →
    ((run fps past).gate.allows t).1

variable (fps : Option F64) (schedule : List Event)

theorem newest_iff {past : List Event} {blit : Blit} {tx : FifoChannel Blit}
    (received : (run fps past).tx.recv = some (blit, tx)) :
    (run fps past).tx.sent.getLast? = some blit ↔
      (run fps past).tx.queue.length = 1 := by
  rw [FifoChannel.recv_newest_iff (run_once fps past) received,
    (FifoChannel.recv_eq_some received).1, List.length_cons,
    ← List.length_eq_zero_iff]
  omega

theorem glass_iff :
    (∀ past later, schedule = past ++ .take :: later →
      ∀ blit tx, (run fps past).tx.recv = some (blit, tx) →
        (run fps past).tx.sent.getLast? = some blit) ↔
      ¬ Hurried schedule := by
  constructor
  · intro newest hurried
    obtain ⟨past, later, split, queued⟩ := queued_of_hurried fps hurried
    cases received : (run fps past).tx.recv with
    | none =>
        rw [FifoChannel.recv_eq_none_iff] at received
        simp [received] at queued
    | some taken =>
        have single := (newest_iff fps received).mp
          (newest past later split _ _ received)
        omega
  · intro unhurried past later split blit tx received
    rw [newest_iff fps received]
    have one : 1 ≤ (run fps past).tx.queue.length := by
      rw [(FifoChannel.recv_eq_some received).1]
      simp
    have unburst : ¬ Burst past := fun burst =>
      unhurried ⟨past, later, split, burst⟩
    have := mt (burst_of_queued fps past).2 unburst
    omega

/-- Takes move no frame up and render none. -/
theorem foldl_takes (sinks : Sinks) {takes : List Event}
    (each : ∀ event ∈ takes, event = .take) :
    (takes.foldl after sinks).up = sinks.up ∧
      (takes.foldl after sinks).tx.sent = sinks.tx.sent := by
  induction takes generalizing sinks with
  | nil => exact ⟨rfl, rfl⟩
  | cons event takes induction =>
      obtain rfl := each event List.mem_cons_self
      have rest := induction sinks.receive
        fun event member => each event (List.mem_cons_of_mem _ member)
      rw [receive_up, receive_sent] at rest
      exact rest

/-- A schedule is takes alone, or takes behind its last render. -/
theorem takes_or_last_render :
    (∀ event ∈ schedule, event = .take) ∨
      ∃ past buf dim flip t later,
        schedule = past ++ .render buf dim flip t :: later ∧
          ∀ event ∈ later, event = .take := by
  induction schedule with
  | nil => simp
  | cons event schedule induction =>
      obtain takes | ⟨past, buf, dim, flip, t, later, rfl, takes⟩ := induction
      · cases event with
        | take =>
            left
            intro event member
            obtain rfl | member := List.mem_cons.mp member
            · rfl
            · exact takes event member
        | render buf dim flip t =>
            exact .inr ⟨[], buf, dim, flip, t, schedule, rfl, takes⟩
      · exact .inr ⟨event :: past, buf, dim, flip, t, later, rfl, takes⟩

/-- A schedule's last render is its only one with takes alone behind it. -/
theorem last_render_unique {past other later rest : List Event}
    {first second : Event} (renders : first.Renders) (others : second.Renders)
    (same : past ++ first :: later = other ++ second :: rest)
    (takes : (∀ event ∈ later, event = .take) ∧
      ∀ event ∈ rest, event = .take) :
    past = other ∧ first = second := by
  obtain ⟨middle, front, back⟩ | ⟨middle, front, back⟩ :=
    List.append_eq_append_iff.mp same
  · cases middle with
    | nil => simp_all
    | cons event middle =>
        exfalso
        apply Event.ne_take_of_renders others
        apply takes.1
        simp only [List.cons_append, List.cons.injEq] at back
        simp [back.2]
  · cases middle with
    | nil => simp_all
    | cons event middle =>
        exfalso
        apply Event.ne_take_of_renders renders
        apply takes.2
        simp only [List.cons_append, List.cons.injEq] at back
        simp [back.2]

/-- The push of the newest frame, where the gate is open for it. -/
theorem upstream_iff :
    (run fps schedule).up.getLast?.map Pushed.frame =
        (run fps schedule).tx.sent.getLast?.map Blit.frame ↔
      LastAllowed fps schedule := by
  obtain takes | ⟨past, buf, dim, flip, t, later, rfl, takes⟩ :=
    takes_or_last_render schedule
  · obtain ⟨up, sent⟩ := foldl_takes (Sinks.new fps) takes
    unfold run LastAllowed
    rw [up, sent]
    constructor
    · rintro - past buf dim flip t later rfl -
      have taken := takes (.render buf dim flip t) (by simp)
      cases taken
    · intro _
      rfl
  · have whole : run fps (past ++ .render buf dim flip t :: later) =
        later.foldl after ((run fps past).emit buf dim flip t) :=
      run_append fps past _
    obtain ⟨up, sent⟩ :=
      foldl_takes ((run fps past).emit buf dim flip t) takes
    rw [whole, up, sent]
    have only : LastAllowed fps (past ++ .render buf dim flip t :: later) ↔
        ((run fps past).gate.allows t).1 := by
      constructor
      · intro allowed
        exact allowed past buf dim flip t later rfl takes
      · intro allowed other buf' dim' flip' t' rest split others
        obtain ⟨rfl, same⟩ := last_render_unique
          (show (Event.render buf dim flip t).Renders from trivial)
          (show (Event.render buf' dim' flip' t').Renders from trivial)
          split ⟨takes, others⟩
        cases same
        exact allowed
    rw [only]
    by_cases allowed : ((run fps past).gate.allows t).1
    · simp [emit, allowed]
    · have below := (run_numbered fps past).2
      simp only [emit, FifoChannel.send_sent, List.getLast?_concat,
        Option.map_some, allowed]
      constructor
      · intro same
        obtain ⟨pushed, last, number⟩ := Option.map_eq_some_iff.mp same
        have := below pushed (List.mem_of_getLast? last)
        omega
      · simp

/-- The newest frame wins exactly where the glass thread never comes back for a
frame after a burst and the gate is open for the last render. -/
theorem newest_wins_iff :
    NewestWins fps schedule ↔
      ¬ Hurried schedule ∧ LastAllowed fps schedule := by
  constructor
  · intro wins
    exact ⟨(glass_iff fps schedule).mp wins.glass,
      (upstream_iff fps schedule).mp wins.upstream⟩
  · intro condition
    exact ⟨(glass_iff fps schedule).mpr condition.1,
      (upstream_iff fps schedule).mpr condition.2⟩

/-- Two renders outrun the glass thread, which then draws the first of them; a
trim to one frame a second keeps back the second of two renders half a second
apart. -/
theorem newest_loses :
    ¬ NewestWins none
        [.render [] false false 10, .render [] false false 11, .take] ∧
      ¬ NewestWins (some 1)
        [.render [] false false 10, .take,
          .render [] false false (21 / 2), .take] := by
  constructor
  · intro wins
    have drawn := wins.glass
      [.render [] false false 10, .render [] false false 11] [] rfl
      ⟨0, [], false, false⟩ _ rfl
    revert drawn
    decide
  · intro wins
    have pushed := wins.upstream
    revert pushed
    decide +kernel

end Newest

end Oled
