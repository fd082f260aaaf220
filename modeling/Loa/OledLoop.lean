import Loa.FaceRenderer
import Loa.TransitionRun

/-!
# The face's loop and the end of a wash

The loop draws when something is news and when a wash is due, and sleeps in
between.  Here it runs over any clock that does not go back and any news, to see
which of its wakes takes a wash off the glass once the wash is over.
-/

namespace Oled

open TransitionRun

/-- A frame that was sent to the glass, and whether the wash drew it. -/
structure Emitted where
  buf : Bytes
  washed : Bool
  deriving DecidableEq

/-- What wakes the loop. -/
inductive Wake
  | news (topic : String) (env : Wire.Envelope)
  | feedError
  | timer

/-- A wake, and the clock as it is read when the news is held, for the frame,
and when the next sleep is set. -/
structure Turn where
  wake : Wake
  heard : F64
  t : F64
  later : F64

/-- The loop between two wakes; the clock is the one it read last. -/
structure Loop (p : Platform) where
  held : RenderState
  renderer : FaceRenderer p
  nextWake : F64
  clock : F64
  last : Option Emitted

namespace Loop

variable {p : Platform}

def start (p : Platform) (now : F64) : Loop p where
  held := { clockNow := now }
  renderer := FaceRenderer.new p now
  nextWake := min (WASH_EVERY_S * 2) 1
  clock := now
  last := none

/-- The held view that a wake leaves. -/
def holding (d : Loop p) (turn : Turn) : RenderState :=
  match turn.wake with
  | .news topic env => d.held.hold turn.heard topic env
  | _ => d.held

/-- The wake emits a frame. -/
def Emits (d : Loop p) (turn : Turn) : Prop :=
  match turn.wake with
  | .news _ _ => True
  | .feedError => False
  | .timer => d.renderer.nextWash ≤ turn.t

instance (d : Loop p) (turn : Turn) : Decidable (d.Emits turn) := by
  unfold Emits
  split <;> infer_instance

end Loop

/-- The frame of this time is one of a wash. -/
def FaceRenderer.Washes {p : Platform} (r : FaceRenderer p) (st : RenderState)
    (t : F64) : Prop :=
  t < (r.arm (faceMode st) t).washUntil

instance {p : Platform} (r : FaceRenderer p) (st : RenderState) (t : F64) :
    Decidable (r.Washes st t) :=
  inferInstanceAs (Decidable (_ < _))

namespace Loop

variable {p : Platform}

/-- Render now and send the result. -/
def emit (d : Loop p) (t : F64) : Loop p :=
  let (buf, renderer) := d.renderer.render d.held t
  { d with
    renderer
    last := some { buf, washed := decide (d.renderer.Washes d.held t) } }

/-- Sleep to the next wash and a little longer, within bounds. -/
def nap (d : Loop p) (t : F64) : F64 :=
  let edge := max d.renderer.nextWash t
  max (1 / 20) (min (edge - t + 1 / 5) 5)

/-- One turn of the loop; the clock does not go back. -/
def turn (d : Loop p) (turn : Turn) : Option (Loop p) :=
  if d.clock ≤ turn.heard ∧ turn.heard ≤ turn.t ∧ turn.t ≤ turn.later then
    let woken := { d with held := d.holding turn }
    let drawn := if d.Emits turn then woken.emit turn.t else woken
    some { drawn with nextWake := drawn.nap turn.later, clock := turn.later }
  else none

/-- The wash is over at this time, and its frame is still the last one. -/
def Stale (d : Loop p) (t : F64) : Prop :=
  (∃ frame ∈ d.last, frame.washed) ∧ d.renderer.washUntil ≤ t

/-- A wake that finds a frame of a wash that is over takes it off the glass. -/
def Clears (d : Loop p) (turn : Turn) : Prop :=
  d.Stale turn.t →
    d.Emits turn ∧ ¬ d.renderer.Washes (d.holding turn) turn.t

/-- Such a wake is one of news, with no new wash due or the face off, or one
that a due wash was slept for, with the face off. -/
def Timely (d : Loop p) (turn : Turn) : Prop :=
  d.Stale turn.t →
    match turn.wake with
    | .news _ _ =>
        turn.t < d.renderer.nextWash ∨ faceMode (d.holding turn) = "off"
    | .feedError => False
    | .timer =>
        d.renderer.nextWash ≤ turn.t ∧ faceMode (d.holding turn) = "off"

/-- The wash on the glass has not ended yet. -/
def Fresh (d : Loop p) (t : F64) : Prop :=
  (∃ frame ∈ d.last, frame.washed) → t < d.renderer.washUntil

end Loop

theorem FaceRenderer.washes_iff {p : Platform} {r : FaceRenderer p}
    {st : RenderState} {t : F64} (ended : r.washUntil ≤ t) :
    r.Washes st t ↔ faceMode st ≠ "off" ∧ r.nextWash ≤ t := by
  unfold FaceRenderer.Washes FaceRenderer.arm
  split
  · rename_i due
    refine iff_of_true ?_ due
    change t < t + 5
    linarith
  · rename_i idle
    exact iff_of_false (not_lt.mpr ended) idle

namespace Loop

variable {p : Platform}

theorem clears_iff (d : Loop p) (turn : Turn) :
    d.Clears turn ↔ d.Timely turn := by
  refine forall_congr' fun stale => ?_
  rw [FaceRenderer.washes_iff stale.2]
  obtain ⟨wake, heard, t, later⟩ := turn
  cases wake with
  | news topic env =>
      simp only [Emits, true_and, not_and_or, not_not, not_le]
      exact or_comm
  | feedError => simp [Emits]
  | timer =>
      simp only [Emits, not_and_or, not_not, not_le]
      refine and_congr_right fun due => ?_
      exact or_iff_left (not_lt.mpr due)

/-- A frame moves the end of the wash only where a wash begins with it. -/
theorem render_washUntil (r : FaceRenderer p) (st : RenderState) (t : F64) :
    (r.render st t).2.washUntil = (r.arm (faceMode st) t).washUntil := by
  have washed (other : FaceRenderer p) :
      (other.wash t).2.washUntil = other.washUntil := by
    unfold FaceRenderer.wash
    split <;> rfl
  have rebuilt (other : FaceRenderer p) (mode : String) (st : RenderState) :
      (other.rebuild mode st t).washUntil = other.washUntil := by
    unfold FaceRenderer.rebuild
    split <;> rfl
  have painted (other : FaceRenderer p) (dt : F64) (st : RenderState) :
      (other.paint dt st t).2.washUntil = other.washUntil := by
    unfold FaceRenderer.paint
    split <;> rfl
  have armed : ({ r with lastT := t }.arm (faceMode st) t).washUntil =
      (r.arm (faceMode st) t).washUntil := by
    unfold FaceRenderer.arm
    dsimp only
    split <;> rfl
  unfold FaceRenderer.render
  dsimp only
  split
  · rw [washed, armed]
  · rw [painted, rebuilt, armed]

theorem emit_fresh (d : Loop p) (t : F64) : (d.emit t).Fresh t := by
  rintro ⟨frame, last, washed⟩
  cases last
  change t < (d.renderer.render d.held t).2.washUntil
  rw [render_washUntil]
  exact of_decide_eq_true washed

/-- After a timely wake the glass has no frame of a wash that is over. -/
theorem fresh_turn {d after : Loop p} {turn : Turn}
    (timely : d.Timely turn) (turned : d.turn turn = some after) :
    after.Fresh turn.t := by
  unfold Loop.turn at turned
  split at turned
  · cases turned
    by_cases emits : d.Emits turn
    · rw [if_pos emits]
      exact emit_fresh _ turn.t
    · rw [if_neg emits]
      intro washed
      by_contra ended
      have clears := (clears_iff d turn).mpr timely
      exact emits (clears ⟨washed, not_lt.mp ended⟩).1
  · cases turned

/-- In every run of the loop, each wake takes the frame of a wash that is over
off the glass exactly when each is timely, and then no such frame is ever left
behind a wake. -/
theorem wash_cleared_iff {now : F64} {trace : List (Loop p × Turn)}
    {last : Loop p} (run : Run turn (start p now) trace last) :
    (Along Clears trace ↔ Along Timely trace) ∧
      (Along Timely trace → ∀ turn ∈ (trace.map Prod.snd).getLast?,
        last.Fresh turn.t) := by
  constructor
  · unfold Along
    simp only [clears_iff]
  · intro along turn member
    cases run with
    | stay => cases member
    | move run turned =>
        rw [List.map_append, List.map_singleton, List.getLast?_concat] at member
        cases member
        exact fresh_turn (along_concat.mp along).2 turned

end Loop

/-- The timer wakes only after its sleep. -/
def Slept {p : Platform} (d : Loop p) (turn : Turn) : Prop :=
  match turn.wake with
  | .timer => d.clock + d.nextWake ≤ turn.t
  | _ => True

/-- The next state is there where the clock has not gone back. -/
theorem Loop.turn_some {p : Platform} {d : Loop p} {turn : Turn}
    (forward : d.clock ≤ turn.heard ∧ turn.heard ≤ turn.t ∧
      turn.t ≤ turn.later) :
    ∃ after, d.turn turn = some after :=
  ⟨_, if_pos forward⟩

namespace Trial

def dueWash : Turn := ⟨.timer, 300, 300, 300⟩

def nextTimer : Turn := ⟨.timer, 305, 305, 305⟩

def idle : Loop platform := Loop.start platform 0

/-- The loop behind a wash that the timer found due. -/
def washing : Loop platform :=
  { idle.emit 300 with nextWake := (idle.emit 300).nap 300, clock := 300 }

theorem turn_dueWash : idle.turn dueWash = some washing := by
  have forward : idle.clock ≤ dueWash.heard ∧ dueWash.heard ≤ dueWash.t ∧
      dueWash.t ≤ dueWash.later := by
    decide +kernel
  have emits : idle.Emits dueWash := by decide +kernel
  unfold Loop.turn
  rw [if_pos forward]
  dsimp only
  rw [if_pos emits]
  rfl

theorem stale_washing : washing.Stale 305 := by
  refine ⟨⟨_, rfl, ?_⟩, ?_⟩
  · decide +kernel
  · decide +kernel

end Trial

/-- With no news, the wash stays on the glass. -/
theorem wash_left_on_glass :
    ¬ ∀ (p : Platform) (now : F64) (trace : List (Loop p × Turn))
        (last : Loop p), Run Loop.turn (Loop.start p now) trace last →
      Along Slept trace → Along Loop.Clears trace := by
  intro always
  have forward : Trial.washing.clock ≤ Trial.nextTimer.heard ∧
      Trial.nextTimer.heard ≤ Trial.nextTimer.t ∧
      Trial.nextTimer.t ≤ Trial.nextTimer.later := by
    decide +kernel
  obtain ⟨after, turned⟩ := Loop.turn_some forward
  have run := (Run.stay.move Trial.turn_dueWash).move turned
  have slept : Along Slept
      (([] ++ [(Trial.idle, Trial.dueWash)]) ++
        [(Trial.washing, Trial.nextTimer)]) := by
    rw [along_concat, along_concat]
    refine ⟨⟨fun _ member => (by cases member), ?_⟩, ?_⟩
    · change Trial.idle.clock + Trial.idle.nextWake ≤ 300
      decide +kernel
    · change Trial.washing.clock + Trial.washing.nextWake ≤ 305
      decide +kernel
  have clears := (along_concat.mp (always _ 0 _ _ run slept)).2
  have emits := (clears Trial.stale_washing).1
  revert emits
  decide +kernel

/-- The loop that has drawn its first wash. -/
theorem wash_cleared_iff_dueWash :
    (Along Loop.Clears [(Trial.idle, Trial.dueWash)] ↔
        Along Loop.Timely [(Trial.idle, Trial.dueWash)]) ∧
      (Along Loop.Timely [(Trial.idle, Trial.dueWash)] →
        ∀ turn ∈ ([(Trial.idle, Trial.dueWash)].map Prod.snd).getLast?,
          Trial.washing.Fresh turn.t) :=
  Loop.wash_cleared_iff (Run.stay.move Trial.turn_dueWash)

end Oled
