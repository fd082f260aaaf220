import Loa.DhtDecoder
import Loa.SampledSignal

/-!
# The temperature line

The daemon asks with a low line, hands the line back and then looks at it in a
loop, with the clock behind each look as the stamp of an edge.  Where the sensor
keeps the line longer at a level than a look takes, and its pulses are that much
off the threshold, what is read is what was sent.
-/

namespace Dht

open SampledSignal

/-- 20 ms, in nanoseconds. -/
def DHT_PULSE_WINDOW : Int := 20000000

def DHT_MAX_EDGES : Nat := 84

/-- One turn of the loop: the clock before it, what the line was, if it could be
read, and the clock behind it. -/
structure Turn where
  check : Int
  level : Option Bool
  stamp : Int

/-- The loop, from the level that was seen last. -/
def collectFrom (prev : Bool) (edges : List (Bool × Int)) :
    List Turn → Option (List (Bool × Int))
  | [] => some edges
  | turn :: later =>
      if turn.check < DHT_PULSE_WINDOW ∧ edges.length < DHT_MAX_EDGES then
        turn.level.bind fun level =>
          if level ≠ prev then
            collectFrom level (edges ++ [(level, turn.stamp)]) later
          else collectFrom prev edges later
      else some edges

/-- The widths of the high pulses: an edge that falls with none that rose before
it is dropped. -/
def highsFromEdges : List (Bool × Int) → List Int
  | (true, rose) :: (_, fell) :: later => (fell - rose) :: highsFromEdges later
  | (false, _) :: later => highsFromEdges later
  | [(true, _)] => []
  | [] => []

/-- `collect`, behind the request: the first look, and the turns of the loop. -/
def collect (first : Option Bool) (turns : List Turn) : Option (List Int) :=
  first.bind fun prev =>
    (collectFrom prev [] turns).bind fun edges =>
      if edges = [] then none else some (highsFromEdges edges)

/-- `Dht`: the pin, and how many reads have failed since the last frame. -/
structure Driver where
  gpio : Int
  fails : UInt32

/-- `read`; a line that cannot be read is no failed read. -/
def Driver.read (dht : Driver) (first : Option Bool) (turns : List Turn) :
    Option (F64 × F64) × Driver :=
  match collect first turns with
  | none => (none, dht)
  | some pulses =>
      if pulses = [] then (none, { dht with fails := dht.fails + 1 })
      else
        match decode pulses with
        | some reading => (some reading, { dht with fails := 0 })
        | none => (none, { dht with fails := dht.fails + 1 })

/-- The turns of the loop that the window lets through. -/
def inWindow (turns : List Turn) : List Turn :=
  turns.takeWhile fun turn => turn.check < DHT_PULSE_WINDOW

/-- A pulse of the sensor: how long the line is low in front of it, and how long
it is high. -/
structure Pulse where
  low : Int
  high : Int

/-- When the line switches for some pulses, from a time at which it is low. -/
def pulseSwitches (start : Int) : List Pulse → List Int
  | [] => []
  | pulse :: later =>
      (start + pulse.low) :: (start + pulse.low + pulse.high) ::
        pulseSwitches (start + pulse.low + pulse.high) later

/-- A width is off its pulse by no more than a slack. -/
def Near (slack : Int) (width : Int) (pulse : Pulse) : Prop :=
  pulse.high - slack ≤ width ∧ width ≤ pulse.high + slack

/-- A pulse is on its bit's side of the threshold, by more than a slack. -/
def Sided (slack : Int) (pulse : Pulse) (bit : Bool) : Prop :=
  if bit then DHT_ONE_NS + slack < pulse.high
  else pulse.high + slack ≤ DHT_ONE_NS

instance (slack : Int) (pulse : Pulse) (bit : Bool) :
    Decidable (Sided slack pulse bit) :=
  inferInstanceAs (Decidable (if bit then _ else _))

/-- What the line does once it was handed back: it is high for a while or is not,
the sensor answers with a pulse of its own, which may have gone by, and sends the
bits of a frame.  All pulses are off the threshold by more than a slack. -/
structure Transmission (frame : Frame) (slack : Int) where
  lead : Option Int
  response : Option Pulse
  bits : List Pulse
  release : Option Int
  responds : ∀ pulse ∈ response, Sided slack pulse true
  sends : List.Forall₂ (Sided slack) bits frame.bits

namespace Transmission

variable {frame : Frame} {slack : Int}

def pulses (sent : Transmission frame slack) : List Pulse :=
  sent.response.toList ++ sent.bits

/-- When the line switches, from the first look on. -/
def switches (sent : Transmission frame slack) (start : Int) : List Int :=
  match sent.lead with
  | some high =>
      (start + high) ::
        (pulseSwitches (start + high) sent.pulses ++ sent.release.toList)
  | none => pulseSwitches start sent.pulses ++ sent.release.toList

end Transmission

/-- What the loop was given: looks in time at the line, the clock before and
behind each, and one turn at least that came too late. -/
structure Watched (gap delay start : Int) (line : Int → Bool)
    (turns : List Turn) (looks : List Look) : Prop where
  paced : Paced gap delay start looks
  seen : List.Forall₂ (fun turn look => turn.check ≤ look.read ∧
    turn.level = some (line look.read) ∧ turn.stamp = look.stamp) turns looks
  closed : ∃ turn ∈ turns, DHT_PULSE_WINDOW ≤ turn.check

/-- The looks in the window go up to a gap before its end. -/
theorem Watched.window {gap delay start : Int} {line : Int → Bool}
    {turns : List Turn} {looks : List Look}
    (watched : Watched gap delay start line turns looks) :
    ∃ seen : List Look, Paced gap delay start seen ∧
      (inWindow turns).map (fun turn => (turn.level, turn.stamp)) =
        seen.map (fun look => (some (line look.read), look.stamp)) ∧
      DHT_PULSE_WINDOW ≤ lastRead start seen + gap := by
  obtain ⟨paced, seen, late, member, closed⟩ := watched
  induction seen generalizing start with
  | nil => cases member
  | @cons turn look turns looks saw _ induction =>
      obtain ⟨⟨onward, near⟩, stamps, rest⟩ := paced
      obtain ⟨before, level, stamp⟩ := saw
      unfold inWindow at induction ⊢
      by_cases within : turn.check < DHT_PULSE_WINDOW
      · have later : late ∈ turns := by
          obtain rfl | later := List.mem_cons.mp member
          · exact absurd within (not_lt.mpr closed)
          · exact later
        obtain ⟨seen, pacedSeen, same, reached⟩ := induction rest later
        refine ⟨look :: seen, ⟨⟨onward, near⟩, stamps, pacedSeen⟩, ?_, reached⟩
        rw [List.takeWhile_cons_of_pos (by simpa using within), List.map_cons,
          List.map_cons, same, level, stamp]
      · refine ⟨[], trivial, ?_, ?_⟩
        · rw [List.takeWhile_cons_of_neg (by simpa using within)]
          rfl
        · change DHT_PULSE_WINDOW ≤ start + gap
          omega

end Dht
