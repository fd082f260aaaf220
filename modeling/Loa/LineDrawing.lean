import Loa.DigitalLine
import Loa.FrameBits
import Loa.MachineInteger

/-!
# A line on the framebuffer

The loop of `Frame::line` goes on until it meets the end point, in 32-bit
arithmetic.  As long as the arithmetic of its error term stays within the 32
bits, in either build, it walks the digital line from one end point to the other
and stops there.
-/

namespace Oled

open I64 (Build)

namespace Frame

/-- The steps and the differences of a line, and the first error term. -/
def slopeIn (build : Build) (x0 y0 x1 y1 : Int) : Option (Slope × Int) := do
  let dx ← I32.abs build (← I32.sub build x1 x0)
  let sx := if x0 < x1 then 1 else -1
  let dy ← I32.neg build (← I32.abs build (← I32.sub build y1 y0))
  let sy := if y0 < y1 then 1 else -1
  let err ← I32.add build dx dy
  some (⟨dx, sx, dy, sy⟩, err)

/-- One turn of the loop behind the plotted point. -/
def Pen.advanceIn (build : Build) (way : Slope) (pen : Pen) : Option Pen := do
  let e2 ← I32.mul build 2 pen.err
  let across ←
    if way.dy ≤ e2 then do
      let err ← I32.add build pen.err way.dy
      let x ← I32.add build pen.x way.sx
      some { pen with err, x }
    else some pen
  if e2 ≤ way.dx then do
    let err ← I32.add build across.err way.dx
    let y ← I32.add build across.y way.sy
    some { across with err, y }
  else some across

/-- The plotted points of a loop that meets the end point within so many
turns. -/
def loopPoints (build : Build) (way : Slope) (x1 y1 : Int) :
    Nat → Pen → Option (List (Int × Int))
  | 0, _ => none
  | turns + 1, pen =>
      if pen.x = x1 ∧ pen.y = y1 then some [(pen.x, pen.y)]
      else do
        let moved ← pen.advanceIn build way
        let rest ← loopPoints build way x1 y1 turns moved
        some ((pen.x, pen.y) :: rest)

/-- The points that a line plots, if it ends within so many turns. -/
def linePointsIn (build : Build) (turns : Nat) (x0 y0 x1 y1 : Int32) :
    Option (List (Int × Int)) := do
  let (way, err) ← slopeIn build x0.toInt y0.toInt x1.toInt y1.toInt
  loopPoints build way x1.toInt y1.toInt turns ⟨x0.toInt, y0.toInt, err⟩

/-- `Frame::line` in the arithmetic of a build. -/
def lineIn (build : Build) (turns : Nat) (f : Frame) (x0 y0 x1 y1 : Int32)
    (on : Bool) : Option Frame := do
  let points ← linePointsIn build turns x0 y0 x1 y1
  some (f.plot points on)

/-- The pen of an unbounded loop after some turns. -/
def penAfter (x0 y0 x1 y1 : Int) (turns : Nat) : Pen :=
  (Pen.advance (slope x0 y0 x1 y1))^[turns]
    ⟨x0, y0, (slope x0 y0 x1 y1).dx + (slope x0 y0 x1 y1).dy⟩

/-- The error term of one turn stays within the bits: twice the term, and the
term behind each step that is taken. -/
structure Pen.TurnFits (way : Slope) (pen : Pen) : Prop where
  doubled : I32.Fits (2 * pen.err)
  across : way.dy ≤ 2 * pen.err → I32.Fits (pen.err + way.dy)
  down : 2 * pen.err ≤ way.dx → I32.Fits (pen.advance way).err

/-- The arithmetic of the error term does not overflow: the differences with
their magnitudes, and every turn up to the end point. -/
structure ErrorFits (x0 y0 x1 y1 : Int) : Prop where
  dx : I32.Fits (x1 - x0).natAbs
  dy : I32.Fits (y1 - y0).natAbs
  turns : ∀ turns,
    (∀ earlier ≤ turns, ¬ ((penAfter x0 y0 x1 y1 earlier).x = x1 ∧
      (penAfter x0 y0 x1 y1 earlier).y = y1)) →
    (penAfter x0 y0 x1 y1 turns).TurnFits (slope x0 y0 x1 y1)

theorem slopeIn_eq {build : Build} {x0 y0 x1 y1 : Int}
    (dx : I32.Fits (x1 - x0).natAbs) (dy : I32.Fits (y1 - y0).natAbs) :
    slopeIn build x0 y0 x1 y1 = some (slope x0 y0 x1 y1,
      (slope x0 y0 x1 y1).dx + (slope x0 y0 x1 y1).dy) := by
  unfold slopeIn I32.sub I32.abs I32.neg I32.add
  simp only [Option.bind_eq_bind]
  rw [I32.settle_bind dx.of_natAbs, I32.settle_bind dx,
    I32.settle_bind dy.of_natAbs, I32.settle_bind dy,
    I32.settle_bind dy.neg_natAbs, I32.settle_bind (dx.natAbs_sub dy)]
  rfl

/-- A turn in 32 bits does what the unbounded turn does, where nothing
overflows. -/
theorem advanceIn_eq {build : Build} {way : Slope} {pen : Pen}
    (fits : pen.TurnFits way) (x : I32.Fits (pen.advance way).x)
    (y : I32.Fits (pen.advance way).y) :
    pen.advanceIn build way = some (pen.advance way) := by
  obtain ⟨doubled, across, down⟩ := fits
  unfold Pen.advanceIn I32.mul I32.add
  unfold Pen.advance at *
  rw [I32.settle_of_fits doubled]
  simp only [Option.bind_eq_bind, Option.bind_some]
  by_cases forward : way.dy ≤ 2 * pen.err
  · simp only [if_pos forward] at x y down ⊢
    rw [I32.settle_of_fits (across forward)]
    by_cases under : 2 * pen.err ≤ way.dx
    · simp only [if_pos under] at x y down ⊢
      simp only [I32.settle_of_fits x, I32.settle_of_fits y,
        I32.settle_of_fits (down under), Option.bind_some]
    · simp only [if_neg under] at x ⊢
      simp only [I32.settle_of_fits x, Option.bind_some]
  · simp only [if_neg forward] at x y down ⊢
    by_cases under : 2 * pen.err ≤ way.dx
    · simp only [if_pos under] at x y down ⊢
      simp only [I32.settle_of_fits y, I32.settle_of_fits (down under),
        Option.bind_some]
    · simp only [if_neg under]

/-- A debug build takes a turn only where nothing overflows. -/
theorem advanceIn_debug {way : Slope} {pen moved : Pen}
    (advanced : pen.advanceIn .debug way = some moved) :
    pen.TurnFits way ∧ moved = pen.advance way := by
  unfold Pen.advanceIn I32.mul I32.add at advanced
  simp only [Option.bind_eq_bind, Option.bind_eq_some_iff, I32.settle_debug] at advanced
  obtain ⟨_, ⟨doubled, rfl⟩, stepped⟩ := advanced
  by_cases forward : way.dy ≤ 2 * pen.err
  · simp only [if_pos forward, Option.bind_eq_some_iff, I32.settle_debug] at stepped
    obtain ⟨_, ⟨across, rfl⟩, _, ⟨-, rfl⟩, _, held, stepped⟩ := stepped
    obtain rfl := Option.some.inj held
    by_cases under : 2 * pen.err ≤ way.dx
    · simp only [if_pos under, Option.bind_eq_some_iff, I32.settle_debug] at stepped
      obtain ⟨_, ⟨down, rfl⟩, _, ⟨-, rfl⟩, moved⟩ := stepped
      have turned : pen.advance way = ⟨pen.x + way.sx, pen.y + way.sy,
          pen.err + way.dy + way.dx⟩ := by
        simp only [Pen.advance, if_pos forward, if_pos under]
      rw [← Option.some.inj moved]
      exact ⟨⟨doubled, fun _ => across, fun _ => turned ▸ down⟩, turned.symm⟩
    · simp only [if_neg under] at stepped
      have turned : pen.advance way = ⟨pen.x + way.sx, pen.y,
          pen.err + way.dy⟩ := by
        simp only [Pen.advance, if_pos forward, if_neg under]
      rw [← Option.some.inj stepped]
      exact ⟨⟨doubled, fun _ => across, fun other => absurd other under⟩,
        turned.symm⟩
  · simp only [if_neg forward, Option.bind_some] at stepped
    by_cases under : 2 * pen.err ≤ way.dx
    · simp only [if_pos under, Option.bind_eq_some_iff, I32.settle_debug] at stepped
      obtain ⟨_, ⟨down, rfl⟩, _, ⟨-, rfl⟩, moved⟩ := stepped
      have turned : pen.advance way = ⟨pen.x, pen.y + way.sy,
          pen.err + way.dx⟩ := by
        simp only [Pen.advance, if_neg forward, if_pos under]
      rw [← Option.some.inj moved]
      exact ⟨⟨doubled, fun other => absurd other forward, fun _ => turned ▸ down⟩,
        turned.symm⟩
    · simp only [if_neg under] at stepped
      have turned : pen.advance way = pen := by
        simp only [Pen.advance, if_neg forward, if_neg under]
      rw [← Option.some.inj stepped]
      exact ⟨⟨doubled, fun other => absurd other forward,
        fun other => absurd other under⟩, turned.symm⟩

section Line

open DigitalLine (place walk next)

variable {build : Build} {x0 y0 x1 y1 : Int} {turns : Nat}

/-- The pen of a walk that has taken these steps. -/
def penAt (x0 y0 x1 y1 : Int) (steps : Nat × Nat) : Pen where
  x := (place (x0, y0) (x1, y1) steps).1
  y := (place (x0, y0) (x1, y1) steps).2
  err := (steps.2 + 1) * ((x1 - x0).natAbs : Int) -
    (steps.1 + 1) * ((y1 - y0).natAbs : Int)

/-- A turn of the loop is a turn of the walk: the error term weighs the distance
from the line behind a step along both axes. -/
theorem advance_penAt (steps : Nat × Nat) :
    (penAt x0 y0 x1 y1 steps).advance (slope x0 y0 x1 y1) =
      penAt x0 y0 x1 y1 (next (x1 - x0).natAbs (y1 - y0).natAbs steps) := by
  have slopeX : (slope x0 y0 x1 y1).sx = DigitalLine.heading x0 x1 := rfl
  have slopeY : (slope x0 y0 x1 y1).sy = DigitalLine.heading y0 y1 := rfl
  have slopeDx : (slope x0 y0 x1 y1).dx = ((x1 - x0).natAbs : Int) := rfl
  have slopeDy : (slope x0 y0 x1 y1).dy = -((y1 - y0).natAbs : Int) := rfl
  obtain ⟨i, j⟩ := steps
  unfold Pen.advance next penAt place
  rw [slopeX, slopeY, slopeDx, slopeDy]
  generalize (x1 - x0).natAbs = across
  generalize (y1 - y0).natAbs = down
  dsimp only
  have forward : -(down : Int) ≤ 2 * ((j + 1) * across - (i + 1) * down) ↔
      (2 * i + 1) * down ≤ 2 * (j + 1) * across := by
    zify
    constructor <;> intro <;> linarith
  have under : 2 * (((j : Int) + 1) * across - (i + 1) * down) ≤ across ↔
      (2 * j + 1) * across ≤ 2 * (i + 1) * down := by
    zify
    constructor <;> intro <;> linarith
  simp only [forward, under]
  split_ifs
  · simp only [Pen.mk.injEq, Nat.cast_succ]
    exact ⟨by ring, by ring, by ring⟩
  · simp only [Pen.mk.injEq, Nat.cast_succ, true_and]
    exact ⟨by ring, by ring⟩
  · simp only [Pen.mk.injEq, Nat.cast_succ, true_and]
    exact ⟨by ring, by ring⟩
  · rfl

theorem penAfter_eq (x0 y0 x1 y1 : Int) (turns : Nat) :
    penAfter x0 y0 x1 y1 turns =
      penAt x0 y0 x1 y1 (walk (x1 - x0).natAbs (y1 - y0).natAbs turns) := by
  unfold penAfter
  induction turns with
  | zero =>
      have start : penAt x0 y0 x1 y1 (0, 0) =
          ⟨x0, y0, (slope x0 y0 x1 y1).dx + (slope x0 y0 x1 y1).dy⟩ := by
        simp [penAt, place, slope, sub_eq_add_neg]
      exact start.symm
  | succ turns induction =>
      rw [Function.iterate_succ_apply', induction, advance_penAt,
        DigitalLine.walk_succ]

/-- The pen meets the end point only when the walk is over. -/
theorem penAt_met {steps : Nat × Nat} :
    (penAt x0 y0 x1 y1 steps).x = x1 ∧ (penAt x0 y0 x1 y1 steps).y = y1 ↔
      steps = ((x1 - x0).natAbs, (y1 - y0).natAbs) := by
  have stop := DigitalLine.place_stop (x0, y0) (x1, y1)
  rw [← (DigitalLine.place_injective (x0, y0) (x1, y1)).eq_iff, stop, Prod.ext_iff]
  rfl

/-- A coordinate of the walk is between those of the end points. -/
theorem fits_place {steps : Nat × Nat} (x0Fits : I32.Fits x0) (y0Fits : I32.Fits y0)
    (x1Fits : I32.Fits x1) (y1Fits : I32.Fits y1)
    (within : steps ≤ ((x1 - x0).natAbs, (y1 - y0).natAbs)) :
    I32.Fits (penAt x0 y0 x1 y1 steps).x ∧
      I32.Fits (penAt x0 y0 x1 y1 steps).y := by
  have coordinate {start stop : Int} {count : Nat} (low : I32.Fits start)
      (high : I32.Fits stop) (within : count ≤ (stop - start).natAbs) :
      I32.Fits (start + DigitalLine.heading start stop * count) := by
    unfold DigitalLine.heading
    split
    · exact low.between high (by omega) (by omega)
    · exact high.between low (by omega) (by omega)
  exact ⟨coordinate x0Fits x1Fits within.1, coordinate y0Fits y1Fits within.2⟩

/-- The points of the walk from some turn on. -/
def pointsFrom (x0 y0 x1 y1 : Int) (turns : Nat) : List (Int × Int) :=
  (DigitalLine.points (x0, y0) (x1, y1)).drop turns

theorem pointsFrom_eq_cons
    (before : turns ≤ DigitalLine.span (x0, y0) (x1, y1)) :
    pointsFrom x0 y0 x1 y1 turns =
      ((penAfter x0 y0 x1 y1 turns).x, (penAfter x0 y0 x1 y1 turns).y) ::
        pointsFrom x0 y0 x1 y1 (turns + 1) := by
  have listed : turns < (DigitalLine.points (x0, y0) (x1, y1)).length := by
    rw [(DigitalLine.traces_points (x0, y0) (x1, y1)).length]
    omega
  unfold pointsFrom
  rw [List.drop_eq_getElem_cons listed, penAfter_eq]
  simp [DigitalLine.points, penAt]

/-- The walk has met the end point at its last turn, and not before. -/
theorem met_iff (before : turns ≤ DigitalLine.span (x0, y0) (x1, y1)) :
    (penAfter x0 y0 x1 y1 turns).x = x1 ∧ (penAfter x0 y0 x1 y1 turns).y = y1 ↔
      turns = DigitalLine.span (x0, y0) (x1, y1) := by
  rw [penAfter_eq, penAt_met]
  constructor
  · intro met
    exact before.antisymm
      (not_lt.mp fun early => DigitalLine.walk_ne early met)
  · rintro rfl
    exact DigitalLine.walk_max _ _

/-- Up to there the walk goes on. -/
theorem lt_span_of_apart (before : turns ≤ DigitalLine.span (x0, y0) (x1, y1))
    (apart : ¬ ((penAfter x0 y0 x1 y1 turns).x = x1 ∧
      (penAfter x0 y0 x1 y1 turns).y = y1)) :
    turns < DigitalLine.span (x0, y0) (x1, y1) :=
  lt_of_le_of_ne before fun last => apart ((met_iff before).mpr last)

theorem apart_of_lt_span (early : turns < DigitalLine.span (x0, y0) (x1, y1)) :
    ¬ ((penAfter x0 y0 x1 y1 turns).x = x1 ∧
      (penAfter x0 y0 x1 y1 turns).y = y1) :=
  fun met => early.ne ((met_iff early.le).mp met)

theorem pointsFrom_span :
    pointsFrom x0 y0 x1 y1 (DigitalLine.span (x0, y0) (x1, y1) + 1) = [] := by
  unfold pointsFrom
  rw [← (DigitalLine.traces_points (x0, y0) (x1, y1)).length, List.drop_length]

theorem advance_penAfter (x0 y0 x1 y1 : Int) (turns : Nat) :
    (penAfter x0 y0 x1 y1 turns).advance (slope x0 y0 x1 y1) =
      penAfter x0 y0 x1 y1 (turns + 1) :=
  (Function.iterate_succ_apply' ..).symm

/-- The unbounded loop plots the rest of the walk, if it is given enough
turns. -/
theorem linePoints_eq {given : Nat}
    (before : turns ≤ DigitalLine.span (x0, y0) (x1, y1))
    (enough : DigitalLine.span (x0, y0) (x1, y1) < turns + given) :
    linePoints (slope x0 y0 x1 y1) x1 y1 given (penAfter x0 y0 x1 y1 turns) =
      pointsFrom x0 y0 x1 y1 turns := by
  induction given generalizing turns with
  | zero => omega
  | succ given induction =>
      rw [pointsFrom_eq_cons before, linePoints]
      split_ifs with met
      · rw [(met_iff before).mp met, pointsFrom_span]
      · have early := lt_span_of_apart before met
        rw [advance_penAfter, induction early (by omega)]

/-- The loop in 32 bits does as well, where nothing overflows. -/
theorem loopPoints_eq (x0Fits : I32.Fits x0) (y0Fits : I32.Fits y0)
    (x1Fits : I32.Fits x1) (y1Fits : I32.Fits y1)
    (fits : ErrorFits x0 y0 x1 y1) {given : Nat}
    (before : turns ≤ DigitalLine.span (x0, y0) (x1, y1))
    (enough : DigitalLine.span (x0, y0) (x1, y1) < turns + given) :
    loopPoints build (slope x0 y0 x1 y1) x1 y1 given (penAfter x0 y0 x1 y1 turns) =
      some (pointsFrom x0 y0 x1 y1 turns) := by
  induction given generalizing turns with
  | zero => omega
  | succ given induction =>
      rw [pointsFrom_eq_cons before, loopPoints]
      split_ifs with met
      · rw [(met_iff before).mp met, pointsFrom_span]
      · have early := lt_span_of_apart before met
        have apart : ∀ earlier ≤ turns,
            ¬ ((penAfter x0 y0 x1 y1 earlier).x = x1 ∧
              (penAfter x0 y0 x1 y1 earlier).y = y1) :=
          fun earlier le => apart_of_lt_span (le.trans_lt early)
        have place := fits_place x0Fits y0Fits x1Fits y1Fits
          (DigitalLine.walk_le early)
        rw [← penAfter_eq, ← advance_penAfter] at place
        rw [advanceIn_eq (fits.turns turns apart) place.1 place.2,
          advance_penAfter]
        simp only [Option.bind_eq_bind, Option.bind_some]
        rw [induction early (by omega)]
        rfl

/-- A loop that ends in a debug build has not overflowed on its way. -/
theorem turnFits_of_loopPoints {given : Nat}
    {points : List (Int × Int)}
    (plotted : loopPoints .debug (slope x0 y0 x1 y1) x1 y1 given
      (penAfter x0 y0 x1 y1 turns) = some points) {later : Nat} (le : turns ≤ later)
    (apart : ∀ earlier ≤ later, ¬ ((penAfter x0 y0 x1 y1 earlier).x = x1 ∧
      (penAfter x0 y0 x1 y1 earlier).y = y1)) :
    (penAfter x0 y0 x1 y1 later).TurnFits (slope x0 y0 x1 y1) := by
  induction given generalizing turns points with
  | zero => cases plotted
  | succ given induction =>
      rw [loopPoints, if_neg (apart turns le)] at plotted
      simp only [Option.bind_eq_bind, Option.bind_eq_some_iff] at plotted
      obtain ⟨moved, advanced, rest, plotted, -⟩ := plotted
      obtain ⟨fits, rfl⟩ := advanceIn_debug advanced
      rcases le.eq_or_lt with rfl | before
      · exact fits
      · rw [advance_penAfter] at plotted
        exact induction plotted before

theorem err_penAfter (x0 y0 x1 y1 : Int) (turns : Nat) :
    (penAfter x0 y0 x1 y1 turns).err =
      ((walk (x1 - x0).natAbs (y1 - y0).natAbs turns).2 + 1) *
          ((x1 - x0).natAbs : Int) -
        ((walk (x1 - x0).natAbs (y1 - y0).natAbs turns).1 + 1) *
          ((y1 - y0).natAbs : Int) := by
  rw [penAfter_eq]
  rfl

/-- The error term is never further from zero than one and a half times the
longer side. -/
theorem err_within (x0 y0 x1 y1 : Int) (turns : Nat) :
    -(3 * DigitalLine.span (x0, y0) (x1, y1) : Int) ≤
        2 * (penAfter x0 y0 x1 y1 turns).err ∧
      2 * (penAfter x0 y0 x1 y1 turns).err ≤
        3 * DigitalLine.span (x0, y0) (x1, y1) := by
  obtain ⟨low, high⟩ :=
    DigitalLine.walk_within (x1 - x0).natAbs (y1 - y0).natAbs turns
  have across : ((x1 - x0).natAbs : Int) ≤ DigitalLine.span (x0, y0) (x1, y1) :=
    Int.ofNat_le.mpr (le_max_left ..)
  have down : ((y1 - y0).natAbs : Int) ≤ DigitalLine.span (x0, y0) (x1, y1) :=
    Int.ofNat_le.mpr (le_max_right ..)
  change -(DigitalLine.span (x0, y0) (x1, y1) : Int) ≤ _ at low
  change _ ≤ (DigitalLine.span (x0, y0) (x1, y1) : Int) at high
  rw [err_penAfter]
  constructor <;> linarith

/-- A line whose longer side is below a third of the range does not overflow. -/
theorem errorFits_of_span
    (small : 3 * DigitalLine.span (x0, y0) (x1, y1) < 2 ^ 31) :
    ErrorFits x0 y0 x1 y1 where
  dx := by
    unfold DigitalLine.span at small
    constructor <;> omega
  dy := by
    unfold DigitalLine.span at small
    constructor <;> omega
  turns turns _ := by
    have slopeDy : (slope x0 y0 x1 y1).dy = -((y1 - y0).natAbs : Int) := rfl
    have here := err_within x0 y0 x1 y1 turns
    have there := err_within x0 y0 x1 y1 (turns + 1)
    have down : (y1 - y0).natAbs ≤ DigitalLine.span (x0, y0) (x1, y1) :=
      le_max_right ..
    refine ⟨?_, fun forward => ?_, fun _ => ?_⟩
    · constructor <;> omega
    · rw [slopeDy] at forward ⊢
      constructor <;> omega
    · rw [advance_penAfter]
      constructor <;> omega

end Line

section Whole

variable {build : Build} {x0 y0 x1 y1 : Int32} {turns : Nat}

/-- Where nothing overflows, a line plots the points of the digital line. -/
theorem linePointsIn_eq
    (fits : ErrorFits x0.toInt y0.toInt x1.toInt y1.toInt)
    (enough : DigitalLine.span (x0.toInt, y0.toInt) (x1.toInt, y1.toInt) < turns) :
    linePointsIn build turns x0 y0 x1 y1 =
      some (DigitalLine.points (x0.toInt, y0.toInt) (x1.toInt, y1.toInt)) := by
  have plotted := @loopPoints_eq build _ _ _ _ 0 (I32.fits_toInt x0)
    (I32.fits_toInt y0) (I32.fits_toInt x1) (I32.fits_toInt y1) fits turns
    (Nat.zero_le _) (by omega)
  unfold linePointsIn
  rw [slopeIn_eq fits.dx fits.dy]
  exact plotted

/-- The unbounded line plots the same points. -/
theorem line_eq (f : Frame) (x0 y0 x1 y1 : Int) (on : Bool) :
    f.line x0 y0 x1 y1 on = f.plot (DigitalLine.points (x0, y0) (x1, y1)) on := by
  have turns : (max (slope x0 y0 x1 y1).dx (-(slope x0 y0 x1 y1).dy)).toNat =
      DigitalLine.span (x0, y0) (x1, y1) := by
    have slopeDx : (slope x0 y0 x1 y1).dx = ((x1 - x0).natAbs : Int) := rfl
    have slopeDy : (slope x0 y0 x1 y1).dy = -((y1 - y0).natAbs : Int) := rfl
    rw [slopeDx, slopeDy]
    unfold DigitalLine.span
    omega
  unfold line
  dsimp only
  rw [turns]
  exact congrArg (f.plot · on)
    (@linePoints_eq x0 y0 x1 y1 0 _ (Nat.zero_le _) (by omega))

/-- Where nothing overflows, a line in 32 bits is the unbounded one. -/
theorem lineIn_eq (fits : ErrorFits x0.toInt y0.toInt x1.toInt y1.toInt)
    (enough : DigitalLine.span (x0.toInt, y0.toInt) (x1.toInt, y1.toInt) < turns)
    (f : Frame) (on : Bool) :
    f.lineIn build turns x0 y0 x1 y1 on =
      some (f.line x0.toInt y0.toInt x1.toInt y1.toInt on) := by
  unfold lineIn
  rw [linePointsIn_eq fits enough, line_eq]
  rfl

/-- The arithmetic does not overflow exactly when the line ends in a debug
build. -/
theorem errorFits_iff_debug :
    ErrorFits x0.toInt y0.toInt x1.toInt y1.toInt ↔
      ∃ turns points, linePointsIn .debug turns x0 y0 x1 y1 = some points := by
  constructor
  · exact fun fits => ⟨_, _, linePointsIn_eq fits (Nat.lt_succ_self _)⟩
  · rintro ⟨turns, points, plotted⟩
    unfold linePointsIn slopeIn I32.sub I32.abs I32.neg I32.add at plotted
    simp only [Option.bind_eq_bind, Option.bind_eq_some_iff, I32.settle_debug] at plotted
    obtain ⟨_, ⟨_, ⟨-, rfl⟩, _, ⟨dx, rfl⟩, _, ⟨-, rfl⟩, _, ⟨dy, rfl⟩, _, ⟨-, rfl⟩,
      _, ⟨-, rfl⟩, started⟩, plotted⟩ := plotted
    obtain rfl := Option.some.inj started
    exact ⟨dx, dy, fun later apart =>
      @turnFits_of_loopPoints x0.toInt y0.toInt x1.toInt y1.toInt 0 turns points
        plotted later (Nat.zero_le _) apart⟩

/-- A line whose error term does not overflow ends after as many points as the
longer side has steps, and one: neighbour by neighbour from one end point to the
other, within half a pixel of the line.  They take the value that is drawn, as
far as they are on the screen, and no other pixel is touched. -/
theorem line_exact (build : Build) (x0 y0 x1 y1 : Int32)
    (fits : ErrorFits x0.toInt y0.toInt x1.toInt y1.toInt) :
    ∃ points, DigitalLine.Traces (x0.toInt, y0.toInt) (x1.toInt, y1.toInt) points ∧
      ∀ turns, points.length ≤ turns →
        linePointsIn build turns x0 y0 x1 y1 = some points ∧
        ∀ (f : Frame) (on : Bool), ∃ after,
          f.lineIn build turns x0 y0 x1 y1 on = some after ∧
          ∀ x < FRAME_WIDTH, ∀ y < FRAME_HEIGHT,
            after.bit x y =
              if ((x : Int), (y : Int)) ∈ points then on else f.bit x y := by
  have traces := DigitalLine.traces_points (x0.toInt, y0.toInt) (x1.toInt, y1.toInt)
  refine ⟨_, traces, fun turns enough => ?_⟩
  rw [traces.length] at enough
  have plotted := @linePointsIn_eq build _ _ _ _ turns fits enough
  refine ⟨plotted, fun f on => ⟨_, lineIn_eq fits enough f on, ?_⟩⟩
  intro x xOn y yOn
  rw [line_eq]
  exact bit_plot f _ on xOn yOn

/-- A line across the screen and beyond its edge. -/
theorem line_exact_across :
    ∃ points, DigitalLine.Traces (-3, 5) (200, 90) points ∧
      ∀ turns, points.length ≤ turns →
        linePointsIn .release turns (-3) 5 200 90 = some points ∧
        ∀ (f : Frame) (on : Bool), ∃ after,
          f.lineIn .release turns (-3) 5 200 90 on = some after ∧
          ∀ x < FRAME_WIDTH, ∀ y < FRAME_HEIGHT,
            after.bit x y =
              if ((x : Int), (y : Int)) ∈ points then on else f.bit x y :=
  line_exact .release (-3) 5 200 90 (errorFits_of_span (by decide))

end Whole

end Frame

end Oled
