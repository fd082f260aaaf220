import Loa.RingTells

/-!
# The renderer of the ring

The clock and the error diffusion behind every frame.  A renderer picks the
tell, draws its picture at the ring's own clock, and dithers the picture into
bytes; a held one-shot is spent when its own sequence has finished.
-/

namespace Ring

open RustFloat
open RingDaemon (Tell RingInput OneShot)

/-- One rendered frame: the tell that spoke, and its bytes. -/
structure Frame where
  tell : Tell
  rgb : Bytes
  deriving DecidableEq

/-- All that persists across renders.  The coins of the glitch come off one
stream, `tossed` of them so far. -/
structure Renderer extends RingDaemon.Renderer where
  homeSeq : List F64
  busySeq : List F64
  scanSlow : List (List Colour)
  scanFast : List (List Colour)
  glitchLen : Nat
  tossed : Nat := 0
  tell : Option Tell := none
  dither : Dither := Dither.new
  niggleNext : F64 := 0
  niggleUntil : F64 := 0

/-- Three red pulses with gaps, and a rest. -/
def alarm (t : F64) : List Colour :=
  let p := rem t ALARM_CYCLE_S
  if 3 * (7 / 10) ≤ p then solid 0 0 0
  else if rem p (7 / 10) < 4 / 10 then solid 0 1 1
  else solid 0 0 0

/-- Deep red, in seven steps. -/
def hurts (t : F64) : List Colour :=
  let i := asUsize (rem t HURTS_S / HURTS_STEP_S)
  solid 0 1 (HURTS.getD (min i (HURTS.length - 1)) 0)

/-- Dark, and one dim blink at the end of each period. -/
def mute (t : F64) : List Colour :=
  solid 0 0 (if MUTE_S - BLINK_S ≤ rem t MUTE_S then 6 / 100 else 0)

namespace Renderer

variable (libm : Libm) (coins : Nat → Bool)

def new : Renderer where
  homeSeq := homeCurve libm
  busySeq := busyCurve libm
  scanSlow := scanFrames libm (16 / 10) (5 / 10)
  scanFast := scanFrames libm (9 / 10) (3 / 10)
  glitchLen := (glitchFrames fun _ => true).length

/-- Note a one-shot record at a time of the ring's clock. -/
def noteOneshot (renderer : Renderer) (stateWord : String) (ts t : F64) :
    Renderer :=
  { renderer with
    toRenderer := renderer.toRenderer.noteOneshot stateWord ts t }

/-- The amber breath. -/
def busy (renderer : Renderer) (t : F64) : List Colour :=
  solid 45 1 (sampleScalar renderer.busySeq t BUSY_S / 255)

/-- The green breath, its hue drifting. -/
def breath (renderer : Renderer) (t : F64) : List Colour :=
  solid (homeHue libm t) 1 (sampleScalar renderer.homeSeq t HOME_S / 255)

/-- When the next amber tick starts and when the current one ends. -/
def niggle (renderer : Renderer) (t : F64) (input : RingInput) : Renderer :=
  if input.cond = .niggle ∧ renderer.niggleNext ≤ t then
    { renderer with
      niggleNext := t + NIGGLE_PERIOD_S
      niggleUntil := t + 36 / 100 }
  else renderer

/-- The breath, with an amber tick on it while something niggles. -/
def home (renderer : Renderer) (t : F64) (input : RingInput) :
    List Colour × Renderer :=
  let renderer := renderer.niggle t input
  if input.cond = .niggle ∧ t < renderer.niggleUntil then
    (solid 38 1
      (if t < renderer.niggleUntil - 18 / 100 then 55 / 100 else 10 / 100),
      renderer)
  else (renderer.breath libm t, renderer)

/-- The scan that is held; past its lap and its fade it is spent. -/
def scan (renderer : Renderer) (t : F64) (input : RingInput) :
    Option (List Colour) × Renderer :=
  match renderer.oneshot with
  | none => (none, renderer)
  | some os =>
      let total :=
        (scanTimings input.ripperdoc).1 + (scanTimings input.ripperdoc).2
      let elapsed := t - os.start
      if total < elapsed then (none, { renderer with oneshot := none })
      else
        let seq :=
          if input.ripperdoc then renderer.scanFast else renderer.scanSlow
        (some (sampleFrames seq elapsed total), renderer)

/-- The glitch that is held: fresh coins for each frame, and a dark tail. -/
def glitch (renderer : Renderer) (t : F64) :
    Option (List Colour) × Renderer :=
  match renderer.oneshot with
  | none => (none, renderer)
  | some os =>
      let elapsed := t - os.start
      if GLITCH_S < elapsed then (none, { renderer with oneshot := none })
      else
        let i := min (asUsize (elapsed / GLITCH_S * renderer.glitchLen))
          (renderer.glitchLen - 1)
        if renderer.glitchLen - 1 ≤ i then
          (some (List.replicate 24 (0, 0, 0)), renderer)
        else
          (some ((List.range 24).map fun led =>
              stutter (coins (renderer.tossed + led))),
            { renderer with tossed := renderer.tossed + 24 })

/-- A gated record does not expire: its start rides with the clock. -/
def gate (renderer : Renderer) (kind : Tell) (t : F64) : Renderer :=
  if kind ≠ .scan ∧ kind ≠ .glitch then
    { renderer with
      oneshot := renderer.oneshot.map fun os => { os with start := t } }
  else renderer

/-- The picture of a tell; where the one-shot is spent, home's. -/
def draw (renderer : Renderer) (kind : Tell) (t : F64) (input : RingInput) :
    List Colour × Renderer :=
  match kind with
  | .alarm => (alarm t, renderer)
  | .hurts => (hurts t, renderer)
  | .mute => (mute t, renderer)
  | .busy => (renderer.busy t, renderer)
  | .scan =>
      match renderer.scan t input with
      | (some frame, renderer) => (frame, renderer)
      | (none, renderer) => renderer.home libm t input
  | .glitch =>
      match renderer.glitch coins t with
      | (some frame, renderer) => (frame, renderer)
      | (none, renderer) => renderer.home libm t input
  | .home => renderer.home libm t input

/-- The tell that spoke: home, where the one-shot was spent. -/
def spoke (renderer : Renderer) (kind : Tell) : Tell :=
  if (kind = .scan ∨ kind = .glitch) ∧ renderer.oneshot = none then .home
  else kind

/-- A fresh dither where the tell changes. -/
def speak (renderer : Renderer) (tell : Tell) : Renderer :=
  if some tell ≠ renderer.tell then
    { renderer with tell := some tell, dither := Dither.new }
  else renderer

/-- Decide, draw, and dither. -/
def render (renderer : Renderer) (input : RingInput) (t : F64) :
    Frame × Renderer :=
  let kind := renderer.tellNow input
  let (frame, renderer) :=
    (renderer.gate kind t).draw libm coins kind t input
  let tell := renderer.spoke kind
  let renderer := renderer.speak tell
  let (rgb, dither) := renderer.dither.render frame
  ({ tell, rgb }, { renderer with dither })

end Renderer

end Ring
