import Loa.RingDaemon
import Loa.RingDither

/-!
# The animations of the ring

The sequences that the ring plays, as frames of doubles at thirty frames a
second: the breaths, the comet of a scan, and the noise of a glitch.
-/

namespace Ring

open RustFloat

def FPS : F64 := 30

def HOME_PEAK : F64 := 35

def BUSY_PEAK : F64 := 55

def BASE : F64 := 3

def HURTS : List F64 :=
  [85 / 100, 85 / 100, 85 / 100, 18 / 100, 18 / 100, 18 / 100, 18 / 100]

def HURTS_STEP_S : F64 := 28 / 100

def HURTS_S : F64 := 28 / 100 * 7

def ALARM_CYCLE_S : F64 := 3 * (7 / 10) + 2

def MUTE_S : F64 := 10

def BLINK_S : F64 := 4 / 10

def NIGGLE_PERIOD_S : F64 := 20

def HOME_S : F64 := 3 + 8 / 10 + 42 / 10 + 5 / 10

def BUSY_S : F64 := 24 / 10 + 5 / 10 + 34 / 10 + 4 / 10

def GLITCH_S : F64 := 3 / 10

/-- Hue in degrees, saturation and value as a colour from 0 to 255. -/
def hsv (h s v : F64) : Colour :=
  let c := v * s
  let x := c * (1 - |rem (h / 60) 2 - 1|)
  let m := v - c
  let (r, g, b) : Colour :=
    if h < 60 then (c, x, 0)
    else if h < 120 then (x, c, 0)
    else if h < 180 then (0, c, x)
    else if h < 240 then (0, x, c)
    else if h < 300 then (x, 0, c)
    else (c, 0, x)
  ((r + m) * 255, (g + m) * 255, (b + m) * 255)

/-- One colour across the ring. -/
def solid (h s v : F64) : List Colour :=
  List.replicate 24 (hsv h s v)

/-- The phases of a breath. -/
inductive Phase
  | inhale
  | hold
  | exhale
  | rest
  deriving DecidableEq

/-- The frames that a number of seconds takes, one at least. -/
def frameCount (secs : F64) : Nat :=
  asUsize (max (RustFloat.round (secs * FPS)) 1)

variable (libm : Libm)

/-- The brightness of one phase, frame by frame. -/
def easedCurve (secs peak base : F64) (phase : Phase) : List F64 :=
  let n := frameCount secs
  match phase with
  | .hold => List.replicate n peak
  | .rest => List.replicate n base
  | .inhale =>
      (List.range n).map fun (t : Nat) => base + (peak - base) *
        libm.powf (libm.sin ((t : F64) / (n : F64) * libm.pi * (1 / 2)))
          (3 / 2)
  | .exhale =>
      (List.range n).map fun (t : Nat) => base + (peak - base) *
        libm.powf (libm.cos ((t : F64) / (n : F64) * libm.pi * (1 / 2)))
          (3 / 2)

/-- The brightness of one breath. -/
def breathCurve (peak inhaleS holdS exhaleS restS : F64) : List F64 :=
  easedCurve libm inhaleS peak BASE .inhale ++
    easedCurve libm holdS peak BASE .hold ++
    easedCurve libm exhaleS peak BASE .exhale ++
    easedCurve libm restS peak BASE .rest

def homeCurve : List F64 :=
  breathCurve libm HOME_PEAK 3 (8 / 10) (42 / 10) (5 / 10)

def busyCurve : List F64 :=
  breathCurve libm BUSY_PEAK (24 / 10) (5 / 10) (34 / 10) (4 / 10)

/-- The slow drift from green to cyan and back, once a minute. -/
def homeHue (t : F64) : F64 :=
  120 + 45 * (1 / 2 - 1 / 2 * libm.cos (2 * libm.pi * t / 60))

omit libm

/-- The place in a sequence of some length at a time, wrapping. -/
def sampleIndex (length : Nat) (t totalS : F64) : Nat :=
  min (asUsize (rem t totalS / totalS * length)) (length - 1)

def sampleScalar (seq : List F64) (t totalS : F64) : F64 :=
  seq.getD (sampleIndex seq.length t totalS) 0

def sampleFrames (seq : List (List Colour)) (t totalS : F64) : List Colour :=
  seq.getD (sampleIndex seq.length t totalS) []

/-- The comet: a head and the tail behind it. -/
def cometFrame (libm : Libm) (head amp : F64) : List Colour :=
  (List.range 24).map fun (i : Nat) =>
    let d := remEuclid (head - i) 24
    if d < 6 then hsv 150 (7 / 10) (120 * libm.exp (-d * (9 / 10)) * amp / 255)
    else (0, 0, 0)

/-- One lap of the comet, and its tail fading where it stopped. -/
def scanFrames (libm : Libm) (lapS fadeS : F64) : List (List Colour) :=
  let lapN := frameCount lapS
  let headStep : F64 := 24 / (lapN : F64)
  let finalHead := ((lapN - 1 : Nat) : F64) * headStep
  let fadeN := frameCount fadeS
  (List.range lapN).map (fun (s : Nat) => cometFrame libm (s * headStep) 1) ++
    (List.range fadeN).map fun (s : Nat) =>
      cometFrame libm finalHead (1 - (s : F64) / (fadeN : F64))

/-- Red or cyan, as a coin falls. -/
def stutter (coin : Bool) : Colour :=
  if coin then (255, 0, 0) else (0, 255, 255)

/-- The stutter frames of a glitch, twenty-four coins each, and a dark one. -/
def glitchFrames (coin : Nat → Bool) : List (List Colour) :=
  (List.range (frameCount GLITCH_S)).map (fun frame =>
      (List.range 24).map fun led => stutter (coin (24 * frame + led))) ++
    [List.replicate 24 (0, 0, 0)]

/-- The lap and the fade of a scan; the console's is quicker. -/
def scanTimings (ripperdoc : Bool) : F64 × F64 :=
  if ripperdoc then (9 / 10, 3 / 10) else (16 / 10, 5 / 10)

end Ring
