import Loa.OledFrame
import Loa.OledRenderState
import Loa.RustFormat

/-!
# The animations

Each mode draws one frame from the clock and the held view.  Only the scope,
with its blips, and the demo, with its glitches, carry a memory of their own
from frame to frame.
-/

namespace Oled

open RustFloat RustFormat

/-- The generator of the `rand` crate. -/
structure Rand where
  StdRng : Type
  seedFromU64 : UInt64 → StdRng
  nextU32 : StdRng → UInt32 × StdRng
  genU8 : StdRng → UInt8 × StdRng
  /-- `gen_range(low..high)`, as for the other two types. -/
  rangeF64 : F64 → F64 → StdRng → F64 × StdRng
  rangeU32 : UInt32 → UInt32 → StdRng → UInt32 × StdRng
  rangeUsize : Nat → Nat → StdRng → Nat × StdRng

/-- What the face draws with and does not compute itself; the offset of the
local clock is read once for the process. -/
structure Platform where
  libm : Libm
  rand : Rand
  fonts : Fonts
  toBits : F64 → UInt64
  localOffsetSecs : Int

def THROTTLE_UV : UInt32 := 0x1

def THROTTLE_THR : UInt32 := 0x4

/-- Truncate toward zero. -/
def trunc (v : F64) : Int :=
  asI64 v

/-- Round half to even. -/
def pyRound (v : F64) : Int :=
  let f : Int := ⌊v⌋
  let d := v - f
  if 1 / 2 < d then asI64 (f + 1)
  else if d < 1 / 2 then asI64 f
  else
    let r := asI64 f
    if r % 2 = 0 then r else r + 1

/-- `as i32` of an `i64`. -/
def wrapI32 (value : Int) : Int :=
  (Int32.ofInt value).toInt

/-- `as i32` of an `f64`. -/
def asI32 (value : F64) : Int :=
  max (-2 ^ 31) (min (truncate value) (2 ^ 31 - 1))

def takeChars (s : String) (n : Nat) : String :=
  String.ofList (s.toList.take n)

/-- The numbers from `low` on, below `high`. -/
def between (low high : Int) : List Int :=
  (List.range (high - low).toNat).map fun step => low + step

/-- The points of a rectangle, row by row. -/
def block (xs ys : List Int) : List (Int × Int) :=
  ys.flatMap fun y => xs.map fun x => (x, y)

/-- The columns of the screen. -/
def columns : List Int :=
  between 0 FRAME_WIDTH

/-- Every `step`-th number below a bound. -/
def strided (step bound : Nat) : List Int :=
  (List.range ((bound + step - 1) / step)).map fun index => (step * index : Nat)

/-- The faint grid around the baseline. -/
def grid (frame : Frame) (base : Int) : Frame :=
  ([-24, -16, -8, 8, 16, 24] : List Int).foldl
    (fun frame dy =>
      let y := base + dy
      if 0 ≤ y ∧ y < FRAME_HEIGHT then
        frame.plot (block (strided 4 FRAME_WIDTH) [y]) true
      else frame)
    frame

/-- The grid shows in windows of three seconds. -/
def gridShows (t : F64) : Bool :=
  rem t 24 < 3

/-- The flat line; the blips are the object's own memory. -/
structure Scope (StdRng : Type) where
  rng : StdRng
  blips : List (Int × F64)
  nextBlip : F64

namespace Scope

variable (p : Platform)

def new (now : F64) (rng : p.rand.StdRng) : Scope p.rand.StdRng :=
  let (wait, rng) := p.rand.rangeF64 8 15 rng
  { rng, blips := [], nextBlip := now + wait }

def tick (scope : Scope p.rand.StdRng) (dt now : F64) : Scope p.rand.StdRng :=
  let aged := scope.blips.map fun (x, age) => (x, age + dt)
  let kept := aged.filter fun (_, age) => age < 5 / 2
  if scope.nextBlip ≤ now then
    let (x, rng) := p.rand.rangeF64 8 (FRAME_WIDTH - 7 : Nat) scope.rng
    let (wait, rng) := p.rand.rangeF64 8 15 rng
    { rng, blips := kept ++ [(wrapI32 (trunc x), 0)], nextBlip := now + wait }
  else { scope with blips := kept }

def draw (scope : Scope p.rand.StdRng) (frame : Frame) (t : F64) : Frame :=
  let sin := p.libm.sin
  let drift := 2 * sin (2 * p.libm.pi * t / 90) * sin (2 * p.libm.pi * t / 23)
  let base := 32 + wrapI32 (pyRound drift)
  let frame := if gridShows t then grid frame base else frame
  let frame := frame.line 0 base (FRAME_WIDTH - 1 : Nat) base true
  let frame := scope.blips.foldl
    (fun frame (x, age) =>
      let h := trunc (14 * (1 - age / (5 / 2)))
      if 0 < h then
        frame.line x (base - wrapI32 h) x (base + wrapI32 h) true
      else frame)
    frame
  let scan := asI32 (rem (t * 40) FRAME_WIDTH)
  (frame.line scan (base - 8) scan (base + 8) true).px scan base true

end Scope

structure Ecg where
  period : F64 := 48
  speed : F64 := 36

namespace Ecg

variable (p : Platform)

def wave (ecg : Ecg) (point : F64) : F64 :=
  let sin := p.libm.sin
  let pi := p.libm.pi
  let pp := point / ecg.period
  if pp < 12 / 100 then 2 * sin (pi * pp / (12 / 100))
  else if pp < 22 / 100 then -6 * sin (pi * (pp - 12 / 100) / (10 / 100))
  else if pp < 34 / 100 then
    22 * p.libm.powf (sin (pi * (pp - 22 / 100) / (12 / 100))) (3 / 2)
  else if pp < 44 / 100 then -5 * sin (pi * (pp - 34 / 100) / (10 / 100))
  else if pp < 60 / 100 then 4 * sin (pi * (pp - 44 / 100) / (16 / 100))
  else 0

def draw (ecg : Ecg) (frame : Frame) (t : F64) : Frame :=
  let off := rem (t * ecg.speed) ecg.period
  let y0 : Int := (FRAME_HEIGHT / 2 : Nat)
  let frame := if gridShows t then grid frame y0 else frame
  columns.foldl
    (fun frame (x : Int) =>
      let point := max (rem (x + off) ecg.period) 0
      let y := wrapI32 (pyRound (y0 - ecg.wave p point))
      (frame.px x y true).px x (y + 1) true)
    frame

end Ecg

structure Ripple where
  amp : F64 := 12
  speed : F64 := 35 / 100
  freq : F64 := 1 / 32

def Ripple.draw (p : Platform) (ripple : Ripple) (frame : Frame) (t : F64) :
    Frame :=
  let sin := p.libm.sin
  let y0 : Int := (FRAME_HEIGHT / 2 : Nat)
  let phase := 2 * p.libm.pi * t * ripple.speed
  columns.foldl
    (fun frame (x : Int) =>
      let a := ripple.amp *
        (6 / 10 + 4 / 10 * sin (phase * (1 / 2) + x * (5 / 100)))
      let y := wrapI32 (pyRound
        (y0 + a * sin (2 * p.libm.pi * x * ripple.freq + phase)))
      frame.px x y true)
    frame

structure Noise where
  density : F64 := 14 / 100

/-- The static is seeded by the clock alone. -/
def Noise.draw (p : Platform) (noise : Noise) (frame : Frame) (t : F64) :
    Frame :=
  let seed := UInt64.ofInt (trunc (t * 12))
  ((block (strided 2 FRAME_WIDTH) (strided 2 FRAME_HEIGHT)).foldl
    (fun (frame, r) (x, y) =>
      let (drawn, r) := p.rand.nextU32 r
      if (drawn.toNat : F64) / 2 ^ 32 < noise.density then
        (frame.px x y true, r)
      else (frame, r))
    (frame, p.rand.seedFromU64 seed)).1

structure Marquee where
  text : String
  speed : F64 := 28

def Marquee.draw (p : Platform) (marquee : Marquee) (frame : Frame) (t : F64) :
    Frame :=
  let tw : Int := Frame.textWidth marquee.text
  let off := trunc (t * marquee.speed) % (tw + FRAME_WIDTH)
  frame.text p.fonts (FRAME_WIDTH - wrapI32 off)
    ((FRAME_HEIGHT / 2 : Nat) - 3) marquee.text true

/-- The demo loop; its glitches come from a generator of its own. -/
structure Showoff (StdRng : Type) where
  rng : StdRng
  stripRows : List Bytes
  stripW : Nat

namespace Showoff

variable (p : Platform)

def CYCLE : F64 := 17

def MSG1 : String := "CLEAN BUS"

def MSG2 : String := "OLD GIRL SEES"

def DEFAULT_TEXT : String := "CLEAN BUS - THE OLD GIRL SEES - LOA - "

def new (rng : p.rand.StdRng) : Showoff p.rand.StdRng :=
  let (stripRows, stripW) := topazStrip p.fonts DEFAULT_TEXT
  { rng, stripRows, stripW }

/-- Whole bytes of a page, in a moving pattern. -/
def sweep (frame : Frame) (t : F64) : Frame :=
  let phase := UInt64.ofInt (((trunc (t / (5 / 100))).tdiv 2).tmod 2)
  (List.range FRAME_WIDTH).foldl
    (fun frame x =>
      (List.range FRAME_PAGES).foldl
        (fun frame page =>
          if (UInt64.ofNat (x / 8) + UInt64.ofNat page + phase) % 2 = 0 then
            frame.put (page * FRAME_WIDTH + x) 0xFF
          else frame)
        frame)
    frame

def marquee (showoff : Showoff p.rand.StdRng) (frame : Frame) (ct : F64) :
    Frame :=
  let xwin := (trunc (showoff.stripW * (1 - ct / 8))).toNat
  frame.plot
    ((List.range 16).flatMap fun r =>
      ((List.range FRAME_WIDTH).filter fun sx =>
        decide (xwin + sx < showoff.stripW) &&
          stripBit showoff.stripRows r (xwin + sx)).map fun sx =>
        ((sx : Int), (24 + r : Int)))
    true

def msg (frame : Frame) : Frame :=
  let frame := columns.foldl
    (fun frame x =>
      (frame.px x 0 true).px x (FRAME_HEIGHT - 1 : Nat) true)
    frame
  let frame := (between 0 FRAME_HEIGHT).foldl
    (fun frame y =>
      (frame.px 0 y true).px (FRAME_WIDTH - 1 : Nat) y true)
    frame
  (frame.topaz p.fonts MSG1 40 16).topaz p.fonts MSG2 28 40

/-- Shift three bands of the picture. -/
def glitch (showoff : Showoff p.rand.StdRng) (frame : Frame) :
    Showoff p.rand.StdRng × Frame :=
  let base := frame.buf
  let (rng, frame) := (List.range 3).foldl
    (fun (rng, frame) _ =>
      let (bandPage, rng) := p.rand.rangeU32 0 (UInt32.ofNat FRAME_PAGES) rng
      let (shift, rng) := p.rand.rangeUsize 1 9 rng
      let start := bandPage.toNat * FRAME_WIDTH
      (rng, (List.range FRAME_WIDTH).foldl
        (fun (frame : Frame) (x : Nat) =>
          let source := (((x : Int) - shift) % (FRAME_WIDTH : Int)).toNat
          frame.put (start + x) (base.getD (start + source) 0))
        frame))
    (showoff.rng, frame)
  ({ showoff with rng }, frame)

def draw (showoff : Showoff p.rand.StdRng) (frame : Frame) (t : F64) :
    Showoff p.rand.StdRng × Frame :=
  let ct := rem t CYCLE
  if ct < 3 then (showoff, sweep frame t)
  else if ct < 11 then (showoff, showoff.marquee p frame (ct - 3))
  else if ct < 13 then showoff.glitch p (msg p frame)
  else (showoff, msg p frame)

end Showoff

/-- `fmt_clock`: the local time of day. -/
def fmtClock (p : Platform) (ts : F64) : String :=
  let secs := asI64 ⌊ts⌋ + p.localOffsetSecs
  let r := secs % 86400
  zeroPadded 2 (r / 3600) ++ ":" ++ zeroPadded 2 (r % 3600 / 60) ++ ":" ++
    zeroPadded 2 (r % 60)

/-- The clock of a reading; none, or one of zero, shows dashes. -/
def lastClock (p : Platform) (ts : Option F64) : String :=
  ((ts.filter fun v => v ≠ 0).map (fmtClock p)).getD "--:--:--"

namespace Ripperdoc

variable (p : Platform)

def TITLE : String := "RIPPERDOC"

/-- A line of text on the page. -/
def write (frame : Frame) (s : String) (x y : Int) : Frame :=
  frame.amiga8 p.fonts s x y true

/-- A text that ends at the right edge, and where it starts. -/
def flushRight (frame : Frame) (s : String) (y : Int) : Frame × Int :=
  let sx : Int := FRAME_WIDTH - Frame.amiga8Width p.fonts s
  (write p frame s sx y, sx)

def indicator (frame : Frame) (x y : Int) (label : String) (level : Bool) :
    Frame :=
  let w : Int := Frame.amiga8Width p.fonts label + 8
  let h : Int := 12
  let x1 := x + w - 1
  let y1 := y + h - 1
  let frame := frame.line x y x1 y true
  let frame := frame.line x y1 x1 y1 true
  let frame := frame.line x y x y1 true
  let frame := frame.line x1 y x1 y1 true
  if level then
    (frame.plot (block (between (x + 1) x1) (between (y + 1) y1)) true).amiga8
      p.fonts label (x + 4) (y + 2) false
  else frame.amiga8 p.fonts label (x + 4) (y + 2) true

/-- The vault is sealed, as far as the map says. -/
def sealedFlag (st : RenderState) : Bool :=
  ((st.sealMap.lookup "sealed").bind Json.Value.asBool).getD false

/-- The distance in whole centimetres. -/
def distance (cm : Option F64) : String :=
  match cm with
  | some cm => padLeft 4 (fixed 0 cm) ++ "CM"
  | none => "  --CM"

def sensors (frame : Frame) (st : RenderState) : Frame :=
  let frame := write p frame TITLE 2 1
  let frame := write p frame "1/7" 99 1
  let frame := indicator p frame 2 12 "PIR" st.pirHigh
  let frame := indicator p frame 39 12 "SNR" st.snrCm.isSome
  let frame := indicator p frame 85 12 "TMP" st.tempC.isSome
  let frame := indicator p frame 2 26 "BAR" st.pressureHpa.isSome
  let frame := indicator p frame 39 26 "SEAL" (sealedFlag st)
  let frame := write p frame ("N" ++ zeroPadded 3 st.pirCount) 2 40
  let frame := write p frame "G17" 44 40
  write p frame (distance st.snrCm) 66 40

def pir (frame : Frame) (t : F64) (st : RenderState) : Frame :=
  let frame := write p frame "PIR" 2 1
  let frame := write p frame "2/7" 99 1
  let frame := indicator p frame 2 12 "PIR" st.pirHigh
  let frame := write p frame ("N" ++ zeroPadded 3 st.pirCount) 2 28
  let hold :=
    if st.pirHigh then t - (st.pirOnTs.filter fun v => v ≠ 0).getD t
    else st.pirLastHold
  let frame := write p frame ("T" ++ fixedPadded 4 1 hold ++ "s") 2 37
  write p frame ("L" ++ lastClock p st.pirLastTs) 2 46

def snr (frame : Frame) (st : RenderState) : Frame :=
  let frame := write p frame "SNR" 2 1
  let frame := write p frame "3/7" 99 1
  let frame := write p frame (distance st.snrCm) 2 12
  let frame := write p frame ("N" ++ zeroPadded 3 st.snrCount) 2 28
  let frame := write p frame ("L" ++ lastClock p st.snrTs) 2 37
  write p frame "G22" 2 46

/-- The points of the caret that shows the trend. -/
def caretPoints (direction : String) : List (Int × Int) :=
  if direction = "rising" then
    [(3, 0), (2, 1), (4, 1), (1, 2), (5, 2), (0, 3), (6, 3)]
  else if direction = "falling" then
    [(3, 3), (2, 2), (4, 2), (1, 1), (5, 1), (0, 0), (6, 0)]
  else [(0, 2), (1, 2), (2, 2), (3, 2), (4, 2), (5, 2), (6, 2)]

def trendCaret (frame : Frame) (x y : Int) (direction : String) : Frame :=
  frame.plot ((caretPoints direction).map fun (dx, dy) => (x + dx, y + dy)) true

/-- The thermometer: a round bulb and a stem that is filled up to a fraction. -/
def gauge (frame : Frame) (x y : Int) (frac : F64) : Frame :=
  let r : Int := 10
  let cx := x + 10
  let cy := y + 10
  let bulb := (block (between (cx - r) (cx + r + 1))
    (between (cy - r) (cy + r + 1))).filter fun (xx, yy) =>
      decide ((xx - cx) * (xx - cx) + (yy - cy) * (yy - cy) ≤ r * r)
  let frame := frame.plot bulb true
  let sx := x + 14
  let sy := y + 5
  let sw : Int := 111
  let sh : Int := 10
  let frame := frame.line sx sy (sx + sw) sy true
  let frame := frame.line sx (sy + sh) (sx + sw) (sy + sh) true
  let frame := frame.line (sx + sw) sy (sx + sw) (sy + sh) true
  let fill := trunc (frac * sw)
  if 0 < fill then
    frame.plot (block (between sx (sx + wrapI32 fill))
      (between (sy + 1) (sy + sh))) true
  else frame

def temp (frame : Frame) (st : RenderState) : Frame :=
  let frame := write p frame "TMP" 2 1
  let frame := write p frame "4/7" 99 1
  let frame :=
    match st.tempC with
    | none =>
        let frame := write p frame "--.-C" 2 52
        gauge (flushRight p frame "--%" 52).1 2 18 0
    | some tc =>
        let frac := max 0 (min ((tc - 5) / (40 - 5)) 1)
        let frame := gauge frame 2 18 frac
        let frame := write p frame (padLeft 4 (fixed 1 tc) ++ "C") 2 52
        match st.humPct with
        | some hum => (flushRight p frame (fixed 0 hum ++ "%") 52).1
        | none => frame
  match st.pressureHpa with
  | some hpa =>
      let (frame, sx) := flushRight p frame (fixed 0 hpa ++ "HPA") 43
      trendCaret frame (sx - 8) 45
        (if st.baroTrend = "" then "steady" else st.baroTrend)
  | none => frame

/-- The padlock. -/
def lock (frame : Frame) (x y : Int) : Frame :=
  let frame := frame.line (x + 2) y (x + 2) (y + 2) true
  let frame := frame.line (x + 7) y (x + 7) (y + 2) true
  let frame := frame.line (x + 2) y (x + 7) y true
  let frame := frame.plot (block (between x (x + 10))
    (between (y + 3) (y + 9))) true
  let frame := frame.plot (block (between (x + 4) (x + 7)) [y + 3]) false
  let frame := frame.px (x + 5) (y + 4) false
  let frame := frame.px (x + 5) (y + 5) false
  let frame := frame.px (x + 5) (y + 6) true
  frame.px (x + 5) (y + 7) true

/-- A number of the seal map, 0 where it has none. -/
def sealNumber (st : RenderState) (key : String) : Int :=
  match st.sealMap.lookup key with
  | some (.number (.double value)) => trunc value
  | some (.number (.integer value)) => trunc value
  | _ => 0

def frag (frame : Frame) (st : RenderState) : Frame :=
  let frame := write p frame "FRAG" 2 1
  let frame := write p frame "5/7" 99 1
  let frame := lock frame 8 16
  let frame := write p frame (if sealedFlag st then "SEALED" else "GONE") 24 16
  let frame := write p frame ("N" ++ zeroPadded 3 (sealNumber st "entries")) 2 32
  write p frame ("A" ++ zeroPadded 3 (sealNumber st "access_count")) 40 32

/-- One rail, its number flush right. -/
def rail (frame : Frame) (x y : Int) (label : String) (val : Option F64)
    (places : Nat) (unit : String) : Frame :=
  let s :=
    match val with
    | none => "--"
    | some v => fixed places v ++ unit
  let frame := write p frame label x y
  write p frame s (FRAME_WIDTH - 2 - Frame.amiga8Width p.fonts s) y

def power (frame : Frame) (st : RenderState) : Frame :=
  let lit (bit : UInt32) := st.powerThrottled.any fun flags => flags &&& bit ≠ 0
  let frame := write p frame "PWR" 2 1
  let frame := write p frame "6/7" 99 1
  let frame := indicator p frame 2 11 "UV" (lit THROTTLE_UV)
  let frame := indicator p frame 40 11 "THR" (lit THROTTLE_THR)
  let frame := rail p frame 2 24 "5V" (st.rails.lookup "EXT5V_V") 3 "V"
  let frame := rail p frame 2 32 "3V3" (st.rails.lookup "3V3_SYS_V") 3 "V"
  let frame := rail p frame 2 40 "3V3I" (st.rails.lookup "3V3_SYS_A") 3 "A"
  let frame := rail p frame 2 48 "CORE" (st.rails.lookup "VDD_CORE_V") 3 "V"
  rail p frame 2 56 "COREI" (st.rails.lookup "VDD_CORE_A") 3 "A"

/-- What a row of the sweep shows: its face, or its code where it has none. -/
def rowLabel (row : FaultRow) : String :=
  takeChars (if row.face = "" then row.code else row.face) 14

def fault (frame : Frame) (t : F64) (st : RenderState) : Frame :=
  let frame := write p frame "PAIN" 2 1
  let frame := write p frame "7/7" 99 1
  let frame := write p frame (faultHead t st) 2 10
  match st.faultsView with
  | none => frame
  | some (_, _, _, rows) =>
      (rows.take 5).zipIdx.foldl
        (fun frame (row, index) =>
          write p frame (rowLabel row) 2 (19 + 9 * index))
        frame

def draw (frame : Frame) (t : F64) (st : RenderState) : Frame :=
  if st.page = "pir" then pir p frame t st
  else if st.page = "snr" then snr p frame st
  else if st.page = "temp" then temp p frame st
  else if st.page = "frag" then frag p frame st
  else if st.page = "power" then power p frame st
  else if st.page = "fault" then fault p frame t st
  else sensors p frame st

end Ripperdoc

/-- The animation object of a mode. -/
inductive Animation (StdRng : Type)
  | scope (scope : Scope StdRng)
  | ecg (ecg : Ecg)
  | ripple (ripple : Ripple)
  | noise (noise : Noise)
  | marquee (marquee : Marquee)
  | showoff (showoff : Showoff StdRng)
  | ripperdoc

namespace Animation

variable (p : Platform)

/-- Only the scope ticks. -/
def tick (dt now : F64) :
    Animation p.rand.StdRng → Animation p.rand.StdRng
  | .scope object => .scope (object.tick p dt now)
  | other => other

def draw (frame : Frame) (t : F64) (st : RenderState) :
    Animation p.rand.StdRng → Animation p.rand.StdRng × Frame
  | .scope object => (.scope object, object.draw p frame t)
  | .ecg object => (.ecg object, object.draw p frame t)
  | .ripple object => (.ripple object, object.draw p frame t)
  | .noise object => (.noise object, object.draw p frame t)
  | .marquee object => (.marquee object, object.draw p frame t)
  | .showoff object =>
      let (after, frame) := object.draw p frame t
      (.showoff after, frame)
  | .ripperdoc => (.ripperdoc, Ripperdoc.draw p frame t st)

end Animation

/-- The object of a mode; a mode that is not known names itself. -/
def makeRenderer (p : Platform) (mode : String) (st : RenderState) (now : F64)
    (rng : p.rand.StdRng) : Option (Animation p.rand.StdRng) :=
  if mode = "off" then none
  else if mode = "scope" then some (.scope (Scope.new p now rng))
  else if mode = "ecg" then some (.ecg {})
  else if mode = "ripple" then some (.ripple {})
  else if mode = "noise" then some (.noise {})
  else if mode = "text" then
    some (.marquee { text := (st.text.filter fun s => s ≠ "").getD "LOA" })
  else if mode = "showoff" then some (.showoff (Showoff.new p rng))
  else if mode = "ripperdoc" then some .ripperdoc
  else some (.marquee { text := "?? " ++ mode })

end Oled
