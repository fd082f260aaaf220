import Loa.RustText
import Mathlib.Algebra.GroupWithZero.Nat
import Mathlib.Data.List.Basic

/-!
# The framebuffer

128 by 64 pixels, eight rows to a byte and page behind page, as the panel takes
them.  What is drawn off the screen is dropped.
-/

namespace Oled

def FRAME_WIDTH : Nat := 128

def FRAME_HEIGHT : Nat := 64

def FRAME_PAGES : Nat := 8

/-- The framebuffer; it always has its size. -/
@[ext]
structure Frame where
  buf : Bytes
  sized : buf.length = FRAME_PAGES * FRAME_WIDTH

/-- The glyphs, as the tables give them: columns from the left for the small
font, a width and rows from the top for the other two. -/
structure Fonts where
  g5x7 : Char → List UInt8
  gamiga8 : Char → Nat × List UInt8
  gtopaz : Char → Nat × List UInt8

namespace Frame

def new : Frame where
  buf := List.replicate (FRAME_PAGES * FRAME_WIDTH) 0
  sized := List.length_replicate

/-- Every byte set to one value. -/
def fill (value : UInt8) (f : Frame) : Frame where
  buf := f.buf.map fun _ => value
  sized := by rw [List.length_map, f.sized]

def clear (f : Frame) : Frame :=
  f.fill 0

/-- One byte of the buffer set. -/
def put (f : Frame) (index : Nat) (value : UInt8) : Frame where
  buf := f.buf.set index value
  sized := by rw [List.length_set, f.sized]

/-- One pixel; `on = false` clears the bit and leaves the neighbours alone. -/
def px (f : Frame) (x y : Int) (on : Bool) : Frame :=
  if x < 0 ∨ FRAME_WIDTH ≤ x ∨ y < 0 ∨ FRAME_HEIGHT ≤ y then f
  else
    let i := (y.toNat >>> 3) * FRAME_WIDTH + x.toNat
    let bit : UInt8 := 1 <<< UInt8.ofNat (y.toNat % 8)
    let byte := f.buf.getD i 0
    f.put i (if on then byte ||| bit else byte &&& ~~~bit)

/-- The same switch for a list of pixels. -/
def plot (f : Frame) (points : List (Int × Int)) (on : Bool) : Frame :=
  points.foldl (fun f point => f.px point.1 point.2 on) f

/-- Where the line stands, and its error term. -/
structure Pen where
  x : Int
  y : Int
  err : Int
  deriving DecidableEq

/-- The steps and the differences of a line. -/
structure Slope where
  dx : Int
  sx : Int
  dy : Int
  sy : Int

def slope (x0 y0 x1 y1 : Int) : Slope where
  dx := (x1 - x0).natAbs
  sx := if x0 < x1 then 1 else -1
  dy := -((y1 - y0).natAbs : Int)
  sy := if y0 < y1 then 1 else -1

/-- One turn of Bresenham's loop behind the plotted point. -/
def Pen.advance (way : Slope) (pen : Pen) : Pen :=
  let e2 := 2 * pen.err
  let across :=
    if way.dy ≤ e2 then
      { pen with err := pen.err + way.dy, x := pen.x + way.sx }
    else pen
  if e2 ≤ way.dx then
    { across with err := across.err + way.dx, y := across.y + way.sy }
  else across

/-- The plotted points, in order; the loop ends at the end point, and `fuel`
bounds its turns. -/
def linePoints (way : Slope) (x1 y1 : Int) : Nat → Pen → List (Int × Int)
  | 0, _ => []
  | fuel + 1, pen =>
      (pen.x, pen.y) ::
        if pen.x = x1 ∧ pen.y = y1 then []
        else linePoints way x1 y1 fuel (pen.advance way)

/-- Bresenham; the end point is included.  The larger of the two differences
bounds the turns behind the first. -/
def line (f : Frame) (x0 y0 x1 y1 : Int) (on : Bool) : Frame :=
  let way := slope x0 y0 x1 y1
  f.plot (linePoints way x1 y1 ((max way.dx (-way.dy)).toNat + 1)
    ⟨x0, y0, way.dx + way.dy⟩) on

/-- The pixels of one column or row of a glyph. -/
def glyphBits (count : Nat) (mask : UInt8) (place : Nat → Int × Int) :
    List (Int × Int) :=
  ((List.range count).filter fun bit =>
    mask &&& (1 <<< UInt8.ofNat bit) ≠ 0).map place

/-- The pixels of one letter of the small font. -/
def letter5x7 (fonts : Fonts) (x y : Int) (ch : Char) : List (Int × Int) :=
  (fonts.g5x7 ch).zipIdx.flatMap fun (col, cx) =>
    glyphBits 7 col fun cy => (x + cx, y + cy)

/-- Bitmap text in the small font, six pixels a letter. -/
def text (fonts : Fonts) (f : Frame) (x y : Int) (s : String) (on : Bool) :
    Frame :=
  f.plot (s.toList.zipIdx.flatMap fun (ch, index) =>
    letter5x7 fonts (x + 6 * index) y ch) on

def textWidth (s : String) : Nat :=
  s.length * 6

/-- Copy the framebuffer out as the frame for the wire and the glass. -/
def frameBytes (f : Frame) : Bytes :=
  f.buf

/-- The glyphs of a text and where each starts, in a font whose letters advance
by their width and one. -/
def laid (glyph : Char → Nat × List UInt8) :
    Int → List Char → List (Int × Nat × List UInt8)
  | _, [] => []
  | cx, ch :: rest =>
      let (w, rows) := glyph ch
      (cx, w, rows) :: laid glyph (cx + w + 1) rest

/-- Text in a font of rows. -/
def rowText (glyph : Char → Nat × List UInt8) (f : Frame) (s : String)
    (x0 y0 : Int) (on : Bool) : Frame :=
  f.plot ((laid glyph x0 s.toList).flatMap fun (cx, w, rows) =>
    rows.zipIdx.flatMap fun (mask, r) =>
      glyphBits w mask fun bit => (cx + bit, y0 + r)) on

def amiga8Width (fonts : Fonts) (s : String) : Nat :=
  (s.toList.map fun ch => (fonts.gamiga8 ch).1 + 1).sum

def amiga8 (fonts : Fonts) (f : Frame) (s : String) (x0 y0 : Int) (on : Bool) :
    Frame :=
  f.rowText fonts.gamiga8 s x0 y0 on

def topaz (fonts : Fonts) (f : Frame) (s : String) (x0 y0 : Int) : Frame :=
  f.rowText fonts.gtopaz s x0 y0 true

end Frame

/-- One row of the strip: the letters' bits, each letter with a hole behind it. -/
def stripRow (fonts : Fonts) (s : String) (r : Nat) : List Bool :=
  s.toList.flatMap fun ch =>
    let (w, glyph) := fonts.gtopaz ch
    ((List.range w).map fun b =>
      decide (glyph.getD r 0 &&& (1 <<< UInt8.ofNat b) ≠ 0)) ++ [false]

/-- A row packed into bytes, the first bit lowest. -/
def packed (row : List Bool) : Bytes :=
  (List.range ((row.length + 7) / 8)).map fun byte =>
    (List.range 8).foldl
      (fun bits i =>
        if row.getD (8 * byte + i) false then bits ||| (1 <<< UInt8.ofNat i)
        else bits)
      0

/-- `topaz_strip`: sixteen packed rows, and how many bits each has. -/
def topazStrip (fonts : Fonts) (s : String) : List Bytes × Nat :=
  ((List.range 16).map fun r => packed (stripRow fonts s r),
    (stripRow fonts s 0).length)

def stripBit (rows : List Bytes) (r sx : Nat) : Bool :=
  (rows.getD r []).getD (sx / 8) 0 &&& (1 <<< UInt8.ofNat (sx % 8)) ≠ 0

end Oled
