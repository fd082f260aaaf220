import Loa.LineDrawing
import Loa.PartialUpdate
import Loa.SmallFonts

/-!
# One bitmap for the device and the console

The device packs what is drawn into pages of bytes, and the console unpacks the
bytes two rows at a time into half blocks.  After any draws a pixel has the last
value that was drawn on it, and the console's cells show just the pixels that are
lit.
-/

namespace Console

/-- A pixel of the bytes that came over the feed; what is not there is dark. -/
def px (buf : Bytes) (x y : Nat) : Bool :=
  match buf[y / 8 * 128 + x]? with
  | some byte => byte &&& (1 <<< UInt8.ofNat (y % 8)) ≠ 0
  | none => false

/-- The block of an upper and a lower pixel. -/
def cell : Bool → Bool → Char
  | true, true => '█'
  | true, false => '▀'
  | false, true => '▄'
  | false, false => ' '

/-- Thirty-two rows of half blocks. -/
def faceArt (buf : Bytes) : List String :=
  (List.range 32).map fun row =>
    let y := row * 2
    String.ofList ((List.range 128).map fun x =>
      cell (px buf x y) (px buf x (y + 1)))

/-- The upper half of a block is lit. -/
def upperLit (symbol : Char) : Bool :=
  symbol = '█' || symbol = '▀'

/-- The lower half of a block is lit. -/
def lowerLit (symbol : Char) : Bool :=
  symbol = '█' || symbol = '▄'

theorem upperLit_cell (top bottom : Bool) : upperLit (cell top bottom) = top := by
  cases top <;> cases bottom <;> decide

theorem lowerLit_cell (top bottom : Bool) : lowerLit (cell top bottom) = bottom := by
  cases top <;> cases bottom <;> decide

/-- The console finds a pixel where the device has put it. -/
theorem px_frameBytes (f : Oled.Frame) {x y : Nat} (xOn : x < Oled.FRAME_WIDTH)
    (yOn : y < Oled.FRAME_HEIGHT) : px f.frameBytes x y = f.bit x y := by
  have listed : y / 8 * 128 + x < f.buf.length := by
    rw [f.sized]
    unfold Oled.FRAME_WIDTH Oled.FRAME_HEIGHT Oled.FRAME_PAGES at *
    omega
  have index : (y >>> 3) * Oled.FRAME_WIDTH + x = y / 8 * 128 + x := by
    rw [Nat.shiftRight_eq_div_pow]
    rfl
  unfold px Oled.Frame.frameBytes Oled.Frame.bit Oled.litAt
  rw [index, List.getD_eq_getElem _ _ listed, List.getElem?_eq_getElem listed]

/-- Each cell of the picture shows its two pixels. -/
theorem faceArt_cell (f : Oled.Frame) (row : Fin 32) (x : Fin 128) :
    ∃ line symbol, (faceArt f.frameBytes)[row.val]? = some line ∧
      line.toList[x.val]? = some symbol ∧
      upperLit symbol = f.bit x (2 * row) ∧
      lowerLit symbol = f.bit x (2 * row + 1) := by
  have upper : px f.frameBytes x (row * 2) = f.bit x (2 * row) := by
    rw [Nat.mul_comm]
    exact px_frameBytes f x.isLt (by unfold Oled.FRAME_HEIGHT; omega)
  have lower : px f.frameBytes x (row * 2 + 1) = f.bit x (2 * row + 1) := by
    rw [Nat.mul_comm]
    exact px_frameBytes f x.isLt (by unfold Oled.FRAME_HEIGHT; omega)
  have line : (faceArt f.frameBytes)[row.val]? =
      some (String.ofList ((List.range 128).map fun x =>
        cell (px f.frameBytes x (row * 2)) (px f.frameBytes x (row * 2 + 1)))) := by
    simp [faceArt]
  refine ⟨_, cell (f.bit x (2 * row)) (f.bit x (2 * row + 1)), line, ?_,
    upperLit_cell _ _, lowerLit_cell _ _⟩
  simp [upper, lower]

theorem length_faceArt (buf : Bytes) : (faceArt buf).length = 32 := by
  simp [faceArt]

theorem length_of_mem_faceArt {buf : Bytes} {line : String}
    (listed : line ∈ faceArt buf) : line.length = 128 := by
  unfold faceArt at listed
  obtain ⟨row, -, rfl⟩ := List.mem_map.mp listed
  simp

end Console

namespace Oled

open I64 (Build)
open PartialUpdate

namespace Frame

/-- The bits of a glyph, seen from its corner. -/
def glyphOffsets (height : Nat) (columns : List UInt8) : List (Int × Int) :=
  columns.zipIdx.flatMap fun (col, cx) =>
    glyphBits height col fun cy => ((cx : Int), (cy : Int))

/-- The points of one letter. -/
def letterIn (build : Build) (x y : Int) (offsets : List (Int × Int)) :
    Option (List (Int × Int)) :=
  offsets.mapM fun (cx, cy) => do
    let column ← I32.add build x cx
    let row ← I32.add build y cy
    some (column, row)

/-- The points of a text, whose letters advance by so many pixels. -/
def lettersIn (build : Build) (columns : Char → List UInt8) (height advance : Nat)
    (y : Int) : Int → List Char → Option (List (Int × Int))
  | _, [] => some []
  | x, ch :: rest => do
      let here ← letterIn build x y (glyphOffsets height (columns ch))
      let behind ← I32.add build x advance
      let there ← lettersIn build columns height advance y behind rest
      some (here ++ there)

/-- `Frame::text` in the arithmetic of a build. -/
def textIn (build : Build) (f : Frame) (x y : Int32) (s : String) (on : Bool) :
    Option Frame := do
  let points ← lettersIn build columns5x7 7 6 y.toInt x.toInt s.toList
  some (f.plot points on)

/-- `Frame::text3x5` in the arithmetic of a build. -/
def text3x5In (build : Build) (f : Frame) (x y : Int32) (s : String) (on : Bool) :
    Option Frame := do
  let points ← lettersIn build columns3x5 5 4 y.toInt x.toInt s.toList
  some (f.plot points on)

/-- The points of a text in unbounded arithmetic. -/
def lettersAt (columns : Char → List UInt8) (height advance : Nat) (y : Int) :
    Int → List Char → List (Int × Int)
  | _, [] => []
  | x, ch :: rest =>
      ((glyphOffsets height (columns ch)).map fun (cx, cy) => (x + cx, y + cy)) ++
        lettersAt columns height advance y (x + advance) rest

/-- The place behind the text and the row below it fit. -/
structure TextFits (x y : Int) (height advance : Nat) (letters : List Char) : Prop where
  behind : I32.Fits (x + advance * letters.length)
  below : I32.Fits (y + height)

theorem mem_glyphOffsets {height : Nat} {columns : List UInt8} {offset : Int × Int}
    (member : offset ∈ glyphOffsets height columns) :
    (0 ≤ offset.1 ∧ offset.1 < columns.length) ∧
      0 ≤ offset.2 ∧ offset.2 < height := by
  unfold glyphOffsets glyphBits at member
  obtain ⟨⟨col, cx⟩, listed, inColumn⟩ := List.mem_flatMap.mp member
  obtain ⟨cy, inRow, rfl⟩ := List.mem_map.mp inColumn
  have column := List.snd_lt_of_mem_zipIdx listed
  have row := List.mem_range.mp (List.mem_of_mem_filter inRow)
  dsimp only
  omega

theorem mapM_eq_some {α β : Type} {f : α → Option β} {g : α → β} {items : List α}
    (each : ∀ item ∈ items, f item = some (g item)) :
    items.mapM f = some (items.map g) := by
  induction items with
  | nil => rfl
  | cons item rest induction =>
      rw [List.mapM_cons, each item List.mem_cons_self,
        induction fun other member => each other (List.mem_cons_of_mem _ member)]
      rfl

theorem lettersIn_eq {build : Build} {columns : Char → List UInt8}
    {height advance : Nat} (narrow : ∀ ch, (columns ch).length ≤ advance)
    {x y : Int} {letters : List Char} (xFits : I32.Fits x) (yFits : I32.Fits y)
    (fits : TextFits x y height advance letters) :
    lettersIn build columns height advance y x letters =
      some (lettersAt columns height advance y x letters) := by
  induction letters generalizing x with
  | nil => rfl
  | cons ch rest induction =>
      obtain ⟨behind, below⟩ := fits
      rw [List.length_cons, Nat.cast_succ] at behind
      have next : I32.Fits (x + advance) :=
        xFits.between behind (by omega) (by nlinarith)
      have here : letterIn build x y (glyphOffsets height (columns ch)) =
          some ((glyphOffsets height (columns ch)).map fun (cx, cy) =>
            (x + cx, y + cy)) := by
        refine mapM_eq_some fun offset member => ?_
        obtain ⟨column, row⟩ := mem_glyphOffsets member
        have width := narrow ch
        have columnFits : I32.Fits (x + offset.1) :=
          xFits.between next (by omega) (by omega)
        have rowFits : I32.Fits (y + offset.2) :=
          yFits.between below (by omega) (by omega)
        unfold I32.add
        simp only [I32.settle_of_fits columnFits, I32.settle_of_fits rowFits,
          Option.bind_eq_bind, Option.bind_some]
      have moved : I32.add build x advance = some (x + advance) :=
        I32.settle_of_fits next
      have there := induction next ⟨by
        have same : x + advance + advance * (rest.length : Int) =
            x + advance * (rest.length + 1) := by ring
        rw [same]
        exact behind, below⟩
      unfold lettersIn lettersAt
      simp only [here, moved, there, Option.bind_eq_bind, Option.bind_some]

/-- A release build goes on in any case. -/
theorem lettersIn_release {columns : Char → List UInt8} {height advance : Nat}
    (x y : Int) (letters : List Char) :
    ∃ points, lettersIn .release columns height advance y x letters =
      some points := by
  have letter (offsets : List (Int × Int)) (x : Int) :
      letterIn .release x y offsets = some (offsets.map fun (cx, cy) =>
        ((x + cx).bmod (2 ^ 32), (y + cy).bmod (2 ^ 32))) :=
    mapM_eq_some fun offset _ => by
      unfold I32.add
      simp only [I32.settle_release, Option.bind_eq_bind, Option.bind_some]
  induction letters generalizing x with
  | nil => exact ⟨_, rfl⟩
  | cons ch rest induction =>
      obtain ⟨there, drawn⟩ := induction ((x + advance).bmod (2 ^ 32))
      unfold lettersIn I32.add
      rw [letter, I32.settle_release]
      simp only [drawn, Option.bind_eq_bind, Option.bind_some]
      exact ⟨_, rfl⟩

end Frame

/-- A call that draws. -/
inductive Draw
  | px (x y : Int32) (on : Bool)
  | line (x0 y0 x1 y1 : Int32) (on : Bool)
  | text (x y : Int32) (s : String) (on : Bool)
  | text3x5 (x y : Int32) (s : String) (on : Bool)

namespace Draw

/-- What a call leaves, if it ends; a line is given so many turns. -/
def run (build : Build) (turns : Nat) (f : Frame) :
    Draw → Option Frame
  | .px x y on => some (f.px x.toInt y.toInt on)
  | .line x0 y0 x1 y1 on => f.lineIn build turns x0 y0 x1 y1 on
  | .text x y s on => f.textIn build x y s on
  | .text3x5 x y s on => f.text3x5In build x y s on

/-- One call after another. -/
def runAll (build : Build) (turns : Nat) (f : Frame)
    (draws : List Draw) : Option Frame :=
  draws.foldlM (run build turns) f

/-- The value that a call draws. -/
def on : Draw → Bool
  | .px _ _ on => on
  | .line _ _ _ _ on => on
  | .text _ _ _ on => on
  | .text3x5 _ _ _ on => on

/-- The points that a call draws, on the screen or off it. -/
def points (build : Build) (turns : Nat) :
    Draw → Option (List (Int × Int))
  | .px x y _ => some [(x.toInt, y.toInt)]
  | .line x0 y0 x1 y1 _ => Frame.linePointsIn build turns x0 y0 x1 y1
  | .text x y s _ =>
      Frame.lettersIn build columns5x7 7 6 y.toInt x.toInt s.toList
  | .text3x5 x y s _ =>
      Frame.lettersIn build columns3x5 5 4 y.toInt x.toInt s.toList

/-- What a call draws on a pixel of the screen. -/
def drawn (build : Build) (turns : Nat) (draw : Draw) :
    Patch fun _ : Fin FRAME_WIDTH × Fin FRAME_HEIGHT => Bool :=
  fun (x, y) =>
    match draw.points build turns with
    | some points =>
        if ((x.val : Int), (y.val : Int)) ∈ points then some draw.on else none
    | none => none

/-- The last value that some calls draw on a pixel. -/
def lastDrawn (build : Build) (turns : Nat) (draws : List Draw)
    (pixel : Fin FRAME_WIDTH × Fin FRAME_HEIGHT) : Option Bool :=
  (draws.filterMap fun draw => draw.drawn build turns pixel).getLast?

end Draw

/-- The pixels of the screen. -/
def Frame.bits (f : Frame) (pixel : Fin FRAME_WIDTH × Fin FRAME_HEIGHT) : Bool :=
  f.bit pixel.1.val pixel.2.val

namespace Draw

variable {build : Build} {turns : Nat}

theorem run_eq (f : Frame) (draw : Draw) :
    draw.run build turns f =
      (draw.points build turns).map fun points => f.plot points draw.on := by
  cases draw with
  | px x y on => rfl
  | line x0 y0 x1 y1 on =>
      change f.lineIn build turns x0 y0 x1 y1 on = _
      unfold Frame.lineIn
      exact (Option.map_eq_bind ..).symm
  | text x y s on =>
      change f.textIn build x y s on = _
      unfold Frame.textIn
      exact (Option.map_eq_bind ..).symm
  | text3x5 x y s on =>
      change f.text3x5In build x y s on = _
      unfold Frame.text3x5In
      exact (Option.map_eq_bind ..).symm

/-- A call that ends has drawn on its points, and on no others. -/
theorem bits_run {f after : Frame} {draw : Draw}
    (ran : draw.run build turns f = some after) :
    after.bits = (draw.drawn build turns).apply f.bits := by
  rw [run_eq] at ran
  obtain ⟨points, drawn, rfl⟩ := Option.map_eq_some_iff.mp ran
  funext (x, y)
  have switched := f.bit_plot points draw.on x.isLt y.isLt
  unfold Frame.bits Patch.apply Draw.drawn
  dsimp only
  rw [drawn, switched]
  dsimp only
  split_ifs <;> rfl

theorem bits_runAll {f after : Frame} {draws : List Draw}
    (ran : runAll build turns f draws = some after) :
    after.bits = (Patch.merged (draws.map (drawn build turns))).apply f.bits := by
  rw [← Patch.foldl_apply]
  unfold runAll at ran
  induction draws generalizing f with
  | nil =>
      obtain rfl := Option.some.inj ran
      rfl
  | cons draw rest induction =>
      rw [List.foldlM_cons, Option.bind_eq_bind, Option.bind_eq_some_iff] at ran
      obtain ⟨next, first, ran⟩ := ran
      rw [induction ran, bits_run first]
      rfl

/-- After any calls a pixel has the last value that was drawn on it. -/
theorem bit_runAll {f after : Frame} {draws : List Draw}
    (ran : runAll build turns f draws = some after)
    (x : Fin FRAME_WIDTH) (y : Fin FRAME_HEIGHT) :
    after.bit x y =
      (lastDrawn build turns draws (x, y)).getD (f.bit x y) := by
  have pixel := congrFun (bits_runAll ran) (x, y)
  unfold Patch.apply at pixel
  rw [Patch.merged_eq_getLast?, List.filterMap_map] at pixel
  exact pixel

/-- What the last call draws hides the calls before it. -/
theorem lastDrawn_concat (earlier : List Draw) (draw : Draw)
    (pixel : Fin FRAME_WIDTH × Fin FRAME_HEIGHT) :
    lastDrawn build turns (earlier ++ [draw]) pixel =
      (draw.drawn build turns pixel).or (lastDrawn build turns earlier pixel) := by
  unfold lastDrawn
  rw [List.filterMap_append, List.getLast?_append]
  congr 1
  rw [List.filterMap_cons]
  cases draw.drawn build turns pixel <;> rfl

/-- A call ends: the error term of a line stays within the bits, and in a debug
build the place of a text does. -/
def Ends (build : Build) : Draw → Prop
  | .px _ _ _ => True
  | .line x0 y0 x1 y1 _ => Frame.ErrorFits x0.toInt y0.toInt x1.toInt y1.toInt
  | .text x y s _ =>
      build = .debug → Frame.TextFits x.toInt y.toInt 7 6 s.toList
  | .text3x5 x y s _ =>
      build = .debug → Frame.TextFits x.toInt y.toInt 5 4 s.toList

/-- A text ends in a release build, and in a debug build where it fits. -/
theorem lettersIn_of_fits {columns : Char → List UInt8} {height advance : Nat}
    (narrow : ∀ ch, (columns ch).length ≤ advance) (x y : Int32) (s : String)
    (fits : build = .debug →
      Frame.TextFits x.toInt y.toInt height advance s.toList) :
    ∃ points, Frame.lettersIn build columns height advance y.toInt x.toInt
      s.toList = some points := by
  cases build with
  | release => exact Frame.lettersIn_release _ _ _
  | debug =>
      exact ⟨_, Frame.lettersIn_eq narrow (I32.fits_toInt x) (I32.fits_toInt y)
        (fits rfl)⟩

theorem points_of_ends {draw : Draw} (ends : draw.Ends build) :
    ∃ turns, ∀ given, turns ≤ given →
      ∃ points, draw.points build given = some points := by
  cases draw with
  | px x y on => exact ⟨0, fun _ _ => ⟨_, rfl⟩⟩
  | line x0 y0 x1 y1 on =>
      exact ⟨_, fun given enough => ⟨_, Frame.linePointsIn_eq ends enough⟩⟩
  | text x y s on =>
      exact ⟨0, fun _ _ => lettersIn_of_fits (fun _ => Nat.le_succ 5) x y s ends⟩
  | text3x5 x y s on =>
      exact ⟨0, fun _ _ => lettersIn_of_fits (fun _ => Nat.le_succ 3) x y s ends⟩

/-- Calls that all end leave a frame, if their lines are given enough turns. -/
theorem runAll_of_ends {draws : List Draw}
    (ends : ∀ draw ∈ draws, draw.Ends build) :
    ∃ turns, ∀ given, turns ≤ given → ∀ f,
      ∃ after, runAll build given f draws = some after := by
  induction draws with
  | nil => exact ⟨0, fun _ _ f => ⟨f, rfl⟩⟩
  | cons draw rest induction =>
      obtain ⟨first, drawn⟩ := points_of_ends (ends draw List.mem_cons_self)
      obtain ⟨turns, ran⟩ := induction fun other member =>
        ends other (List.mem_cons_of_mem _ member)
      refine ⟨max first turns, fun given enough f => ?_⟩
      obtain ⟨points, plotted⟩ := drawn given ((le_max_left ..).trans enough)
      obtain ⟨after, finished⟩ := ran given ((le_max_right ..).trans enough)
        (f.plot points draw.on)
      refine ⟨after, ?_⟩
      unfold runAll
      rw [List.foldlM_cons, run_eq, plotted]
      exact finished

/-- After any calls that end, in either build, a pixel has the last value that was
drawn on it or is what it was; all of the buffer is copied out; and each cell of
the console's picture shows its two pixels.  Calls end whose arithmetic stays
within the bits. -/
theorem bitmap_layout (build : Build) (draws : List Draw)
    (f : Frame) :
    (∀ turns after, runAll build turns f draws = some after →
      (∀ x y, after.bit x.val y.val =
        (lastDrawn build turns draws (x, y)).getD (f.bit x.val y.val)) ∧
      after.frameBytes = after.buf ∧ after.frameBytes.length = 1024 ∧
      (Console.faceArt after.frameBytes).length = 32 ∧
      (∀ line ∈ Console.faceArt after.frameBytes, line.length = 128) ∧
      ∀ (row : Fin 32) (x : Fin 128), ∃ line symbol,
        (Console.faceArt after.frameBytes)[row.val]? = some line ∧
        line.toList[x.val]? = some symbol ∧
        Console.upperLit symbol = after.bit x (2 * row) ∧
        Console.lowerLit symbol = after.bit x (2 * row + 1)) ∧
    ((∀ draw ∈ draws, draw.Ends build) →
      ∃ turns, ∀ given, turns ≤ given →
        ∃ after, runAll build given f draws = some after) := by
  refine ⟨fun turns after ran => ⟨bit_runAll ran, rfl, after.sized,
    Console.length_faceArt _, fun line => Console.length_of_mem_faceArt, ?_⟩,
    fun ends => ?_⟩
  · exact Console.faceArt_cell after
  · obtain ⟨turns, ran⟩ := runAll_of_ends ends
    exact ⟨turns, fun given enough => ran given enough f⟩

/-- A line and a text beyond the edges, and a pixel of the line cleared again. -/
theorem bitmap_layout_cleared :
    ∃ turns after,
      runAll .debug turns Frame.new
        [.line (-3) 5 200 90 true, .text (-2) 60 "ok" true, .px 5 8 false] =
          some after ∧
      after.bit 5 8 = false ∧ after.frameBytes.length = 1024 := by
  obtain ⟨results, finished⟩ := bitmap_layout .debug
    [.line (-3) 5 200 90 true, .text (-2) 60 "ok" true, .px 5 8 false] Frame.new
  obtain ⟨turns, ran⟩ := finished (by
    intro draw member
    simp only [List.mem_cons, List.not_mem_nil, or_false] at member
    rcases member with rfl | rfl | rfl
    · exact Frame.errorFits_of_span (by decide)
    · exact fun _ => ⟨by decide, by decide⟩
    · trivial)
  obtain ⟨after, drawn⟩ := ran turns le_rfl
  obtain ⟨bits, -, copied, -⟩ := results turns after drawn
  have last : lastDrawn .debug turns
      [.line (-3) 5 200 90 true, .text (-2) 60 "ok" true, .px 5 8 false]
      (⟨5, by decide⟩, ⟨8, by decide⟩) = some false :=
    lastDrawn_concat [.line (-3) 5 200 90 true, .text (-2) 60 "ok" true]
      (.px 5 8 false) _
  have cleared := bits ⟨5, by decide⟩ ⟨8, by decide⟩
  rw [last] at cleared
  exact ⟨turns, after, drawn, cleared, copied⟩

end Draw

end Oled
