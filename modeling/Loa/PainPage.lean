import Loa.AmigaFont
import Loa.BitmapLayout
import Loa.FaceRenderer
import Loa.OledFeedBatching

/-!
# The page that says where it hurts

When the body hurts the face leaves what it was doing and shows the rows of the
newest sweep.  The lines of that page keep apart, so whoever has the bytes of the
frame can read the rows off them, letter by letter.
-/

namespace Oled

open CellText

theorem mem_laid {cx : Int} {letters : List Char} {entry : Int × Nat × List UInt8} :
    entry ∈ Frame.laid gamiga8 cx letters ↔
      ∃ (index : Nat) (ch : Char), letters[index]? = some ch ∧
        entry = (cx + 9 * index, gamiga8 ch) := by
  induction letters generalizing cx with
  | nil => simp [Frame.laid]
  | cons first rest induction =>
      have width : ((gamiga8 first).1 : Int) = 8 := by
        rw [gamiga8, (amiga8_sizes _).1]
        rfl
      unfold Frame.laid
      dsimp only
      rw [List.mem_cons, induction, width]
      constructor
      · rintro (rfl | ⟨index, ch, there, rfl⟩)
        · exact ⟨0, first, rfl, by simp⟩
        · refine ⟨index + 1, ch, there, ?_⟩
          rw [Prod.mk.injEq]
          exact ⟨by push_cast; ring, rfl⟩
      · rintro ⟨index, ch, there, rfl⟩
        cases index with
        | zero =>
            cases there
            exact .inl (by simp)
        | succ index =>
            refine .inr ⟨index, ch, there, ?_⟩
            rw [Prod.mk.injEq]
            exact ⟨by push_cast; ring, rfl⟩

/-- The points of a text are the pixels that its line lights. -/
theorem mem_textPoints (left top : Nat) (letters : List Char) (x y : Nat) :
    ((x : Int), (y : Int)) ∈
        ((Frame.laid gamiga8 left letters).flatMap fun (cx, w, rows) =>
          rows.zipIdx.flatMap fun (mask, r) =>
            Frame.glyphBits w mask fun bit => (cx + bit, (top : Int) + r)) ↔
      (⟨left, top, letters⟩ : Line Char).Lights amiga x y := by
  unfold Frame.glyphBits
  simp only [List.mem_flatMap, List.mem_map, List.mem_filter, List.mem_range,
    Prod.exists, mem_laid]
  constructor
  · rintro ⟨cx, w, rows, ⟨index, ch, there, same⟩, mask, r, listed, bit,
      ⟨narrow, lit⟩, point⟩
    obtain ⟨rfl, glyph⟩ := Prod.mk.inj same
    obtain ⟨column, row⟩ := Prod.mk.inj point
    have mask_eq : rows.getD r 0 = mask := by
      rw [List.getD_eq_getElem?_getD, List.mem_zipIdx_iff_getElem?.mp listed]
      rfl
    have width : bit < 8 := by
      rw [← (amiga8_sizes (amigaPlace ch)).1]
      unfold gamiga8 at glyph
      rw [← glyph]
      exact narrow
    refine ⟨index, ch, bit, r, there, ?_, ?_, ?_⟩
    · unfold amiga
      dsimp only
      rw [← glyph, mask_eq, decide_eq_true width]
      exact lit
    · unfold amiga
      dsimp only
      omega
    · dsimp only
      omega
  · rintro ⟨index, ch, across, down, there, inked, column, row⟩
    obtain ⟨narrow, lit⟩ := Bool.and_eq_true_iff.mp inked
    have low : down < (gamiga8 ch).2.length := by
      rw [gamiga8, (amiga8_sizes _).2]
      exact (amiga.inside inked).2
    unfold amiga at column
    dsimp only at column row
    refine ⟨left + 9 * index, (gamiga8 ch).1, (gamiga8 ch).2, ⟨index, ch, there, rfl⟩,
      (gamiga8 ch).2.getD down 0, down, ?_, across, ⟨?_, lit⟩, ?_⟩
    · rw [List.mem_zipIdx_iff_getElem?, List.getD_eq_getElem _ _ low,
        List.getElem?_eq_getElem low]
    · rw [gamiga8, (amiga8_sizes _).1]
      exact of_decide_eq_true narrow
    · rw [Prod.mk.injEq]
      constructor
      · push_cast [column]
        rfl
      · push_cast [row]
        rfl

section Page

variable {p : Platform} (glyphs : p.fonts.gamiga8 = gamiga8)

include glyphs

/-- A line that is written lights its pixels and leaves the others alone. -/
theorem bit_write (frame : Frame) (s : String) (left top : Nat) {x y : Nat}
    (xOn : x < FRAME_WIDTH) (yOn : y < FRAME_HEIGHT) :
    (Ripperdoc.write p frame s left top).bit x y = true ↔
      frame.bit x y = true ∨ (⟨left, top, s.toList⟩ : Line Char).Lights amiga x y := by
  unfold Ripperdoc.write Frame.amiga8 Frame.rowText
  rw [glyphs, Frame.bit_plot _ _ _ xOn yOn]
  split_ifs with drawn
  · exact iff_of_true rfl (.inr ((mem_textPoints left top s.toList x y).mp drawn))
  · have unlit := fun lights => drawn ((mem_textPoints left top s.toList x y).mpr lights)
    rw [or_iff_left unlit]

/-- Rows that are written under each other. -/
theorem bit_rows (frame : Frame) (rows : List FaultRow) (start : Nat) {x y : Nat}
    (xOn : x < FRAME_WIDTH) (yOn : y < FRAME_HEIGHT) :
    ((rows.zipIdx start).foldl
        (fun frame (row, index) =>
          Ripperdoc.write p frame (Ripperdoc.rowLabel row) 2 (19 + 9 * index))
        frame).bit x y = true ↔
      frame.bit x y = true ∨ ∃ index text,
        (rows.map Ripperdoc.rowLabel)[index]? = some text ∧
        (⟨2, 19 + 9 * (start + index), text.toList⟩ : Line Char).Lights amiga x y := by
  induction rows generalizing frame start with
  | nil => simp
  | cons row rest induction =>
      have place : (19 + 9 * start : Nat) = (19 : Int) + 9 * start := by
        push_cast
        rfl
      have written := bit_write glyphs frame (Ripperdoc.rowLabel row) 2
        (19 + 9 * start) xOn yOn
      rw [place] at written
      rw [List.zipIdx_cons, List.foldl_cons, induction, List.map_cons]
      refine (or_congr_left written).trans (or_assoc.trans (or_congr_right ?_))
      constructor
      · rintro (lights | ⟨index, text, there, lights⟩)
        · exact ⟨0, _, rfl, lights⟩
        · refine ⟨index + 1, text, there, ?_⟩
          rw [Nat.add_right_comm, Nat.add_assoc start] at lights
          exact lights
      · rintro ⟨index, text, there, lights⟩
        cases index with
        | zero =>
            cases there
            exact .inl lights
        | succ index =>
            refine .inr ⟨index, text, there, ?_⟩
            rw [Nat.add_right_comm, Nat.add_assoc start]
            exact lights

end Page

theorem bit_new (x y : Nat) : Frame.new.bit x y = false := by
  have dark : Frame.new.buf.getD ((y >>> 3) * FRAME_WIDTH + x) 0 = 0 := by
    unfold Frame.new
    rw [List.getD_eq_getElem?_getD, List.getElem?_replicate]
    split <;> rfl
  unfold Frame.bit
  rw [dark, litAt_eq _ (Nat.mod_lt _ (by decide))]
  exact Nat.zero_testBit _

theorem blank_amiga (across down : Nat) : amiga.ink ' ' across down = false := by
  have dark : (gamiga8 ' ').2.getD down 0 = 0 := by
    have rows : (gamiga8 ' ').2 = List.replicate 8 0 := by decide +kernel
    rw [rows, List.getD_eq_getElem?_getD, List.getElem?_replicate]
    split <;> rfl
  unfold amiga
  dsimp only
  rw [dark]
  by_cases narrow : across < 8
  · rw [litAt_eq _ narrow, UInt8.toNat_zero, Nat.zero_testBit, Bool.and_false]
  · rw [decide_eq_false narrow, Bool.false_and]

/-- A text with blanks up to the right edge. -/
def padded (text : String) : List Char :=
  text.toList ++ List.replicate (14 - text.length) ' '

/-- The lines of the page below its title: the head, and five rows. -/
def painLines (texts : List String) : List (Line Char) :=
  (List.range 6).map fun row => ⟨2, 10 + 9 * row, padded (texts.getD row "")⟩

/-- The page as lines of text. -/
def painSheet (texts : List String) : List (Line Char) :=
  ⟨2, 1, "PAIN".toList⟩ :: ⟨99, 1, "7/7".toList⟩ :: painLines texts

/-- The first five rows of a sweep by their codes, as the page says them. -/
def painRows (sweep : FaultMsg) : List String :=
  ((sweep.rows.mergeSort fun first second => first.code ≤ second.code).take 5).map
    Ripperdoc.rowLabel

theorem length_padded {text : String} (short : text.length ≤ 14) :
    (padded text).length = 14 := by
  unfold padded
  rw [List.length_append, List.length_replicate, String.length_toList]
  omega

theorem length_faultHead (t : F64) (st : RenderState) :
    (faultHead t st).length ≤ 14 := by
  unfold faultHead
  split
  · decide
  · simp

theorem length_rowLabel (row : FaultRow) : (Ripperdoc.rowLabel row).length ≤ 14 := by
  unfold Ripperdoc.rowLabel takeChars
  simp

theorem lit_painLines {texts : List String} (few : texts.length ≤ 6) (x y : Nat) :
    Lit amiga (painLines texts) x y ↔ ∃ index text, texts[index]? = some text ∧
      (⟨2, 10 + 9 * index, text.toList⟩ : Line Char).Lights amiga x y := by
  have blanks (top : Nat) (text : String) :=
    Line.lights_blanks amiga blank_amiga ⟨2, top, text.toList⟩ (14 - text.length) x y
  constructor
  · rintro ⟨line, member, lights⟩
    obtain ⟨row, -, rfl⟩ := List.mem_map.mp member
    have bare := (blanks _ _).mp lights
    cases there : texts[row]? with
    | none =>
        rw [List.getD_eq_getElem?_getD, there] at bare
        obtain ⟨index, letter, across, down, nothing, -⟩ := bare
        cases nothing
    | some text =>
        rw [List.getD_eq_getElem?_getD, there] at bare
        exact ⟨row, text, there, bare⟩
  · rintro ⟨row, text, there, lights⟩
    obtain ⟨within, -⟩ := List.getElem?_eq_some_iff.mp there
    have listed : row ∈ List.range 6 := List.mem_range.mpr (by omega)
    refine ⟨_, List.mem_map_of_mem listed, ?_⟩
    rw [List.getD_eq_getElem?_getD, there]
    exact (blanks _ _).mpr lights

/-- The head is the first of the lines, and the rows are those behind it. -/
theorem lit_head_rows (head : String) (rows : List String) (x y : Nat) :
    ((⟨2, 10, head.toList⟩ : Line Char).Lights amiga x y ∨
        ∃ index text, rows[index]? = some text ∧
          (⟨2, 19 + 9 * index, text.toList⟩ : Line Char).Lights amiga x y) ↔
      ∃ index text, (head :: rows)[index]? = some text ∧
        (⟨2, 10 + 9 * index, text.toList⟩ : Line Char).Lights amiga x y := by
  have top (index : Nat) : 10 + 9 * (index + 1) = 19 + 9 * index := by omega
  constructor
  · rintro (lights | ⟨index, text, there, lights⟩)
    · exact ⟨0, head, rfl, lights⟩
    · refine ⟨index + 1, text, there, ?_⟩
      rw [top]
      exact lights
  · rintro ⟨index, text, there, lights⟩
    cases index with
    | zero =>
        cases there
        exact .inl lights
    | succ index =>
        rw [top] at lights
        exact .inr ⟨index, text, there, lights⟩

/-- The page shows the lines of the head and of the first five rows. -/
theorem bit_fault {p : Platform} (glyphs : p.fonts.gamiga8 = gamiga8)
    {st : RenderState} {sweep : FaultMsg} (held : st.fault = some sweep) (t : F64)
    {x y : Nat} (xOn : x < FRAME_WIDTH) (yOn : y < FRAME_HEIGHT) :
    (Ripperdoc.fault p Frame.new t st).bit x y = true ↔
      Lit amiga (painSheet (faultHead t st :: painRows sweep)) x y := by
  have few : (faultHead t st :: painRows sweep).length ≤ 6 := by
    unfold painRows
    rw [List.length_cons, List.length_map, List.length_take]
    omega
  have page : (Ripperdoc.fault p Frame.new t st).bit x y = true ↔
      (((⟨2, 1, "PAIN".toList⟩ : Line Char).Lights amiga x y ∨
        (⟨99, 1, "7/7".toList⟩ : Line Char).Lights amiga x y) ∨
        (⟨2, 10, (faultHead t st).toList⟩ : Line Char).Lights amiga x y) ∨
        ∃ index text, (painRows sweep)[index]? = some text ∧
          (⟨2, 19 + 9 * index, text.toList⟩ : Line Char).Lights amiga x y := by
    have rows := bit_rows glyphs
      (Ripperdoc.write p (Ripperdoc.write p (Ripperdoc.write p Frame.new "PAIN" 2 1)
        "7/7" 99 1) (faultHead t st) 2 10)
      ((sweep.rows.mergeSort fun first second => first.code ≤ second.code).take 5)
      0 xOn yOn
    have titled := bit_write glyphs Frame.new "PAIN" 2 1 xOn yOn
    rw [bit_new, or_iff_right Bool.false_ne_true] at titled
    have numbered := bit_write glyphs (Ripperdoc.write p Frame.new "PAIN" 2 1)
      "7/7" 99 1 xOn yOn
    have headed := bit_write glyphs (Ripperdoc.write p (Ripperdoc.write p Frame.new
      "PAIN" 2 1) "7/7" 99 1) (faultHead t st) 2 10 xOn yOn
    simp only [Nat.zero_add] at rows
    unfold Ripperdoc.fault RenderState.faultsView
    rw [held]
    refine rows.trans (or_congr_left (headed.trans (or_congr_left ?_)))
    exact numbered.trans (or_congr_left titled)
  unfold painSheet
  rw [page, lit_cons, lit_cons, or_assoc, or_assoc]
  refine or_congr_right (or_congr_right ?_)
  exact (lit_head_rows _ _ x y).trans (lit_painLines few x y).symm

theorem apart_painSheet (texts : List String) :
    (painSheet texts).Pairwise (Line.Apart amiga) := by
  have below : ∀ line ∈ painLines texts, 10 ≤ line.top := by
    intro line member
    obtain ⟨row, -, rfl⟩ := List.mem_map.mp member
    exact Nat.le_add_right 10 _
  have rows : (painLines texts).Pairwise (Line.Apart amiga) := by
    refine List.pairwise_map.mpr (List.pairwise_lt_range.imp ?_)
    intro first second behind
    refine .inl ?_
    change 10 + 9 * first + 8 ≤ 10 + 9 * second
    omega
  refine List.pairwise_cons.mpr ⟨?_, List.pairwise_cons.mpr ⟨?_, rows⟩⟩
  · intro line member
    rcases List.mem_cons.mp member with rfl | member
    · exact .inr (.inr (.inl (by decide)))
    · exact .inl (Nat.le_trans (by decide) (below line member))
  · intro line member
    exact .inl (Nat.le_trans (by decide) (below line member))

/-- What is read below the title, by whoever has the pixels. -/
def readPain (pixel : Nat → Nat → Bool) : List (List (Option Char)) :=
  (List.range 6).map fun row => readLine amiga printable pixel 2 (10 + 9 * row) 14

/-- The letters of a text as they are read. -/
def asRead (text : String) : List (Option Char) :=
  (padded text).map fun ch => some (looks ch)

/-- The texts of the page, read off pixels that show it. -/
theorem readPain_of_shows {pixel : Nat → Nat → Bool} {texts : List String}
    (short : ∀ text ∈ texts, text.length ≤ 14)
    (shows : Shows amiga FRAME_WIDTH FRAME_HEIGHT pixel (painSheet texts)) :
    readPain pixel = (List.range 6).map fun row => asRead (texts.getD row "") := by
  refine List.map_congr_left fun row listed => ?_
  have low := List.mem_range.mp listed
  have fits : (texts.getD row "").length ≤ 14 := by
    rw [List.getD_eq_getElem?_getD]
    cases there : texts[row]? with
    | none => decide
    | some text => exact short text (List.mem_of_getElem? there)
  have length := length_padded fits
  have member : (⟨2, 10 + 9 * row, padded (texts.getD row "")⟩ : Line Char) ∈
      painSheet texts :=
    List.mem_cons_of_mem _ (List.mem_cons_of_mem _
      (List.mem_map.mpr ⟨row, listed, rfl⟩))
  have read := readLine_of_shows amiga shows (apart_painSheet texts) member (by
    dsimp only
    rw [length]
    decide) (by
    change 10 + 9 * row + 8 ≤ 64
    omega) printable
  dsimp only at read
  rw [length] at read
  rw [read]
  exact List.map_congr_left fun ch _ => twin_amiga ch

/-- The title and the number of the page. -/
def readTitle (pixel : Nat → Nat → Bool) :
    List (Option Char) × List (Option Char) :=
  (readLine amiga printable pixel 2 1 4, readLine amiga printable pixel 99 1 3)

theorem readTitle_of_shows {pixel : Nat → Nat → Bool} {texts : List String}
    (shows : Shows amiga FRAME_WIDTH FRAME_HEIGHT pixel (painSheet texts)) :
    readTitle pixel = ("PAIN".toList.map some, "7/7".toList.map some) := by
  have read (line : Line Char) (member : line ∈ painSheet texts) :=
    readLine_of_shows amiga shows (apart_painSheet texts) member
  have title := read ⟨2, 1, "PAIN".toList⟩ List.mem_cons_self
    (by decide) (by decide) printable
  have number := read ⟨99, 1, "7/7".toList⟩ (List.mem_cons_of_mem _ List.mem_cons_self)
    (by decide) (by decide) printable
  refine Prod.ext ?_ ?_
  · refine title.trans ((List.map_congr_left fun ch _ => twin_amiga ch).trans ?_)
    decide
  · refine number.trans ((List.map_congr_left fun ch _ => twin_amiga ch).trans ?_)
    decide

/-- The face shows the page of the sweep: pain has taken it over, or the bench has
called the page up. -/
def PainShown (st : RenderState) : Prop :=
  (faceState st).mode = "ripperdoc" ∧ (faceState st).page = "fault"

/-- Pain takes over any face that is not at the bench, and with the ring dark every
face. -/
theorem painShown_of_pain {st : RenderState}
    (pain : rendererCondition st = "hurts" ∨ rendererCondition st = "mute" ∨
      ringDark st = true)
    (away : st.mode ≠ "ripperdoc" ∨ ringDark st = true) : PainShown st := by
  unfold PainShown faceState
  dsimp only
  rw [if_pos ⟨pain, away⟩]
  exact ⟨rfl, rfl⟩

theorem fault_faceState (st : RenderState) : (faceState st).fault = st.fault := by
  unfold faceState
  dsimp only
  split <;> rfl

theorem picture_of_painShown {p : Platform} {st : RenderState} (shown : PainShown st)
    (t : F64) :
    FaceRenderer.picture p st t = (Ripperdoc.fault p Frame.new t (faceState st)).frameBytes := by
  have mode : faceMode st = "ripperdoc" := by
    unfold faceMode
    rw [shown.1]
    rfl
  unfold FaceRenderer.picture
  rw [mode]
  change (Ripperdoc.draw p Frame.new t (faceState st)).frameBytes = _
  unfold Ripperdoc.draw
  rw [shown.2]
  rfl

/-- The sweep of a fault message, as the face holds it. -/
def sweepOf (m : Wire.Fault) : FaultMsg where
  rows := m.rows.map fun row =>
    { level := row.level, code := row.code, text := row.text, face := row.face.getD "" }
  condition := m.condition
  ts := m.ts.getD 0

theorem fault_hold_other (wall : F64) {topic : String} (other : topic ≠ "fault")
    (env : Wire.Envelope) (held : RenderState) :
    (held.hold wall topic env).fault = held.fault := by
  unfold RenderState.hold
  dsimp only
  split
  case h_3 =>
    unfold RenderState.holdSonar
    split
    · dsimp only
      split <;> rfl
    · rfl
  case h_5 => rw [if_neg other]
  case h_7 => rfl
  all_goals
    split
    · rfl
    · rfl

theorem fault_holdEach_other {prost : Wire.Prost} (wall : F64) (held : RenderState)
    {later : List (Arrival prost)} (others : ∀ other ∈ later, other.msg.topic ≠ "fault") :
    (holdEach wall held later).fault = held.fault := by
  induction later generalizing held with
  | nil => rfl
  | cons first rest induction =>
      have tail := induction (held.hold wall first.msg.topic first.msg.env)
        fun other member => others other (List.mem_cons_of_mem _ member)
      exact tail.trans (fault_hold_other wall (others first List.mem_cons_self) _ held)

/-- The newest sweep of a feed is the one the face holds. -/
theorem fault_holdEach {prost : Wire.Prost} (wall : F64) (held : RenderState)
    {earlier later : List (Arrival prost)} {sweep : Arrival prost} {m : Wire.Fault}
    (topic : sweep.msg.topic = "fault") (body : sweep.msg.env.body = some (.fault m))
    (newest : ∀ other ∈ later, other.msg.topic ≠ "fault") :
    (holdEach wall held (earlier ++ sweep :: later)).fault = some (sweepOf m) := by
  have split : holdEach wall held (earlier ++ sweep :: later) =
      holdEach wall ((holdEach wall held earlier).hold wall sweep.msg.topic
        sweep.msg.env) later := by
    unfold holdEach
    rw [List.foldl_append, List.foldl_cons]
  rw [split, fault_holdEach_other wall _ newest]
  unfold RenderState.hold
  rw [topic, body]
  rfl

/-- Whatever the face has drawn and heard before: while the page of the sweep is
shown and no wash runs, who has the bytes of the frame reads its title, the head,
and under it the first five rows of the newest sweep by their codes, each with its
evidence or else its code, cut to fourteen letters, and blanks where rows are
missing. -/
theorem pain_is_read {p : Platform} (glyphs : p.fonts.gamiga8 = gamiga8)
    {r : FaceRenderer p} (reached : FaceRenderer.Reached p r) {prost : Wire.Prost}
    (wall : F64) (held : RenderState) {earlier later : List (Arrival prost)}
    {sweep : Arrival prost} {m : Wire.Fault} (topic : sweep.msg.topic = "fault")
    (body : sweep.msg.env.body = some (.fault m))
    (newest : ∀ other ∈ later, other.msg.topic ≠ "fault") {st : RenderState}
    (heard : st = holdEach wall held (earlier ++ sweep :: later))
    (shown : PainShown st) {t : F64} (quiet : r.Quiet st t) :
    readTitle (Console.px (r.render st t).1) =
        ("PAIN".toList.map some, "7/7".toList.map some) ∧
      readPain (Console.px (r.render st t).1) = (List.range 6).map fun row =>
        asRead ((faultHead t st :: painRows (sweepOf m)).getD row "") := by
  have fault : (faceState st).fault = some (sweepOf m) := by
    rw [fault_faceState, heard]
    exact fault_holdEach wall held topic body newest
  have head : faultHead t (faceState st) = faultHead t st := by
    unfold faultHead RenderState.faultsView
    rw [fault_faceState]
  have forgets : FaceRenderer.Forgets (faceMode st) := by
    unfold faceMode
    rw [shown.1]
    decide
  have bytes : (r.render st t).1 =
      (Ripperdoc.fault p Frame.new t (faceState st)).frameBytes :=
    (FaceRenderer.render_quiet reached quiet forgets).trans
      (picture_of_painShown shown t)
  have shows : Shows amiga FRAME_WIDTH FRAME_HEIGHT (Console.px (r.render st t).1)
      (painSheet (faultHead t st :: painRows (sweepOf m))) := by
    intro x y xOn yOn
    rw [bytes, Console.px_frameBytes _ xOn yOn, ← head]
    exact bit_fault glyphs fault t xOn yOn
  have short : ∀ text ∈ faultHead t st :: painRows (sweepOf m), text.length ≤ 14 := by
    intro text member
    rcases List.mem_cons.mp member with rfl | member
    · exact length_faultHead t st
    · obtain ⟨row, -, rfl⟩ := List.mem_map.mp member
      exact length_rowLabel row
  exact ⟨readTitle_of_shows shows, readPain_of_shows short shows⟩

namespace Trial

/-- The trial's platform with the letters of the pages. -/
def lettered : Platform :=
  { platform with fonts := { platform.fonts with gamiga8 := gamiga8 } }

def hot : Wire.Fault where
  rows := [⟨"fault", "TEMP HOT", "SoC at 86C", some "HOT 86C"⟩]

def hotNews : Arrival noForeignBytes :=
  .ofEncode noForeignBytes "fault" (Wire.envelope (.fault hot))
    faultNews.subscribed rfl

/-- A face that shows the scope, and is told of a body that hurts. -/
def hurting : RenderState :=
  holdEach 0 { mode := "scope", condition := "hurts", clockNow := 0 } [hotNews]

theorem pain_is_read_hot :
    readTitle (Console.px ((FaceRenderer.new lettered 0).render hurting 1).1) =
        ("PAIN".toList.map some, "7/7".toList.map some) ∧
      readPain (Console.px ((FaceRenderer.new lettered 0).render hurting 1).1) =
        ["1 HURTS", "HOT 86C", "", "", "", ""].map asRead := by
  have shown : PainShown hurting :=
    painShown_of_pain (.inl (by decide)) (.inl (by decide))
  have quiet : (FaceRenderer.new lettered 0).Quiet hurting 1 :=
    ⟨by decide +kernel, fun _ => by decide +kernel⟩
  have last : ∀ other ∈ ([] : List (Arrival noForeignBytes)),
      other.msg.topic ≠ "fault" := by
    intro other member
    cases member
  have read := @pain_is_read lettered rfl _ (.new 0) _ 0
    { mode := "scope", condition := "hurts", clockNow := 0 } [] [] hotNews hot
    rfl rfl last hurting rfl shown 1 quiet
  have rows : painRows (sweepOf hot) = ["HOT 86C"] := by
    unfold painRows sweepOf hot
    rw [List.map_singleton, List.mergeSort_singleton]
    rfl
  have head : faultHead 1 hurting = "1 HURTS" := by
    decide +kernel
  rw [rows, head] at read
  exact read

end Trial

end Oled
