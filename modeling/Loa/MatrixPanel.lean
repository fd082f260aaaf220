import Loa.FrameBits
import Loa.PointerMemory
import Loa.RingEncode

/-!
# The matrix panel

The HT16K33 has sixteen bytes of display memory behind a pointer that moves on by
itself.  On this board an even address is a column, counted from the right, and
the top row is the high bit.  The driver draws into a frame of its own and sends
all of it at once.
-/

namespace LedMatrix

open Oled (litAt litAt_switch)

/-- The display memory behind its pointer, and the registers. -/
structure Chip where
  ram : PointerMemory (Fin 16) UInt8
  osc : Bool
  display : Bool
  dim : UInt8

/-- One transaction: an address and the bytes that go there, or a command, by
the high half of its first byte. -/
def Chip.take (chip : Chip) : Bytes → Chip
  | [] => chip
  | first :: data =>
      if first >>> 4 = 0x0 then
        { chip with
          ram := PointerMemory.stream (· + 1)
            { chip.ram with pointer := Fin.ofNat 16 first.toNat } data }
      else if first >>> 4 = 0x2 then { chip with osc := first &&& 1 = 1 }
      else if first >>> 4 = 0x8 then { chip with display := first &&& 1 = 1 }
      else if first >>> 4 = 0xE then { chip with dim := first &&& 0x0F }
      else chip

/-- An LED by its column and row as viewed: the oscillator runs, the display is
on, and the bit of the LED is set. -/
def Chip.led (chip : Chip) (x y : Nat) : Bool :=
  chip.osc && chip.display &&
    litAt (chip.ram.cells (Fin.ofNat 16 (2 * (7 - x)))) ((y + 7) % 8)

def CMD_OSC_ON : UInt8 := 0x21

def CMD_DISPLAY_ON : UInt8 := 0x81

def CMD_BLINK_OFF : UInt8 := 0xA0

def CMD_DIM : UInt8 := 0xE0

def FRAME_LEN : Nat := 16

/-- The byte and the mask of a pixel. -/
def ram (x y : Nat) : Nat × UInt8 :=
  (2 * (7 - x), 1 <<< UInt8.ofNat ((y + 7) % 8))

/-- The driver, and the chip at the other end of the bus. -/
structure Panel where
  chip : Chip
  frame : Bytes
  rotation : Nat
  sized : frame.length = FRAME_LEN

/-- One shape: the top row first, the high bit leftmost. -/
structure Glyph where
  name : String
  rows : List UInt8

/-- A pixel of a glyph. -/
def Glyph.pixel (g : Glyph) (x y : Nat) : Bool :=
  (g.rows.getD y 0) &&& (0x80 >>> UInt8.ofNat x) ≠ 0

namespace Panel

def send (panel : Panel) (bytes : Bytes) : Panel :=
  { panel with chip := panel.chip.take bytes }

def cmd (panel : Panel) (byte : UInt8) : Panel :=
  panel.send [byte]

def brightness (panel : Panel) (level : UInt8) : Panel :=
  panel.cmd (CMD_DIM ||| (level &&& 0x0F))

def clear (panel : Panel) : Panel where
  chip := panel.chip
  frame := List.replicate FRAME_LEN 0
  rotation := panel.rotation
  sized := List.length_replicate

/-- Screen coordinates to those of the board, clockwise. -/
def rotate (rotation x y : Nat) : Nat × Nat :=
  match rotation % 360 with
  | 90 => (7 - y, x)
  | 180 => (7 - x, 7 - y)
  | 270 => (y, 7 - x)
  | _ => (x, y)

def set (panel : Panel) (x y : Nat) (on : Bool) : Panel :=
  if 7 < x ∨ 7 < y then panel
  else
    let turned := rotate panel.rotation x y
    let (byte, bit) := ram turned.1 turned.2
    let old := panel.frame.getD byte 0
    { panel with
      frame := panel.frame.set byte
        (if on then old ||| bit else old &&& ~~~bit)
      sized := List.length_set.trans panel.sized }

/-- One transaction: the address 0 and then the whole frame. -/
def flush (panel : Panel) : Panel :=
  panel.send (0x00 :: panel.frame)

/-- A glyph alone on the frame. -/
def glyph (panel : Panel) (g : Glyph) : Panel :=
  (List.range 8).foldl (fun panel y =>
    (List.range 8).foldl (fun panel x =>
      if (g.rows.getD y 0) &&& (0x80 >>> UInt8.ofNat x) ≠ 0 then
        panel.set x y true
      else panel) panel) panel.clear

/-- Wake the chip, clear its memory, and light it. -/
def opened (chip : Chip) (level : UInt8) : Panel :=
  (((((({ chip := chip
          frame := List.replicate FRAME_LEN 0
          rotation := 0
          sized := List.length_replicate } : Panel).cmd CMD_OSC_ON).cmd
    CMD_BLINK_OFF).brightness level).flush).cmd CMD_DISPLAY_ON)

/-- A pixel of the frame, by its place on the board. -/
def cell (panel : Panel) (x y : Nat) : Bool :=
  litAt (panel.frame.getD (2 * (7 - x)) 0) ((y + 7) % 8)

@[simp]
theorem clear_rotation (panel : Panel) : panel.clear.rotation = panel.rotation :=
  rfl

@[simp]
theorem set_rotation (panel : Panel) (x y : Nat) (on : Bool) :
    (panel.set x y on).rotation = panel.rotation := by
  unfold set
  split_ifs <;> rfl

@[simp]
theorem set_chip (panel : Panel) (x y : Nat) (on : Bool) :
    (panel.set x y on).chip = panel.chip := by
  unfold set
  split_ifs <;> rfl

variable {panel : Panel} {x y u v : Nat}

theorem rotate_inside (rotation : Nat) (xOn : x < 8) (yOn : y < 8) :
    (rotate rotation x y).1 < 8 ∧ (rotate rotation x y).2 < 8 := by
  unfold rotate
  split <;> dsimp only <;> omega

/-- A turn moves no two pixels to one place. -/
theorem rotate_eq_iff (rotation : Nat) (xOn : x < 8) (yOn : y < 8) (uOn : u < 8)
    (vOn : v < 8) :
    ((rotate rotation u v).1 = (rotate rotation x y).1 ∧
        (rotate rotation u v).2 = (rotate rotation x y).2) ↔
      u = x ∧ v = y := by
  unfold rotate
  split <;> dsimp only <;> omega

theorem cell_clear (x y : Nat) : panel.clear.cell x y = false := by
  have dark : panel.clear.frame.getD (2 * (7 - x)) 0 = 0 := by
    rw [clear, List.getD_eq_getElem?_getD, List.getElem?_replicate]
    split_ifs <;> rfl
  unfold cell
  rw [dark]
  simp [litAt]

/-- A pixel is set where it is turned to, and no other is touched. -/
theorem cell_set (xOn : x < 8) (yOn : y < 8) (uOn : u < 8) (vOn : v < 8)
    (on : Bool) :
    (panel.set u v on).cell (rotate panel.rotation x y).1
        (rotate panel.rotation x y).2 =
      if u = x ∧ v = y then on
      else panel.cell (rotate panel.rotation x y).1
        (rotate panel.rotation x y).2 := by
  have same := rotate_eq_iff panel.rotation xOn yOn uOn vOn
  obtain ⟨columnOn, rowOn⟩ := rotate_inside panel.rotation xOn yOn
  obtain ⟨columnSet, rowSet⟩ := rotate_inside panel.rotation uOn vOn
  have inside : ¬ (7 < u ∨ 7 < v) := by omega
  unfold set
  rw [if_neg inside]
  generalize rotate panel.rotation x y = seen at *
  generalize rotate panel.rotation u v = drawn at *
  have sized := panel.sized
  unfold FRAME_LEN at sized
  unfold cell ram
  dsimp only
  rw [List.getD_eq_getElem?_getD, List.getElem?_set]
  by_cases column : drawn.1 = seen.1
  · have there : 2 * (7 - seen.1) < panel.frame.length := by omega
    rw [column, if_pos rfl, if_pos there, Option.getD_some,
      litAt_switch _ on (Nat.mod_lt _ (by decide)) (Nat.mod_lt _ (by decide))]
    have row : (drawn.2 + 7) % 8 = (seen.2 + 7) % 8 ↔ u = x ∧ v = y := by
      rw [← same]
      omega
    simp only [row]
  · have apart : ¬ (u = x ∧ v = y) := fun equal => column (same.mpr equal).1
    have other : 2 * (7 - drawn.1) ≠ 2 * (7 - seen.1) := by omega
    rw [if_neg other, if_neg apart, ← List.getD_eq_getElem?_getD]

/-- The pixels of a row, up to a column. -/
theorem cell_row (g : Glyph) (xOn : x < 8) (yOn : y < 8) (vOn : v < 8)
    {columns : List Nat} (on : ∀ column ∈ columns, column < 8) :
    let drawn := columns.foldl (fun panel x =>
      if (g.rows.getD v 0) &&& (0x80 >>> UInt8.ofNat x) ≠ 0 then
        panel.set x v true
      else panel) panel
    drawn.rotation = panel.rotation ∧ drawn.chip = panel.chip ∧
      drawn.cell (rotate panel.rotation x y).1 (rotate panel.rotation x y).2 =
        (panel.cell (rotate panel.rotation x y).1
            (rotate panel.rotation x y).2 ||
          decide (x ∈ columns ∧ v = y) && g.pixel x y) := by
  induction columns generalizing panel with
  | nil => simp
  | cons column columns induction =>
      have later := fun panel : Panel => @induction panel fun other member =>
        on other (List.mem_cons_of_mem _ member)
      have columnOn := on column List.mem_cons_self
      rw [List.foldl_cons]
      by_cases lit : (g.rows.getD v 0) &&& (0x80 >>> UInt8.ofNat column) ≠ 0
      · obtain ⟨turned, chip, seen⟩ := later (panel.set column v true)
        rw [if_pos lit]
        rw [set_rotation] at turned seen
        rw [set_chip] at chip
        refine ⟨turned, chip, seen.trans ?_⟩
        rw [cell_set xOn yOn columnOn vOn]
        by_cases here : column = x ∧ v = y
        · obtain ⟨rfl, rfl⟩ := here
          have pixel : g.pixel column v = true := decide_eq_true lit
          simp [pixel]
        · rw [if_neg here]
          have rest : (x ∈ column :: columns ∧ v = y) ↔ x ∈ columns ∧ v = y := by
            rw [List.mem_cons]
            grind
          simp only [rest]
      · obtain ⟨turned, chip, seen⟩ := later panel
        rw [if_neg lit]
        refine ⟨turned, chip, seen.trans ?_⟩
        by_cases here : column = x ∧ v = y
        · obtain ⟨rfl, rfl⟩ := here
          have pixel : g.pixel column v = false := decide_eq_false lit
          simp [pixel]
        · have rest : (x ∈ column :: columns ∧ v = y) ↔ x ∈ columns ∧ v = y := by
            rw [List.mem_cons]
            grind
          simp only [rest]

/-- A glyph is drawn as it is written, turned as the panel is. -/
theorem glyph_drawn (panel : Panel) (g : Glyph) :
    (panel.glyph g).rotation = panel.rotation ∧
      (panel.glyph g).chip = panel.chip ∧
      ∀ x < 8, ∀ y < 8, (panel.glyph g).cell (rotate panel.rotation x y).1
        (rotate panel.rotation x y).2 = g.pixel x y := by
  have columns : ∀ column ∈ List.range 8, column < 8 := fun column member =>
    List.mem_range.mp member
  have rows (rows : List Nat) (on : ∀ row ∈ rows, row < 8) (start : Panel) :
      let drawn := rows.foldl (fun panel y =>
        (List.range 8).foldl (fun panel x =>
          if (g.rows.getD y 0) &&& (0x80 >>> UInt8.ofNat x) ≠ 0 then
            panel.set x y true
          else panel) panel) start
      drawn.rotation = start.rotation ∧ drawn.chip = start.chip ∧
        ∀ x < 8, ∀ y < 8,
          drawn.cell (rotate start.rotation x y).1 (rotate start.rotation x y).2 =
            (start.cell (rotate start.rotation x y).1
                (rotate start.rotation x y).2 ||
              decide (y ∈ rows) && g.pixel x y) := by
    induction rows generalizing start with
    | nil => simp
    | cons row rows induction =>
        have later := induction fun other member =>
          on other (List.mem_cons_of_mem _ member)
        have rowOn := on row List.mem_cons_self
        have first (x y : Nat) (xOn : x < 8) (yOn : y < 8) :=
          @cell_row start x y row g xOn yOn rowOn _ columns
        obtain ⟨turnedFirst, chipFirst, -⟩ :=
          first 0 0 (by decide) (by decide)
        obtain ⟨turned, chip, seen⟩ := later ((List.range 8).foldl
          (fun panel x =>
            if (g.rows.getD row 0) &&& (0x80 >>> UInt8.ofNat x) ≠ 0 then
              panel.set x row true
            else panel) start)
        refine ⟨turned.trans turnedFirst, chip.trans chipFirst,
          fun x xOn y yOn => ?_⟩
        have earlier := (first x y xOn yOn).2.2
        rw [turnedFirst] at seen
        refine (seen x xOn y yOn).trans ?_
        rw [earlier]
        have onColumns : x ∈ List.range 8 := List.mem_range.mpr xOn
        by_cases here : row = y
        · subst here
          cases g.pixel x row <;> simp [onColumns]
        · have other : y ∈ row :: rows ↔ y ∈ rows := by
            rw [List.mem_cons]
            exact or_iff_right (Ne.symm here)
          simp [here, other]
  obtain ⟨turned, chip, seen⟩ := rows (List.range 8) columns panel.clear
  refine ⟨turned, chip, fun x xOn y yOn => ?_⟩
  have onRows : y ∈ List.range 8 := List.mem_range.mpr yOn
  have drawn := seen x xOn y yOn
  rw [clear_rotation, cell_clear] at drawn
  refine drawn.trans ?_
  simp [onRows]

theorem iterate_succ (count : Nat) :
    (fun address : Fin 16 => address + 1)^[count] 0 = Fin.ofNat 16 count := by
  induction count with
  | zero => rfl
  | succ count induction =>
      rw [Function.iterate_succ_apply', induction]
      apply Fin.ext
      simp [Fin.val_add, Fin.ofNat]

/-- All of the frame is in the memory, and the registers stay. -/
theorem flush_chip (panel : Panel) :
    panel.flush.chip =
        { panel.chip with ram := panel.flush.chip.ram } ∧
      ∀ place < 16, panel.flush.chip.ram.cells (Fin.ofNat 16 place) =
        panel.frame.getD place 0 := by
  have sent : panel.flush.chip =
      { panel.chip with
        ram := PointerMemory.stream (· + 1)
          { panel.chip.ram with pointer := 0 } panel.frame } := rfl
  refine ⟨by rw [sent], fun place inside => ?_⟩
  rw [sent]
  have sized := panel.sized
  unfold FRAME_LEN at sized
  have below : place < panel.frame.length := by omega
  have passed := @PointerMemory.stream_passed (Fin 16) UInt8 _ (· + 1)
    { panel.chip.ram with pointer := 0 } panel.frame place below (by
      intro later belowLater behind
      rw [iterate_succ, iterate_succ]
      intro same
      have values := congrArg Fin.val same
      simp only [Fin.ofNat] at values
      omega)
  rw [iterate_succ] at passed
  rw [passed, List.getD_eq_getElem?_getD, List.getElem?_eq_getElem below,
    Option.getD_some]

/-- What is on the panel once a frame was sent. -/
theorem flush_led (panel : Panel) (xOn : x < 8) :
    panel.flush.chip.led x y =
      (panel.chip.osc && panel.chip.display && panel.cell x y) := by
  obtain ⟨registers, cells⟩ := panel.flush_chip
  have place := cells (2 * (7 - x)) (by omega)
  have osc : panel.flush.chip.osc = panel.chip.osc := by rw [registers]
  have display : panel.flush.chip.display = panel.chip.display := by
    rw [registers]
  unfold Chip.led cell
  rw [osc, display, place]

/-- A command leaves the address half of its byte alone. -/
theorem dim_halves (level : UInt8) :
    (CMD_DIM ||| (level &&& 0x0F)) >>> 4 = 0xE ∧
      (CMD_DIM ||| (level &&& 0x0F)) &&& 0x0F = level &&& 0x0F := by
  apply Ring.forall_byte fun level =>
    (CMD_DIM ||| (level &&& 0x0F)) >>> 4 = 0xE ∧
      (CMD_DIM ||| (level &&& 0x0F)) &&& 0x0F = level &&& 0x0F
  decide +kernel

theorem brightness_chip (panel : Panel) (level : UInt8) :
    (panel.brightness level).chip = { panel.chip with dim := level &&& 0x0F } := by
  obtain ⟨high, low⟩ := dim_halves level
  unfold brightness cmd send Chip.take
  dsimp only
  rw [high, low]
  rfl

theorem cmd_osc (panel : Panel) :
    (panel.cmd CMD_OSC_ON).chip = { panel.chip with osc := true } :=
  rfl

theorem cmd_blink (panel : Panel) :
    (panel.cmd CMD_BLINK_OFF).chip = panel.chip :=
  rfl

theorem cmd_display (panel : Panel) :
    (panel.cmd CMD_DISPLAY_ON).chip = { panel.chip with display := true } :=
  rfl

/-- Whatever the chip held, a panel that was opened runs and is dark. -/
theorem opened_chip (chip : Chip) (level : UInt8) :
    (opened chip level).chip.osc = true ∧
      (opened chip level).chip.display = true ∧
      (opened chip level).chip.dim = level &&& 0x0F ∧
      ∀ x < 8, ∀ y, (opened chip level).chip.led x y = false := by
  obtain ⟨fresh, frameFresh⟩ :
      ∃ fresh : Panel, fresh.frame = List.replicate FRAME_LEN 0 ∧
        opened chip level =
          ((((fresh.cmd CMD_OSC_ON).cmd CMD_BLINK_OFF).brightness level).flush).cmd
            CMD_DISPLAY_ON :=
    ⟨_, rfl, rfl⟩
  rw [frameFresh.2]
  generalize ready : ((fresh.cmd CMD_OSC_ON).cmd CMD_BLINK_OFF).brightness level =
    panel
  have chipReady : panel.chip =
      { fresh.chip with osc := true, dim := level &&& 0x0F } := by
    rw [← ready, brightness_chip, cmd_blink, cmd_osc]
  have frameReady : panel.frame = List.replicate FRAME_LEN 0 := by
    rw [← ready]
    exact frameFresh.1
  obtain ⟨registers, cells⟩ := panel.flush_chip
  rw [cmd_display, registers, chipReady]
  refine ⟨rfl, rfl, rfl, fun x xOn y => ?_⟩
  unfold Chip.led
  dsimp only
  rw [cells _ (by omega), frameReady, List.getD_eq_getElem?_getD,
    List.getElem?_replicate]
  split_ifs <;> simp [litAt]

end Panel

end LedMatrix
