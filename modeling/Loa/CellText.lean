import Mathlib.Data.List.Pairwise
import Mathlib.Tactic.Ring

/-!
# Text in cells

A font of one pitch draws every letter in a cell of its own.  Lines of text whose
boxes keep apart do not touch each other's cells, so each cell of the whole
picture has the ink of its letter and nothing else, and can be read by looking
the ink up among the letters of an alphabet.
-/

namespace CellText

/-- A font of one pitch, and what a letter inks of its cell. -/
structure Font (Letter : Type) where
  pitch : Nat
  height : Nat
  ink : Letter → Nat → Nat → Bool
  inside : ∀ {letter : Letter} {across down : Nat}, ink letter across down = true →
    across < pitch ∧ down < height

/-- A line of text and the corner of its first cell. -/
structure Line (Letter : Type) where
  left : Nat
  top : Nat
  letters : List Letter

variable {Letter : Type} (font : Font Letter)

namespace Line

/-- A pixel is lit by a letter of the line. -/
def Lights (line : Line Letter) (x y : Nat) : Prop :=
  ∃ index letter across down, line.letters[index]? = some letter ∧
    font.ink letter across down = true ∧
    x = line.left + font.pitch * index + across ∧ y = line.top + down

/-- The box of a pixel that a line lights. -/
theorem Lights.box {line : Line Letter} {x y : Nat} (lights : line.Lights font x y) :
    (line.left ≤ x ∧ x < line.left + font.pitch * line.letters.length) ∧
      line.top ≤ y ∧ y < line.top + font.height := by
  obtain ⟨index, letter, across, down, there, inked, rfl, rfl⟩ := lights
  obtain ⟨narrow, low⟩ := font.inside inked
  obtain ⟨within, -⟩ := List.getElem?_eq_some_iff.mp there
  have behind : font.pitch * (index + 1) ≤ font.pitch * line.letters.length :=
    Nat.mul_le_mul_left _ within
  rw [Nat.mul_succ] at behind
  omega

/-- A line lights in a cell what its letter there inks. -/
theorem lights_cell (line : Line Letter) {index across down : Nat}
    (narrow : across < font.pitch) :
    line.Lights font (line.left + font.pitch * index + across) (line.top + down) ↔
      ∃ letter, line.letters[index]? = some letter ∧
        font.ink letter across down = true := by
  constructor
  · rintro ⟨place, letter, column, row, there, inked, column_eq, row_eq⟩
    obtain ⟨columnNarrow, -⟩ := font.inside inked
    have same : across + font.pitch * index = column + font.pitch * place := by
      omega
    have cells := (Nat.div_mod_unique (by omega)).mpr ⟨same, narrow⟩
    have places := (Nat.div_mod_unique (by omega)).mpr
      ⟨(rfl : column + font.pitch * place = _), columnNarrow⟩
    obtain rfl : index = place := cells.1.symm.trans places.1
    obtain rfl : across = column := cells.2.symm.trans places.2
    obtain rfl : down = row := by omega
    exact ⟨letter, there, inked⟩
  · rintro ⟨letter, there, inked⟩
    exact ⟨index, letter, across, down, there, inked, rfl, rfl⟩

/-- Blank letters behind the end of a line light nothing. -/
theorem lights_blanks {blank : Letter}
    (none : ∀ across down, font.ink blank across down = false)
    (line : Line Letter) (count x y : Nat) :
    ({ line with letters := line.letters ++ List.replicate count blank } :
        Line Letter).Lights font x y ↔ line.Lights font x y := by
  constructor
  · rintro ⟨index, letter, across, down, there, inked, column, row⟩
    dsimp only at there column row
    rw [List.getElem?_append] at there
    split at there
    · exact ⟨index, letter, across, down, there, inked, column, row⟩
    · rw [List.getElem?_replicate] at there
      split at there
      · cases there
        rw [none] at inked
        cases inked
      · cases there
  · rintro ⟨index, letter, across, down, there, inked, column, row⟩
    obtain ⟨within, -⟩ := List.getElem?_eq_some_iff.mp there
    refine ⟨index, letter, across, down, ?_, inked, column, row⟩
    dsimp only
    rw [List.getElem?_append_left within]
    exact there

/-- The boxes of two lines have no pixel in common. -/
def Apart (first second : Line Letter) : Prop :=
  first.top + font.height ≤ second.top ∨ second.top + font.height ≤ first.top ∨
    first.left + font.pitch * first.letters.length ≤ second.left ∨
    second.left + font.pitch * second.letters.length ≤ first.left

instance : Std.Symm (Apart font : Line Letter → Line Letter → Prop) where
  symm first second apart := by
    unfold Apart at *
    omega

end Line

/-- A pixel is lit by some line. -/
def Lit (lines : List (Line Letter)) (x y : Nat) : Prop :=
  ∃ line ∈ lines, line.Lights font x y

@[simp]
theorem lit_cons (line : Line Letter) (lines : List (Line Letter)) (x y : Nat) :
    Lit font (line :: lines) x y ↔ line.Lights font x y ∨ Lit font lines x y := by
  simp [Lit]

/-- In a cell of a line there is nothing but its letter's ink, where the lines keep
apart. -/
theorem lit_cell {lines : List (Line Letter)}
    (apart : lines.Pairwise (Line.Apart font)) {line : Line Letter}
    (member : line ∈ lines) {index : Nat} {letter : Letter}
    (there : line.letters[index]? = some letter) {across down : Nat}
    (narrow : across < font.pitch) (low : down < font.height) :
    Lit font lines (line.left + font.pitch * index + across) (line.top + down) ↔
      font.ink letter across down = true := by
  constructor
  · rintro ⟨other, listed, lights⟩
    by_cases same : other = line
    · subst same
      obtain ⟨found, here, inked⟩ := (other.lights_cell font narrow).mp lights
      rw [there] at here
      cases here
      exact inked
    · have keep : other.Apart font line :=
        apart.forall listed member same
      obtain ⟨within, -⟩ := List.getElem?_eq_some_iff.mp there
      have behind : font.pitch * (index + 1) ≤ font.pitch * line.letters.length :=
        Nat.mul_le_mul_left _ within
      rw [Nat.mul_succ] at behind
      have box := lights.box font
      unfold Line.Apart at keep
      omega
  · intro inked
    exact ⟨line, member, (line.lights_cell font narrow).mpr ⟨letter, there, inked⟩⟩

/-- The pixels of a cell are those of a letter. -/
def looksLike (pixel : Nat → Nat → Bool) (x y : Nat) (letter : Letter) : Bool :=
  (List.range font.pitch).all fun across => (List.range font.height).all fun down =>
    pixel (x + across) (y + down) == font.ink letter across down

/-- The first letter of the alphabet that a cell looks like. -/
def readCell (alphabet : List Letter) (pixel : Nat → Nat → Bool) (x y : Nat) :
    Option Letter :=
  alphabet.find? fun letter => looksLike font pixel x y letter

/-- So many cells beside each other. -/
def readLine (alphabet : List Letter) (pixel : Nat → Nat → Bool)
    (left top count : Nat) : List (Option Letter) :=
  (List.range count).map fun index =>
    readCell font alphabet pixel (left + font.pitch * index) top

/-- The first letter of the alphabet with the ink of this one. -/
def twin (alphabet : List Letter) (letter : Letter) : Option Letter :=
  alphabet.find? fun other => looksLike font (font.ink letter) 0 0 other

/-- The screen shows these lines. -/
def Shows (width height : Nat) (pixel : Nat → Nat → Bool)
    (lines : List (Line Letter)) : Prop :=
  ∀ x y, x < width → y < height → (pixel x y = true ↔ Lit font lines x y)

/-- A line whose box is on the screen is read as its letters, each up to letters
that look the same. -/
theorem readLine_of_shows {width height : Nat} {pixel : Nat → Nat → Bool}
    {lines : List (Line Letter)} (shows : Shows font width height pixel lines)
    (apart : lines.Pairwise (Line.Apart font)) {line : Line Letter}
    (member : line ∈ lines)
    (wide : line.left + font.pitch * line.letters.length ≤ width)
    (high : line.top + font.height ≤ height) (alphabet : List Letter) :
    readLine font alphabet pixel line.left line.top line.letters.length =
      line.letters.map (twin font alphabet) := by
  refine List.ext_getElem? fun index => ?_
  unfold readLine
  rw [List.getElem?_map, List.getElem?_map]
  by_cases within : index < line.letters.length
  · rw [List.getElem?_range within, List.getElem?_eq_getElem within]
    have there := List.getElem?_eq_getElem within
    have behind : font.pitch * (index + 1) ≤ font.pitch * line.letters.length :=
      Nat.mul_le_mul_left _ within
    rw [Nat.mul_succ] at behind
    have same (across : Nat) (narrow : across < font.pitch) (down : Nat)
        (low : down < font.height) :
        pixel (line.left + font.pitch * index + across) (line.top + down) =
          font.ink line.letters[index] (0 + across) (0 + down) := by
      rw [Nat.zero_add, Nat.zero_add, Bool.eq_iff_iff,
        shows _ _ (by omega) (by omega)]
      exact lit_cell font apart member there narrow low
    have looks (letter : Letter) :
        looksLike font pixel (line.left + font.pitch * index) line.top letter =
          looksLike font (font.ink line.letters[index]) 0 0 letter := by
      unfold looksLike
      rw [Bool.eq_iff_iff]
      simp only [List.all_eq_true, List.mem_range, beq_iff_eq]
      constructor
      · intro all across narrow down low
        rw [← same across narrow down low]
        exact all across narrow down low
      · intro all across narrow down low
        rw [same across narrow down low]
        exact all across narrow down low
    simp only [Option.map_some, readCell, twin, looks]
  · rw [List.getElem?_eq_none (by simpa using within),
      List.getElem?_eq_none (by simpa using within)]
    rfl

end CellText
