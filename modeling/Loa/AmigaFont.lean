import Loa.CellText
import Loa.FrameBits

/-!
# The font of the pages

A letter of this font is eight rows of eight pixels, and the next one starts a
pixel behind it.  All letters but one look different: the comma has the bits of
the apostrophe.
-/

namespace Oled

/-- The printable characters of ASCII, each with its width and its rows from the
top. -/
def AMIGA8 : Vector (Nat × List UInt8) 95 := #v[
  (8, [0x00, 0x00, 0x00, 0x00, 0x00, 0x00, 0x00, 0x00]),
  (8, [0x03, 0x03, 0x03, 0x03, 0x00, 0x00, 0x03, 0x00]),
  (8, [0x1B, 0x1B, 0x00, 0x00, 0x00, 0x00, 0x00, 0x00]),
  (8, [0x36, 0x36, 0x7F, 0x36, 0x7F, 0x36, 0x36, 0x00]),
  (8, [0x0C, 0x3E, 0x03, 0x1E, 0x30, 0x1F, 0x0C, 0x00]),
  (8, [0x66, 0x35, 0x1B, 0x6C, 0x56, 0x33, 0x00, 0x00]),
  (8, [0x1C, 0x36, 0x16, 0x6E, 0x3B, 0x73, 0xFE, 0x00]),
  (8, [0x06, 0x06, 0x03, 0x00, 0x00, 0x00, 0x00, 0x00]),
  (8, [0x0C, 0x06, 0x03, 0x03, 0x03, 0x06, 0x0C, 0x00]),
  (8, [0x03, 0x06, 0x0C, 0x0C, 0x0C, 0x06, 0x03, 0x00]),
  (8, [0x66, 0x3C, 0xFF, 0x3C, 0x66, 0x00, 0x00, 0x00]),
  (8, [0x0C, 0x0C, 0x3F, 0x0C, 0x0C, 0x00, 0x00, 0x00]),
  (8, [0x06, 0x06, 0x03, 0x00, 0x00, 0x00, 0x00, 0x00]),
  (8, [0x3F, 0x00, 0x00, 0x00, 0x00, 0x00, 0x00, 0x00]),
  (8, [0x00, 0x00, 0x00, 0x00, 0x00, 0x18, 0x18, 0x00]),
  (8, [0xC0, 0x60, 0x30, 0x18, 0x0C, 0x06, 0x03, 0x00]),
  (8, [0x1E, 0x33, 0x3B, 0x3F, 0x37, 0x33, 0x1E, 0x00]),
  (8, [0x0C, 0x0E, 0x0F, 0x0C, 0x0C, 0x0C, 0x0C, 0x00]),
  (8, [0x1E, 0x33, 0x30, 0x18, 0x0C, 0x06, 0x3F, 0x00]),
  (8, [0x1E, 0x33, 0x30, 0x1C, 0x30, 0x33, 0x1E, 0x00]),
  (8, [0x38, 0x3C, 0x36, 0x33, 0x7F, 0x30, 0x30, 0x00]),
  (8, [0x3F, 0x03, 0x1F, 0x30, 0x30, 0x33, 0x1E, 0x00]),
  (8, [0x1C, 0x06, 0x03, 0x1F, 0x33, 0x33, 0x1E, 0x00]),
  (8, [0x3F, 0x30, 0x30, 0x18, 0x0C, 0x0C, 0x0C, 0x00]),
  (8, [0x1E, 0x33, 0x33, 0x1E, 0x33, 0x33, 0x1E, 0x00]),
  (8, [0x1E, 0x33, 0x33, 0x3E, 0x30, 0x18, 0x0E, 0x00]),
  (8, [0x03, 0x03, 0x00, 0x00, 0x03, 0x03, 0x00, 0x00]),
  (8, [0x06, 0x06, 0x00, 0x00, 0x06, 0x06, 0x03, 0x00]),
  (8, [0x30, 0x0C, 0x03, 0x0C, 0x30, 0x00, 0x00, 0x00]),
  (8, [0x3F, 0x00, 0x3F, 0x00, 0x00, 0x00, 0x00, 0x00]),
  (8, [0x03, 0x0C, 0x30, 0x0C, 0x03, 0x00, 0x00, 0x00]),
  (8, [0x1E, 0x33, 0x30, 0x18, 0x0C, 0x00, 0x0C, 0x00]),
  (8, [0x3E, 0x63, 0x7B, 0x6B, 0x7B, 0x03, 0x1E, 0x00]),
  (8, [0x1E, 0x33, 0x33, 0x3F, 0x33, 0x33, 0x33, 0x00]),
  (8, [0x1F, 0x33, 0x33, 0x1F, 0x33, 0x33, 0x1F, 0x00]),
  (8, [0x3C, 0x06, 0x03, 0x03, 0x03, 0x06, 0x3C, 0x00]),
  (8, [0x0F, 0x1B, 0x33, 0x33, 0x33, 0x1B, 0x0F, 0x00]),
  (8, [0x3F, 0x03, 0x03, 0x0F, 0x03, 0x03, 0x3F, 0x00]),
  (8, [0x3F, 0x03, 0x03, 0x0F, 0x03, 0x03, 0x03, 0x00]),
  (8, [0x1E, 0x33, 0x03, 0x3B, 0x33, 0x33, 0x3E, 0x00]),
  (8, [0x33, 0x33, 0x33, 0x3F, 0x33, 0x33, 0x33, 0x00]),
  (8, [0x0F, 0x06, 0x06, 0x06, 0x06, 0x06, 0x0F, 0x00]),
  (8, [0x30, 0x30, 0x30, 0x30, 0x30, 0x33, 0x1E, 0x00]),
  (8, [0x63, 0x33, 0x1B, 0x0F, 0x1B, 0x33, 0x63, 0x00]),
  (8, [0x03, 0x03, 0x03, 0x03, 0x03, 0x03, 0x3F, 0x00]),
  (8, [0x63, 0x77, 0x7F, 0x6B, 0x63, 0x63, 0x63, 0x00]),
  (8, [0x63, 0x67, 0x6F, 0x7B, 0x73, 0x63, 0x63, 0x00]),
  (8, [0x1E, 0x33, 0x33, 0x33, 0x33, 0x33, 0x1E, 0x00]),
  (8, [0x1F, 0x33, 0x33, 0x1F, 0x03, 0x03, 0x03, 0x00]),
  (8, [0x1E, 0x33, 0x33, 0x33, 0x33, 0x3B, 0x7E, 0x00]),
  (8, [0x1F, 0x33, 0x33, 0x1F, 0x1B, 0x33, 0x33, 0x00]),
  (8, [0x1E, 0x33, 0x07, 0x1E, 0x38, 0x33, 0x1E, 0x00]),
  (8, [0x3F, 0x0C, 0x0C, 0x0C, 0x0C, 0x0C, 0x0C, 0x00]),
  (8, [0x33, 0x33, 0x33, 0x33, 0x33, 0x33, 0x1E, 0x00]),
  (8, [0x33, 0x33, 0x33, 0x33, 0x1E, 0x1E, 0x0C, 0x00]),
  (8, [0x63, 0x63, 0x63, 0x6B, 0x7F, 0x77, 0x63, 0x00]),
  (8, [0xC3, 0x66, 0x3C, 0x18, 0x3C, 0x66, 0xC3, 0x00]),
  (8, [0xC3, 0x66, 0x3C, 0x18, 0x18, 0x18, 0x18, 0x00]),
  (8, [0x7F, 0x30, 0x18, 0x0C, 0x06, 0x03, 0x7F, 0x00]),
  (8, [0x0F, 0x03, 0x03, 0x03, 0x03, 0x03, 0x0F, 0x00]),
  (8, [0x03, 0x06, 0x0C, 0x18, 0x30, 0x60, 0xC0, 0x00]),
  (8, [0x0F, 0x0C, 0x0C, 0x0C, 0x0C, 0x0C, 0x0F, 0x00]),
  (8, [0x08, 0x1C, 0x36, 0x63, 0x00, 0x00, 0x00, 0x00]),
  (8, [0x7F, 0x00, 0x00, 0x00, 0x00, 0x00, 0x00, 0x00]),
  (8, [0x03, 0x03, 0x06, 0x00, 0x00, 0x00, 0x00, 0x00]),
  (8, [0x1E, 0x30, 0x3E, 0x33, 0x3E, 0x00, 0x00, 0x00]),
  (8, [0x03, 0x03, 0x1F, 0x33, 0x33, 0x33, 0x1F, 0x00]),
  (8, [0x1E, 0x03, 0x03, 0x03, 0x1E, 0x00, 0x00, 0x00]),
  (8, [0x30, 0x30, 0x3E, 0x33, 0x33, 0x33, 0x3E, 0x00]),
  (8, [0x1E, 0x33, 0x3F, 0x03, 0x1E, 0x00, 0x00, 0x00]),
  (8, [0x1C, 0x06, 0x1F, 0x06, 0x06, 0x06, 0x06, 0x00]),
  (8, [0x3E, 0x33, 0x33, 0x3E, 0x30, 0x1E, 0x00, 0x00]),
  (8, [0x03, 0x03, 0x1F, 0x33, 0x33, 0x33, 0x33, 0x00]),
  (8, [0x03, 0x00, 0x03, 0x03, 0x03, 0x03, 0x06, 0x00]),
  (8, [0x18, 0x00, 0x18, 0x18, 0x18, 0x18, 0x18, 0x0F]),
  (8, [0x03, 0x03, 0x33, 0x1B, 0x0F, 0x1B, 0x33, 0x00]),
  (8, [0x03, 0x03, 0x03, 0x03, 0x03, 0x03, 0x06, 0x00]),
  (8, [0x37, 0x7F, 0x6B, 0x63, 0x63, 0x00, 0x00, 0x00]),
  (8, [0x1F, 0x33, 0x33, 0x33, 0x33, 0x00, 0x00, 0x00]),
  (8, [0x1E, 0x33, 0x33, 0x33, 0x1E, 0x00, 0x00, 0x00]),
  (8, [0x1F, 0x33, 0x33, 0x1F, 0x03, 0x03, 0x00, 0x00]),
  (8, [0x3E, 0x33, 0x33, 0x3E, 0x30, 0x30, 0x00, 0x00]),
  (8, [0x1F, 0x33, 0x03, 0x03, 0x03, 0x00, 0x00, 0x00]),
  (8, [0x1E, 0x03, 0x1E, 0x30, 0x1F, 0x00, 0x00, 0x00]),
  (8, [0x06, 0x06, 0x1F, 0x06, 0x06, 0x06, 0x1C, 0x00]),
  (8, [0x33, 0x33, 0x33, 0x33, 0x3E, 0x00, 0x00, 0x00]),
  (8, [0x33, 0x33, 0x33, 0x1E, 0x0C, 0x00, 0x00, 0x00]),
  (8, [0x63, 0x63, 0x6B, 0x7F, 0x36, 0x00, 0x00, 0x00]),
  (8, [0x63, 0x36, 0x1C, 0x36, 0x63, 0x00, 0x00, 0x00]),
  (8, [0x33, 0x33, 0x33, 0x1E, 0x0C, 0x06, 0x00, 0x00]),
  (8, [0x3F, 0x18, 0x0C, 0x06, 0x3F, 0x00, 0x00, 0x00]),
  (8, [0x38, 0x0C, 0x0C, 0x07, 0x0C, 0x0C, 0x38, 0x00]),
  (8, [0x03, 0x03, 0x03, 0x03, 0x03, 0x03, 0x03, 0x00]),
  (8, [0x07, 0x0C, 0x0C, 0x38, 0x0C, 0x0C, 0x07, 0x00]),
  (8, [0x8E, 0x71, 0x00, 0x00, 0x00, 0x00, 0x00, 0x00])]

/-- Where a character has its glyph; what is not printable is drawn as a space. -/
def amigaPlace (ch : Char) : Fin 95 :=
  if within : 32 ≤ ch.toNat ∧ ch.toNat < 127 then ⟨ch.toNat - 32, by omega⟩
  else 0

def gamiga8 (ch : Char) : Nat × List UInt8 :=
  AMIGA8.get (amigaPlace ch)

theorem amiga8_sizes (place : Fin 95) :
    (AMIGA8.get place).1 = 8 ∧ (AMIGA8.get place).2.length = 8 := by
  revert place
  decide +kernel

/-- The cells of the font. -/
def amiga : CellText.Font Char where
  pitch := 9
  height := 8
  ink := fun ch across down =>
    decide (across < 8) && litAt ((gamiga8 ch).2.getD down 0) across
  inside := by
    intro ch across down inked
    obtain ⟨narrow, lit⟩ := Bool.and_eq_true_iff.mp inked
    have column : across < 8 := of_decide_eq_true narrow
    refine ⟨by omega, ?_⟩
    by_contra low
    have short : (gamiga8 ch).2.length ≤ down := by
      rw [gamiga8, (amiga8_sizes _).2]
      omega
    rw [List.getD_eq_default _ _ short, litAt_eq _ column] at lit
    simp at lit

/-- The letters that can be read. -/
def printable : List Char :=
  (List.range 95).map fun place => Char.ofNat (place + 32)

/-- What a character is read as. -/
def looks (ch : Char) : Char :=
  if amigaPlace ch = 12 then '\'' else Char.ofNat (amigaPlace ch + 32)

theorem eq_of_litAt {first second : UInt8}
    (same : ∀ i < 8, litAt first i = litAt second i) : first = second := by
  rw [← UInt8.toNat_inj]
  refine Nat.eq_of_testBit_eq fun i => ?_
  by_cases small : i < 8
  · rw [← litAt_eq _ small, ← litAt_eq _ small]
    exact same i small
  · have power : 2 ^ 8 ≤ 2 ^ i := Nat.pow_le_pow_right (by decide) (by omega)
    rw [Nat.testBit_eq_false_of_lt (first.toNat_lt.trans_le power),
      Nat.testBit_eq_false_of_lt (second.toNat_lt.trans_le power)]

/-- Two letters look the same just where they have the same rows. -/
theorem looksLike_amiga (ch other : Char) :
    CellText.looksLike amiga (amiga.ink ch) 0 0 other = true ↔
      (AMIGA8.get (amigaPlace ch)).2 = (gamiga8 other).2 := by
  unfold CellText.looksLike
  simp only [List.all_eq_true, List.mem_range, beq_iff_eq, Nat.zero_add]
  constructor
  · intro all
    have rows (ch : Char) : (gamiga8 ch).2.length = 8 := (amiga8_sizes _).2
    refine List.ext_getElem ((rows ch).trans (rows other).symm) fun down here there => ?_
    have low : down < 8 := (rows ch).symm ▸ here
    refine eq_of_litAt fun across narrow => ?_
    have bits := all across (Nat.lt_succ_of_lt narrow) down low
    simpa [amiga, narrow, gamiga8, amiga8_sizes, low] using bits
  · intro same across _ down _
    unfold amiga gamiga8
    dsimp only
    rw [same]
    rfl

theorem looks_table (place : Fin 95) :
    (printable.find? fun other =>
      decide ((AMIGA8.get place).2 = (gamiga8 other).2)) =
        some (if place = 12 then '\'' else Char.ofNat (place + 32)) := by
  revert place
  decide +kernel

/-- A letter is read as itself, but for the comma, and for what is drawn as a
space. -/
theorem twin_amiga (ch : Char) :
    CellText.twin amiga printable ch = some (looks ch) := by
  have same : (fun other => CellText.looksLike amiga (amiga.ink ch) 0 0 other) =
      fun other => decide ((AMIGA8.get (amigaPlace ch)).2 = (gamiga8 other).2) := by
    funext other
    rw [Bool.eq_iff_iff, looksLike_amiga, decide_eq_true_eq]
  unfold CellText.twin looks
  rw [same, looks_table]

end Oled
