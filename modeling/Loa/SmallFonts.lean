import Mathlib.Init

/-!
# The two small fonts

Columns from the left with the top row lowest, by ASCII code; a lower case code
carries the upper case glyph.
-/

namespace Oled

def FONT5X7 : Vector (UInt8 × UInt8 × UInt8 × UInt8 × UInt8) 128 := #v[
  (0x00, 0x00, 0x00, 0x00, 0x00), (0x00, 0x00, 0x00, 0x00, 0x00),
  (0x00, 0x00, 0x00, 0x00, 0x00), (0x00, 0x00, 0x00, 0x00, 0x00),
  (0x00, 0x00, 0x00, 0x00, 0x00), (0x00, 0x00, 0x00, 0x00, 0x00),
  (0x00, 0x00, 0x00, 0x00, 0x00), (0x00, 0x00, 0x00, 0x00, 0x00),
  (0x00, 0x00, 0x00, 0x00, 0x00), (0x00, 0x00, 0x00, 0x00, 0x00),
  (0x00, 0x00, 0x00, 0x00, 0x00), (0x00, 0x00, 0x00, 0x00, 0x00),
  (0x00, 0x00, 0x00, 0x00, 0x00), (0x00, 0x00, 0x00, 0x00, 0x00),
  (0x00, 0x00, 0x00, 0x00, 0x00), (0x00, 0x00, 0x00, 0x00, 0x00),
  (0x00, 0x00, 0x00, 0x00, 0x00), (0x00, 0x00, 0x00, 0x00, 0x00),
  (0x00, 0x00, 0x00, 0x00, 0x00), (0x00, 0x00, 0x00, 0x00, 0x00),
  (0x00, 0x00, 0x00, 0x00, 0x00), (0x00, 0x00, 0x00, 0x00, 0x00),
  (0x00, 0x00, 0x00, 0x00, 0x00), (0x00, 0x00, 0x00, 0x00, 0x00),
  (0x00, 0x00, 0x00, 0x00, 0x00), (0x00, 0x00, 0x00, 0x00, 0x00),
  (0x00, 0x00, 0x00, 0x00, 0x00), (0x00, 0x00, 0x00, 0x00, 0x00),
  (0x00, 0x00, 0x00, 0x00, 0x00), (0x00, 0x00, 0x00, 0x00, 0x00),
  (0x00, 0x00, 0x00, 0x00, 0x00), (0x00, 0x00, 0x00, 0x00, 0x00),
  (0x00, 0x00, 0x00, 0x00, 0x00), (0x04, 0x04, 0x04, 0x00, 0x04),
  (0x0A, 0x0A, 0x00, 0x00, 0x00), (0x0A, 0x1F, 0x0A, 0x1F, 0x0A),
  (0x0E, 0x15, 0x0E, 0x15, 0x0E), (0x12, 0x15, 0x0A, 0x15, 0x09),
  (0x0C, 0x12, 0x0C, 0x12, 0x0D), (0x04, 0x04, 0x00, 0x00, 0x00),
  (0x04, 0x08, 0x08, 0x08, 0x04), (0x04, 0x02, 0x02, 0x02, 0x04),
  (0x00, 0x0A, 0x04, 0x0A, 0x00), (0x00, 0x04, 0x0E, 0x04, 0x00),
  (0x00, 0x00, 0x00, 0x06, 0x04), (0x00, 0x00, 0x0E, 0x00, 0x00),
  (0x00, 0x00, 0x00, 0x04, 0x00), (0x10, 0x08, 0x04, 0x02, 0x01),
  (0x0E, 0x11, 0x11, 0x11, 0x0E), (0x04, 0x0C, 0x04, 0x04, 0x0E),
  (0x0E, 0x11, 0x02, 0x04, 0x1F), (0x0E, 0x11, 0x0E, 0x11, 0x0E),
  (0x08, 0x14, 0x0A, 0x1F, 0x08), (0x1F, 0x10, 0x1E, 0x01, 0x1E),
  (0x0E, 0x10, 0x1E, 0x11, 0x0E), (0x1F, 0x02, 0x04, 0x08, 0x08),
  (0x0E, 0x11, 0x0E, 0x11, 0x0E), (0x0E, 0x11, 0x0F, 0x01, 0x0E),
  (0x00, 0x04, 0x00, 0x04, 0x00), (0x00, 0x04, 0x00, 0x04, 0x04),
  (0x02, 0x04, 0x08, 0x04, 0x02), (0x00, 0x0E, 0x00, 0x0E, 0x00),
  (0x08, 0x04, 0x02, 0x04, 0x08), (0x0E, 0x01, 0x02, 0x00, 0x02),
  (0x0E, 0x11, 0x15, 0x11, 0x0E), (0x0E, 0x11, 0x1F, 0x11, 0x11),
  (0x1E, 0x11, 0x1E, 0x11, 0x1E), (0x0E, 0x11, 0x10, 0x11, 0x0E),
  (0x1C, 0x12, 0x11, 0x12, 0x1C), (0x1F, 0x10, 0x1E, 0x10, 0x1F),
  (0x1F, 0x10, 0x1E, 0x10, 0x10), (0x0E, 0x11, 0x17, 0x11, 0x0F),
  (0x11, 0x11, 0x1F, 0x11, 0x11), (0x0E, 0x04, 0x04, 0x04, 0x0E),
  (0x07, 0x02, 0x02, 0x12, 0x0C), (0x11, 0x12, 0x14, 0x12, 0x11),
  (0x10, 0x10, 0x10, 0x10, 0x1F), (0x11, 0x1B, 0x15, 0x11, 0x11),
  (0x11, 0x19, 0x15, 0x13, 0x11), (0x0E, 0x11, 0x11, 0x11, 0x0E),
  (0x1E, 0x11, 0x1E, 0x10, 0x10), (0x0E, 0x11, 0x15, 0x12, 0x0D),
  (0x1E, 0x11, 0x1E, 0x14, 0x12), (0x0F, 0x10, 0x0E, 0x01, 0x1E),
  (0x1F, 0x04, 0x04, 0x04, 0x04), (0x11, 0x11, 0x11, 0x11, 0x0E),
  (0x11, 0x11, 0x11, 0x0A, 0x04), (0x11, 0x11, 0x15, 0x1B, 0x11),
  (0x11, 0x0A, 0x04, 0x0A, 0x11), (0x11, 0x0A, 0x04, 0x04, 0x04),
  (0x1F, 0x02, 0x04, 0x08, 0x1F), (0x0E, 0x08, 0x08, 0x08, 0x0E),
  (0x01, 0x02, 0x04, 0x08, 0x10), (0x0E, 0x02, 0x02, 0x02, 0x0E),
  (0x04, 0x0A, 0x00, 0x00, 0x00), (0x00, 0x00, 0x00, 0x00, 0x1F),
  (0x04, 0x02, 0x00, 0x00, 0x00), (0x0E, 0x11, 0x1F, 0x11, 0x11),
  (0x1E, 0x11, 0x1E, 0x11, 0x1E), (0x0E, 0x11, 0x10, 0x11, 0x0E),
  (0x1C, 0x12, 0x11, 0x12, 0x1C), (0x1F, 0x10, 0x1E, 0x10, 0x1F),
  (0x1F, 0x10, 0x1E, 0x10, 0x10), (0x0E, 0x11, 0x17, 0x11, 0x0F),
  (0x11, 0x11, 0x1F, 0x11, 0x11), (0x0E, 0x04, 0x04, 0x04, 0x0E),
  (0x07, 0x02, 0x02, 0x12, 0x0C), (0x11, 0x12, 0x14, 0x12, 0x11),
  (0x10, 0x10, 0x10, 0x10, 0x1F), (0x11, 0x1B, 0x15, 0x11, 0x11),
  (0x11, 0x19, 0x15, 0x13, 0x11), (0x0E, 0x11, 0x11, 0x11, 0x0E),
  (0x1E, 0x11, 0x1E, 0x10, 0x10), (0x0E, 0x11, 0x15, 0x12, 0x0D),
  (0x1E, 0x11, 0x1E, 0x14, 0x12), (0x0F, 0x10, 0x0E, 0x01, 0x1E),
  (0x1F, 0x04, 0x04, 0x04, 0x04), (0x11, 0x11, 0x11, 0x11, 0x0E),
  (0x11, 0x11, 0x11, 0x0A, 0x04), (0x11, 0x11, 0x15, 0x1B, 0x11),
  (0x11, 0x0A, 0x04, 0x0A, 0x11), (0x11, 0x0A, 0x04, 0x04, 0x04),
  (0x1F, 0x02, 0x04, 0x08, 0x1F), (0x00, 0x00, 0x00, 0x00, 0x00),
  (0x04, 0x04, 0x04, 0x04, 0x04), (0x00, 0x00, 0x00, 0x00, 0x00),
  (0x0A, 0x15, 0x00, 0x00, 0x00), (0x00, 0x00, 0x00, 0x00, 0x00)]

def FONT3X5 : Vector (UInt8 × UInt8 × UInt8) 128 := #v[
  (0x00, 0x00, 0x00), (0x00, 0x00, 0x00), (0x00, 0x00, 0x00), (0x00, 0x00, 0x00),
  (0x00, 0x00, 0x00), (0x00, 0x00, 0x00), (0x00, 0x00, 0x00), (0x00, 0x00, 0x00),
  (0x00, 0x00, 0x00), (0x00, 0x00, 0x00), (0x00, 0x00, 0x00), (0x00, 0x00, 0x00),
  (0x00, 0x00, 0x00), (0x00, 0x00, 0x00), (0x00, 0x00, 0x00), (0x00, 0x00, 0x00),
  (0x00, 0x00, 0x00), (0x00, 0x00, 0x00), (0x00, 0x00, 0x00), (0x00, 0x00, 0x00),
  (0x00, 0x00, 0x00), (0x00, 0x00, 0x00), (0x00, 0x00, 0x00), (0x00, 0x00, 0x00),
  (0x00, 0x00, 0x00), (0x00, 0x00, 0x00), (0x00, 0x00, 0x00), (0x00, 0x00, 0x00),
  (0x00, 0x00, 0x00), (0x00, 0x00, 0x00), (0x00, 0x00, 0x00), (0x00, 0x00, 0x00),
  (0x00, 0x00, 0x00), (0x00, 0x17, 0x00), (0x00, 0x00, 0x00), (0x00, 0x00, 0x00),
  (0x00, 0x00, 0x00), (0x00, 0x00, 0x00), (0x00, 0x00, 0x00), (0x00, 0x00, 0x00),
  (0x00, 0x00, 0x00), (0x00, 0x00, 0x00), (0x00, 0x00, 0x00), (0x00, 0x00, 0x00),
  (0x10, 0x08, 0x00), (0x04, 0x04, 0x04), (0x00, 0x10, 0x00), (0x18, 0x04, 0x03),
  (0x1E, 0x11, 0x0F), (0x12, 0x1F, 0x10), (0x19, 0x15, 0x12), (0x15, 0x15, 0x0A),
  (0x07, 0x04, 0x1F), (0x17, 0x15, 0x09), (0x1E, 0x15, 0x09), (0x01, 0x1D, 0x03),
  (0x1F, 0x15, 0x0A), (0x12, 0x15, 0x0F), (0x00, 0x0A, 0x00), (0x00, 0x00, 0x00),
  (0x00, 0x00, 0x00), (0x0A, 0x0A, 0x0A), (0x00, 0x00, 0x00), (0x00, 0x00, 0x00),
  (0x00, 0x00, 0x00), (0x1E, 0x05, 0x1E), (0x1F, 0x15, 0x0A), (0x0E, 0x11, 0x11),
  (0x1F, 0x11, 0x0E), (0x1F, 0x15, 0x11), (0x1F, 0x05, 0x01), (0x0E, 0x11, 0x1D),
  (0x1F, 0x04, 0x1F), (0x11, 0x1F, 0x11), (0x08, 0x10, 0x0F), (0x1F, 0x0A, 0x11),
  (0x1F, 0x10, 0x10), (0x1F, 0x06, 0x1F), (0x1F, 0x02, 0x1F), (0x0E, 0x11, 0x0E),
  (0x1F, 0x05, 0x02), (0x0E, 0x01, 0x1F), (0x1F, 0x05, 0x1A), (0x12, 0x15, 0x09),
  (0x01, 0x1F, 0x01), (0x0F, 0x10, 0x0F), (0x07, 0x18, 0x07), (0x1F, 0x0C, 0x1F),
  (0x11, 0x0E, 0x11), (0x03, 0x1C, 0x03), (0x19, 0x15, 0x13), (0x00, 0x1F, 0x11),
  (0x00, 0x00, 0x00), (0x11, 0x1F, 0x00), (0x00, 0x00, 0x00), (0x00, 0x00, 0x00),
  (0x00, 0x00, 0x00), (0x1E, 0x05, 0x1E), (0x1F, 0x15, 0x0A), (0x0E, 0x11, 0x11),
  (0x1F, 0x11, 0x0E), (0x1F, 0x15, 0x11), (0x1F, 0x05, 0x01), (0x0E, 0x11, 0x1D),
  (0x1F, 0x04, 0x1F), (0x11, 0x1F, 0x11), (0x08, 0x10, 0x0F), (0x1F, 0x0A, 0x11),
  (0x1F, 0x10, 0x10), (0x1F, 0x06, 0x1F), (0x1F, 0x02, 0x1F), (0x0E, 0x11, 0x0E),
  (0x1F, 0x05, 0x02), (0x0E, 0x01, 0x1F), (0x1F, 0x05, 0x1A), (0x12, 0x15, 0x09),
  (0x01, 0x1F, 0x01), (0x0F, 0x10, 0x0F), (0x07, 0x18, 0x07), (0x1F, 0x0C, 0x1F),
  (0x11, 0x0E, 0x11), (0x03, 0x1C, 0x03), (0x19, 0x15, 0x13), (0x00, 0x00, 0x00),
  (0x00, 0x00, 0x00), (0x00, 0x00, 0x00), (0x00, 0x00, 0x00), (0x00, 0x00, 0x00)]

/-- The glyph of a character: lower case asks for upper case, and what is not
ASCII for the space. -/
def glyphIn {Glyph : Type} (font : Vector Glyph 128) (ch : Char) : Glyph :=
  let c := ch.toUpper
  if ascii : c.toNat < 128 then font[c.toNat] else font[32]

def g5x7 (ch : Char) : UInt8 × UInt8 × UInt8 × UInt8 × UInt8 :=
  glyphIn FONT5X7 ch

def g3x5 (ch : Char) : UInt8 × UInt8 × UInt8 :=
  glyphIn FONT3X5 ch

def columns5x7 (ch : Char) : List UInt8 :=
  let (a, b, c, d, e) := g5x7 ch
  [a, b, c, d, e]

def columns3x5 (ch : Char) : List UInt8 :=
  let (a, b, c) := g3x5 ch
  [a, b, c]

end Oled
