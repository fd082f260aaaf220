import Loa.OledFrame
import Mathlib.Data.Nat.Bitwise
import Mathlib.Tactic.IntervalCases

/-!
# The bits of the framebuffer

A pixel is one bit of one byte of its page.  Setting a pixel sets that bit, and
the bits of all the other pixels stay what they were.
-/

namespace Oled

/-- One bit of a byte. -/
def litAt (byte : UInt8) (i : Nat) : Bool :=
  byte &&& (1 <<< UInt8.ofNat i) ≠ 0

theorem toNat_mask {i : Nat} (small : i < 8) :
    ((1 : UInt8) <<< UInt8.ofNat i).toNat = 2 ^ i := by
  interval_cases i <;> rfl

theorem litAt_eq (byte : UInt8) {i : Nat} (small : i < 8) :
    litAt byte i = byte.toNat.testBit i := by
  unfold litAt
  rw [Bool.eq_iff_iff, decide_eq_true_eq, ne_eq, ← UInt8.toNat_inj,
    UInt8.toNat_and, toNat_mask small, Nat.and_two_pow]
  cases byte.toNat.testBit i <;> simp

/-- A bit set or cleared, and the bits beside it. -/
theorem litAt_switch (byte : UInt8) (on : Bool) {i j : Nat} (smallI : i < 8)
    (smallJ : j < 8) :
    litAt (if on then byte ||| (1 <<< UInt8.ofNat i)
      else byte &&& ~~~(1 <<< UInt8.ofNat i)) j =
        if i = j then on else litAt byte j := by
  rw [litAt_eq _ smallJ, litAt_eq _ smallJ]
  cases on with
  | true =>
      rw [if_pos rfl, UInt8.toNat_or, toNat_mask smallI, Nat.testBit_or,
        Nat.testBit_two_pow]
      by_cases same : i = j <;> simp [same]
  | false =>
      have power : 2 ^ i < 2 ^ 8 := Nat.pow_lt_pow_right (by decide) smallI
      have flipped : (~~~((1 : UInt8) <<< UInt8.ofNat i)).toNat =
          2 ^ 8 - (2 ^ i + 1) := by
        rw [UInt8.toNat_not, toNat_mask smallI, UInt8.size]
        omega
      rw [if_neg Bool.false_ne_true, UInt8.toNat_and, flipped, Nat.testBit_and,
        Nat.testBit_two_pow_sub_succ power, Nat.testBit_two_pow]
      by_cases same : i = j <;> simp [same, smallJ]

namespace Frame

/-- The byte and the bit of a pixel, page behind page. -/
def bit (f : Frame) (x y : Nat) : Bool :=
  litAt (f.buf.getD ((y >>> 3) * FRAME_WIDTH + x) 0) (y % 8)

/-- Two pixels on the screen with one byte are in one column of one page. -/
theorem index_eq_iff {x y u v : Nat} (xOn : x < FRAME_WIDTH) (uOn : u < FRAME_WIDTH) :
    (v >>> 3) * FRAME_WIDTH + u = (y >>> 3) * FRAME_WIDTH + x ↔
      v / 8 = y / 8 ∧ u = x := by
  unfold FRAME_WIDTH at *
  simp only [Nat.shiftRight_eq_div_pow]
  omega

theorem index_lt {x y : Nat} (xOn : x < FRAME_WIDTH) (yOn : y < FRAME_HEIGHT) :
    (y >>> 3) * FRAME_WIDTH + x < FRAME_PAGES * FRAME_WIDTH := by
  unfold FRAME_WIDTH FRAME_HEIGHT FRAME_PAGES at *
  simp only [Nat.shiftRight_eq_div_pow]
  omega

theorem bit_put (f : Frame) (i : Nat) (value : UInt8) {x y : Nat}
    (xOn : x < FRAME_WIDTH) (yOn : y < FRAME_HEIGHT) :
    (f.put i value).bit x y =
      if i = (y >>> 3) * FRAME_WIDTH + x then litAt value (y % 8)
      else f.bit x y := by
  have inside : (y >>> 3) * FRAME_WIDTH + x < f.buf.length :=
    f.sized ▸ index_lt xOn yOn
  unfold bit put
  dsimp only
  rw [List.getD_eq_getElem?_getD, List.getElem?_set, List.getD_eq_getElem?_getD]
  split_ifs with here bound
  · rfl
  · exact absurd (here ▸ inside) bound
  · rfl

/-- One pixel is drawn where it is on the screen, and no other is touched. -/
theorem bit_px (f : Frame) (u v : Int) (on : Bool) {x y : Nat}
    (xOn : x < FRAME_WIDTH) (yOn : y < FRAME_HEIGHT) :
    (f.px u v on).bit x y = if u = x ∧ v = y then on else f.bit x y := by
  by_cases off : u < 0 ∨ FRAME_WIDTH ≤ u ∨ v < 0 ∨ FRAME_HEIGHT ≤ v
  · have elsewhere : ¬ (u = x ∧ v = y) := by omega
    rw [if_neg elsewhere]
    unfold px
    rw [if_pos off]
  · obtain ⟨column, rfl⟩ : ∃ column : Nat, u = column := ⟨u.toNat, by omega⟩
    obtain ⟨row, rfl⟩ : ∃ row : Nat, v = row := ⟨v.toNat, by omega⟩
    have columnOn : column < FRAME_WIDTH := by omega
    unfold px
    rw [if_neg off]
    dsimp only
    rw [bit_put f _ _ xOn yOn, Int.toNat_natCast, Int.toNat_natCast]
    simp only [Nat.cast_inj]
    by_cases here : (row >>> 3) * FRAME_WIDTH + column =
        (y >>> 3) * FRAME_WIDTH + x
    · obtain ⟨page, rfl⟩ := (index_eq_iff xOn columnOn).mp here
      -- In one byte the pixels differ in their bits.
      have rows : row % 8 = y % 8 ↔ row = y := by omega
      rw [if_pos here, here, litAt_switch _ on (Nat.mod_lt _ (by decide))
        (Nat.mod_lt _ (by decide))]
      simp only [rows, true_and]
      rfl
    · have elsewhere : ¬ (column = x ∧ row = y) := by
        rintro ⟨rfl, rfl⟩
        exact here rfl
      rw [if_neg here, if_neg elsewhere]

/-- A pixel is switched by a list of points just where it is one of them. -/
theorem bit_plot (f : Frame) (points : List (Int × Int)) (on : Bool) {x y : Nat}
    (xOn : x < FRAME_WIDTH) (yOn : y < FRAME_HEIGHT) :
    (f.plot points on).bit x y =
      if ((x : Int), (y : Int)) ∈ points then on else f.bit x y := by
  unfold plot
  induction points generalizing f with
  | nil => simp
  | cons point rest induction =>
      have here : ((x : Int), (y : Int)) = point ↔ point.1 = x ∧ point.2 = y := by
        rw [Prod.ext_iff, @eq_comm _ (x : Int), @eq_comm _ (y : Int)]
      rw [List.foldl_cons, induction, bit_px f _ _ on xOn yOn]
      simp only [List.mem_cons, here]
      by_cases later : ((x : Int), (y : Int)) ∈ rest
      · simp [later]
      · simp [later]

end Frame

end Oled
