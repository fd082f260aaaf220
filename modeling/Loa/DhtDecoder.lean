import Loa.RustFloat
import Mathlib.Data.UInt
import Mathlib.Tactic

/-!
# The decoder of the temperature line

The widths of the high pulses come in the order of the edges, with strays among
them.  The decoder slides a window of forty widths over them and takes the first
one whose checksum is right and whose reading is in range.  Which windows it
takes is said a second time, by the frames that the sensor can send: five bytes,
the last the sum of the others, and a reading in range.
-/

namespace Dht

/-- A longer pulse is a one. -/
def DHT_ONE_NS : Int := 60000

/-- The byte of eight widths, the first one on top. -/
def byteOf (widths : List Int) : UInt8 :=
  (widths.foldl
    (fun (v : UInt16) p => (v <<< 1) ||| (if p > DHT_ONE_NS then 1 else 0))
    0).toUInt8

/-- The bytes of a window. -/
def bytes (win : List Int) (index : Nat) : UInt8 :=
  byteOf ((win.drop (index * 8)).take 8)

/-- The reading of a window, if it has one. -/
def judge (win : List Int) : Option (F64 × F64) :=
  let b := bytes win
  if ((b 0).toUInt16 + (b 1).toUInt16 + (b 2).toUInt16 + (b 3).toUInt16) &&&
      0xFF ≠ (b 4).toUInt16 then
    none
  else
    let hum : F64 := (b 0).toNat + (b 1).toNat / 10
    let temp : F64 := (b 2).toNat + (b 3).toNat / 10
    if (-40 ≤ temp ∧ temp ≤ 80) ∧ (0 ≤ hum ∧ hum ≤ 100) then some (temp, hum)
    else none

/-- The first reading of a window. -/
def decode (pulses : List Int) : Option (F64 × F64) :=
  if pulses.length < 40 then none
  else
    (List.range (pulses.length - 40 + 1)).findSome? fun s =>
      judge ((pulses.drop s).take 40)

/-- A frame: five bytes that check, with a reading in range. -/
structure Frame where
  humWhole : UInt8
  humTenths : UInt8
  tempWhole : UInt8
  tempTenths : UInt8
  sum : UInt8
  checks : sum = humWhole + humTenths + tempWhole + tempTenths
  humInRange : (humWhole.toNat + humTenths.toNat / 10 : F64) ≤ 100
  tempInRange : (tempWhole.toNat + tempTenths.toNat / 10 : F64) ≤ 80

/-- The temperature and the humidity of a frame. -/
def Frame.reading (frame : Frame) : F64 × F64 :=
  (frame.tempWhole.toNat + frame.tempTenths.toNat / 10,
    frame.humWhole.toNat + frame.humTenths.toNat / 10)

/-- The bits of a byte, the top one first. -/
def bitsOf (byte : UInt8) : List Bool :=
  [byte.toNat.testBit 7, byte.toNat.testBit 6, byte.toNat.testBit 5,
    byte.toNat.testBit 4, byte.toNat.testBit 3, byte.toNat.testBit 2,
    byte.toNat.testBit 1, byte.toNat.testBit 0]

/-- The forty bits of a frame. -/
def Frame.bits (frame : Frame) : List Bool :=
  bitsOf frame.humWhole ++ bitsOf frame.humTenths ++ bitsOf frame.tempWhole ++
    bitsOf frame.tempTenths ++ bitsOf frame.sum

/-- Each width is on its bit's side of the threshold. -/
def Frame.Sends (frame : Frame) (widths : List Int) : Prop :=
  (widths.map fun p => decide (p > DHT_ONE_NS)) = frame.bits

instance (frame : Frame) (widths : List Int) :
    Decidable (frame.Sends widths) :=
  inferInstanceAs (Decidable (_ = _))

/-- The byte of eight bits. -/
def ofBits (bits : List Bool) : UInt8 :=
  (bits.foldl (fun (v : UInt16) bit => (v <<< 1) ||| (if bit then 1 else 0))
    0).toUInt8

theorem byteOf_eq (widths : List Int) :
    byteOf widths = ofBits (widths.map fun p => decide (p > DHT_ONE_NS)) := by
  unfold byteOf ofBits
  rw [List.foldl_map]
  simp only [decide_eq_true_eq]

theorem ofBits_bitsOf (byte : UInt8) : ofBits (bitsOf byte) = byte := by
  have every : ∀ code < 256,
      ofBits (bitsOf (UInt8.ofNat code)) = UInt8.ofNat code := by
    decide +kernel
  have found := every byte.toNat byte.toNat_lt
  rwa [UInt8.ofNat_toNat] at found

theorem bitsOf_ofBits {bits : List Bool} (size : bits.length = 8) :
    bitsOf (ofBits bits) = bits := by
  have every : ∀ a b c d e f g h : Bool,
      bitsOf (ofBits [a, b, c, d, e, f, g, h]) = [a, b, c, d, e, f, g, h] := by
    decide +kernel
  match bits, size with
  | [a, b, c, d, e, f, g, h], _ => exact every a b c d e f g h

/-- Forty bits are five times eight. -/
theorem five_pieces {bits : List Bool} (size : bits.length = 40) :
    (bits.drop 0).take 8 ++ (bits.drop 8).take 8 ++ (bits.drop 16).take 8 ++
      (bits.drop 24).take 8 ++ (bits.drop 32).take 8 = bits := by
  have piece (start : Nat) :
      (bits.drop start).take 8 ++ bits.drop (start + 8) = bits.drop start := by
    rw [← List.drop_drop, List.take_append_drop]
  have nothing : bits.drop 40 = [] := List.drop_eq_nil_of_le size.le
  calc
    _ = (bits.drop 0).take 8 ++ ((bits.drop 8).take 8 ++
          ((bits.drop 16).take 8 ++ ((bits.drop 24).take 8 ++
            ((bits.drop 32).take 8 ++ bits.drop 40)))) := by
      rw [nothing]
      simp only [List.append_assoc, List.append_nil]
    _ = bits := by
      rw [piece 32, piece 24, piece 16, piece 8, piece 0, List.drop_zero]

theorem sum_checks_iff (a b c d e : UInt8) :
    (a.toUInt16 + b.toUInt16 + c.toUInt16 + d.toUInt16) &&& 0xFF =
        e.toUInt16 ↔
      e = a + b + c + d := by
  have aSmall := a.toNat_lt
  have bSmall := b.toNat_lt
  have cSmall := c.toNat_lt
  have dSmall := d.toNat_lt
  have eSmall := e.toNat_lt
  rw [← UInt16.toNat_inj, ← UInt8.toNat_inj, UInt16.toNat_and]
  simp only [UInt16.toNat_add, UInt8.toNat_toUInt16, UInt8.toNat_add]
  have mask : (0xFF : UInt16).toNat = 2 ^ 8 - 1 := rfl
  rw [mask, Nat.and_two_pow_sub_one_eq_mod]
  omega

/-- The pieces of the bits of a window are the bits of its bytes. -/
theorem bitsOf_bytes {win : List Int} (size : win.length = 40) {index : Nat}
    (inside : index < 5) :
    bitsOf (bytes win index) =
      ((win.map fun p => decide (p > DHT_ONE_NS)).drop (index * 8)).take 8 := by
  unfold bytes
  rw [byteOf_eq, List.map_take, List.map_drop, bitsOf_ofBits]
  rw [List.length_take, List.length_drop, List.length_map, size]
  omega

theorem bytes_of_sends {frame : Frame} {win : List Int}
    (sends : frame.Sends win) :
    bytes win 0 = frame.humWhole ∧ bytes win 1 = frame.humTenths ∧
      bytes win 2 = frame.tempWhole ∧ bytes win 3 = frame.tempTenths ∧
      bytes win 4 = frame.sum := by
  have piece (index : Nat) :
      bytes win index = ofBits ((frame.bits.drop (index * 8)).take 8) := by
    rw [← sends, bytes, byteOf_eq, List.map_take, List.map_drop]
  refine ⟨?_, ?_, ?_, ?_, ?_⟩ <;>
    · rw [piece]
      exact ofBits_bitsOf _

/-- A window has a reading exactly when a frame sends it. -/
theorem judge_eq_some_iff {win : List Int} (size : win.length = 40)
    (reading : F64 × F64) :
    judge win = some reading ↔
      ∃ frame : Frame, frame.Sends win ∧ frame.reading = reading := by
  constructor
  · intro judged
    unfold judge at judged
    dsimp only at judged
    split at judged
    · cases judged
    · rename_i checks
      split at judged
      · rename_i inRange
        rw [not_not, sum_checks_iff] at checks
        refine ⟨⟨_, _, _, _, _, checks, inRange.2.2, inRange.1.2⟩, ?_,
          Option.some.inj judged⟩
        unfold Frame.Sends Frame.bits
        dsimp only
        rw [bitsOf_bytes size (by omega), bitsOf_bytes size (by omega),
          bitsOf_bytes size (by omega), bitsOf_bytes size (by omega),
          bitsOf_bytes size (by omega)]
        refine (five_pieces ?_).symm
        rw [List.length_map, size]
      · cases judged
  · rintro ⟨frame, sends, rfl⟩
    obtain ⟨zero, one, two, three, four⟩ := bytes_of_sends sends
    have warm : (0 : F64) ≤
        frame.tempWhole.toNat + frame.tempTenths.toNat / 10 := by positivity
    have damp : (0 : F64) ≤
        frame.humWhole.toNat + frame.humTenths.toNat / 10 := by positivity
    have checks := (sum_checks_iff _ _ _ _ _).mpr frame.checks
    unfold judge
    dsimp only
    rw [zero, one, two, three, four, if_neg (not_not.mpr checks), if_pos]
    · rfl
    · exact ⟨⟨by linarith, frame.tempInRange⟩, damp, frame.humInRange⟩

theorem judge_eq_none_iff {win : List Int} (size : win.length = 40) :
    judge win = none ↔ ∀ frame : Frame, ¬ frame.Sends win := by
  rw [Option.eq_none_iff_forall_ne_some]
  constructor
  · intro unread frame sends
    exact unread _ ((judge_eq_some_iff size _).mpr ⟨frame, sends, rfl⟩)
  · intro silent reading judged
    obtain ⟨frame, sends, -⟩ := (judge_eq_some_iff size _).mp judged
    exact silent frame sends

/-- The first hit of a search along the numbers. -/
theorem findSome?_range_iff {α : Type} {look : Nat → Option α} {count : Nat}
    {found : α} :
    (List.range count).findSome? look = some found ↔
      ∃ place < count, look place = some found ∧
        ∀ earlier < place, look earlier = none := by
  induction count with
  | zero => simp
  | succ count induction =>
      rw [List.range_succ, List.findSome?_append, Option.or_eq_some_iff,
        induction, List.findSome?_eq_none_iff]
      constructor
      · rintro (⟨place, inside, hit, first⟩ | ⟨missed, hit⟩)
        · exact ⟨place, by omega, hit, first⟩
        · refine ⟨count, by omega, by simpa using hit, fun earlier before => ?_⟩
          exact missed earlier (List.mem_range.mpr before)
      · rintro ⟨place, inside, hit, first⟩
        by_cases last : place = count
        · subst last
          right
          refine ⟨fun earlier member => ?_, by simpa using hit⟩
          exact first earlier (List.mem_range.mp member)
        · exact .inl ⟨place, by omega, hit, first⟩

/-- The window that starts at a place. -/
def window (pulses : List Int) (start : Nat) : List Int :=
  (pulses.drop start).take 40

theorem length_window {pulses : List Int} {start : Nat}
    (inside : start + 40 ≤ pulses.length) :
    (window pulses start).length = 40 := by
  rw [window, List.length_take, List.length_drop]
  omega

/-- The decoder takes the reading of the first window that a frame sends. -/
theorem decode_eq_some_iff (pulses : List Int) (reading : F64 × F64) :
    decode pulses = some reading ↔
      ∃ start, start + 40 ≤ pulses.length ∧
        (∃ frame : Frame, frame.Sends (window pulses start) ∧
          frame.reading = reading) ∧
        ∀ earlier < start, ∀ frame : Frame,
          ¬ frame.Sends (window pulses earlier) := by
  have judged (start : Nat) (inside : start + 40 ≤ pulses.length) :=
    judge_eq_some_iff (length_window inside) reading
  have passed (start : Nat) (inside : start + 40 ≤ pulses.length) :=
    judge_eq_none_iff (length_window inside)
  unfold decode
  by_cases short : pulses.length < 40
  · rw [if_pos short]
    constructor
    · intro impossible
      cases impossible
    · rintro ⟨start, inside, -⟩
      omega
  · rw [if_neg short, findSome?_range_iff]
    constructor
    · rintro ⟨start, inside, hit, first⟩
      refine ⟨start, by omega, (judged start (by omega)).mp hit, ?_⟩
      intro earlier before
      exact (passed earlier (by omega)).mp (first earlier before)
    · rintro ⟨start, inside, hit, first⟩
      refine ⟨start, by omega, (judged start inside).mpr hit, ?_⟩
      intro earlier before
      exact (passed earlier (by omega)).mpr (first earlier before)

section Strays

variable {frame : Frame} {before widths after : List Int}

theorem length_of_sends (sends : frame.Sends widths) : widths.length = 40 := by
  have same := congrArg List.length sends
  rwa [List.length_map] at same

theorem window_at_frame (sends : frame.Sends widths) :
    window (before ++ widths ++ after) before.length = widths := by
  rw [window, List.append_assoc, List.drop_left,
    List.take_left' (length_of_sends sends)]

/-- A window that begins before the frame does not reach the strays after
it. -/
theorem window_before (sends : frame.Sends widths) {start : Nat}
    (early : start < before.length) :
    window (before ++ widths ++ after) start =
      window (before ++ widths) start := by
  have size := length_of_sends sends
  have inside : start ≤ (before ++ widths).length := by
    rw [List.length_append]
    omega
  rw [window, List.drop_append_of_le_length inside,
    List.take_append_of_le_length]
  · rfl
  · rw [List.length_drop, List.length_append]
    omega

/-- The frame's own window is one that a frame sends, so there is a first one. -/
theorem exists_first_window (sends : frame.Sends widths) :
    let pulses := before ++ widths ++ after
    ∃ start ≤ before.length,
      (∃ other : Frame, other.Sends (window pulses start)) ∧
        ∀ earlier < start, ∀ other : Frame,
          ¬ other.Sends (window pulses earlier) := by
  classical
  intro pulses
  have own : ∃ start, ∃ other : Frame, other.Sends (window pulses start) :=
    ⟨before.length, frame, by rwa [window_at_frame sends]⟩
  refine ⟨Nat.find own, Nat.find_min' own ?_, Nat.find_spec own, ?_⟩
  · exact ⟨frame, by rwa [window_at_frame sends]⟩
  · intro earlier early other taken
    exact Nat.find_min own early ⟨other, taken⟩

/-- The reading of the frame among strays is the decoder's, unless a window that
begins in the strays before it is a frame of another reading: of these windows
the first that a frame sends decides. -/
theorem decode_faithful_iff (sends : frame.Sends widths) :
    (decode (before ++ widths ++ after) = some frame.reading ∨
        decode (before ++ widths ++ after) = none) ↔
      ∀ start < before.length, ∀ other : Frame,
        other.Sends (window (before ++ widths) start) →
        (∀ earlier < start, ∀ first : Frame,
          ¬ first.Sends (window (before ++ widths) earlier)) →
        other.reading = frame.reading := by
  have size := length_of_sends sends
  have inside {start : Nat} (early : start ≤ before.length) :
      start + 40 ≤ (before ++ widths ++ after).length := by
    rw [List.length_append, List.length_append]
    omega
  constructor
  · intro faithful start early other taken first
    have decoded : decode (before ++ widths ++ after) = some other.reading := by
      refine (decode_eq_some_iff _ _).mpr
        ⟨start, inside early.le, ⟨other, ?_, rfl⟩, ?_⟩
      · rwa [window_before sends early]
      · intro earlier ahead
        rw [window_before sends (ahead.trans early)]
        exact first earlier ahead
    rw [decoded] at faithful
    rcases faithful with same | never
    · exact Option.some.inj same
    · cases never
  · intro condition
    left
    obtain ⟨start, early, ⟨other, taken⟩, first⟩ :=
      @exists_first_window frame before widths after sends
    refine (decode_eq_some_iff _ _).mpr ⟨start, inside early, ?_, first⟩
    rcases early.lt_or_eq with stray | rfl
    · rw [window_before sends stray] at taken ⊢
      refine ⟨other, taken, condition start stray other taken ?_⟩
      intro earlier ahead
      rw [← @window_before frame before widths after sends earlier
        (ahead.trans stray)]
      exact first earlier ahead
    · rw [window_at_frame sends]
      exact ⟨frame, sends, rfl⟩

/-- Strays after the frame alone do no harm. -/
theorem decode_after (sends : frame.Sends widths) :
    decode (widths ++ after) = some frame.reading := by
  refine (decode_eq_some_iff _ _).mpr ⟨0, ?_, ⟨frame, ?_, rfl⟩, ?_⟩
  · rw [List.length_append, length_of_sends sends]
    omega
  · have own := @window_at_frame frame [] widths after sends
    rw [List.nil_append, List.length_nil] at own
    rwa [own]
  · intro earlier never
    omega

end Strays

namespace Vectors

/-- Clear widths for the bits of a frame. -/
def pulses (frame : Frame) : List Int :=
  frame.bits.map fun bit => if bit then 75000 else 30000

theorem sends_pulses (frame : Frame) : frame.Sends (pulses frame) := by
  have clear (bit : Bool) :
      decide ((if bit then 75000 else 30000 : Int) > DHT_ONE_NS) = bit := by
    cases bit <;> rfl
  unfold Frame.Sends pulses
  rw [List.map_map, Function.comp_def]
  simp only [clear, List.map_id']

/-- 45.0 % and 12.3 °C. -/
def cool : Frame where
  humWhole := 45
  humTenths := 0
  tempWhole := 12
  tempTenths := 3
  sum := 60
  checks := rfl
  humInRange := by
    change (((45 : Nat) : F64) + ((0 : Nat) : F64) / 10) ≤ 100
    norm_num
  tempInRange := by
    change (((12 : Nat) : F64) + ((3 : Nat) : F64) / 10) ≤ 80
    norm_num

/-- 60.0 % and 24.0 °C. -/
def warm : Frame where
  humWhole := 60
  humTenths := 0
  tempWhole := 24
  tempTenths := 0
  sum := 84
  checks := rfl
  humInRange := by
    change (((60 : Nat) : F64) + ((0 : Nat) : F64) / 10) ≤ 100
    norm_num
  tempInRange := by
    change (((24 : Nat) : F64) + ((0 : Nat) : F64) / 10) ≤ 80
    norm_num

/-- Half of it. -/
def halved : Frame where
  humWhole := 30
  humTenths := 0
  tempWhole := 12
  tempTenths := 0
  sum := 42
  checks := rfl
  humInRange := by
    change (((30 : Nat) : F64) + ((0 : Nat) : F64) / 10) ≤ 100
    norm_num
  tempInRange := by
    change (((12 : Nat) : F64) + ((0 : Nat) : F64) / 10) ≤ 80
    norm_num

theorem decode_faithful_iff_cool :
    decode ([9000] ++ pulses cool ++ []) = some cool.reading ∨
      decode ([9000] ++ pulses cool ++ []) = none := by
  refine (decode_faithful_iff (sends_pulses cool)).mpr ?_
  intro start early other taken _
  obtain rfl : start = 0 := by simpa using early
  have silent : judge (window ([9000] ++ pulses cool) 0) = none := rfl
  exact absurd taken ((judge_eq_none_iff rfl).mp silent other)

/-- One short stray width in front of a frame of even bytes shifts every byte
down by one bit: the checksum is right, and the room half as warm. -/
theorem decode_warm_halved :
    ¬ ∀ (frame : Frame) (before widths after : List Int),
      frame.Sends widths →
      decode (before ++ widths ++ after) = some frame.reading ∨
        decode (before ++ widths ++ after) = none := by
  intro faithful
  have decoded :
      decode ([30000] ++ pulses warm ++ []) = some halved.reading :=
    (decode_eq_some_iff _ _).mpr
      ⟨0, by decide, ⟨halved, by decide, rfl⟩, fun _ never => by omega⟩
  have differ : halved.reading ≠ warm.reading := by
    simp [Frame.reading, halved, warm]
  rcases faithful warm [30000] (pulses warm) [] (sends_pulses warm) with
    same | never
  · exact differ (Option.some.inj (decoded.symm.trans same))
  · cases decoded.symm.trans never

end Vectors

end Dht
