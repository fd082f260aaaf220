import Loa.BlockCode
import Loa.RustText
import Mathlib.Tactic.IntervalCases

/-!
# The encoder of the ring

A frame goes out over SPI as one byte for each bit of each LED, green first and
the high bit first, and then a latch of low bytes.  The encoding is a block code
made of three: an LED is three bytes, a byte is eight bits, a bit is a pulse.
-/

namespace Ring

def LEDS : Nat := 24

def BYTES : Nat := LEDS * 3

def LATCH : Nat := 24

def ONE : UInt8 := 0b1110

def ZERO : UInt8 := 0b1000

/-- One channel value as eight SPI bytes, the high bit first. -/
def wsByte (v : UInt8) (out : Bytes) : Bytes :=
  [7, 6, 5, 4, 3, 2, 1, 0].foldl
    (fun out bit => out ++ [if (v >>> bit) &&& 1 = 1 then ONE else ZERO]) out

/-- `chunks_exact(3)`: what does not fill a chunk is left out. -/
def chunksExact : Bytes → List (UInt8 × UInt8 × UInt8)
  | r :: g :: b :: rest => (r, g, b) :: chunksExact rest
  | _ => []

/-- The SPI buffer of a frame: green, red, blue, and the latch. -/
def encodeFrame (rgb : Bytes) : Bytes :=
  (chunksExact rgb).foldl
      (fun buf px => wsByte px.2.2 (wsByte px.1 (wsByte px.2.1 buf))) [] ++
    List.replicate LATCH 0

/-- The pulse of a bit. -/
def pulse (bit : Bool) : UInt8 :=
  if bit then ONE else ZERO

/-- The bit of a pulse. -/
def readPulse (byte : UInt8) : Option Bool :=
  if byte = ONE then some true else if byte = ZERO then some false else none

def pulseCode : BlockCode Bool UInt8 :=
  .ofLetter pulse readPulse fun bit => by cases bit <;> rfl

/-- The bits of a byte, the high one first. -/
def bits (v : UInt8) : List Bool :=
  [7, 6, 5, 4, 3, 2, 1, 0].map fun bit => v.toNat.testBit bit

/-- The byte with these bits, the high one first. -/
def ofBits (word : List Bool) : UInt8 :=
  UInt8.ofNat (word.foldl (fun value bit => 2 * value + bit.toNat) 0)

/-- What holds of the 256 bytes holds of every byte. -/
theorem forall_byte (holds : UInt8 → Prop)
    (each : ∀ n < 256, holds (UInt8.ofNat n)) (v : UInt8) : holds v := by
  have known := each v.toNat v.toNat_lt
  rwa [UInt8.ofNat_toNat] at known

theorem ofBits_bits (v : UInt8) : ofBits (bits v) = v := by
  apply forall_byte fun v => ofBits (bits v) = v
  decide +kernel

def byteCode : BlockCode UInt8 Bool where
  width := 8
  word := bits
  read := fun word => some (ofBits word)
  length_word := fun _ => rfl
  read_word := fun v => congrArg some (ofBits_bits v)

/-- The three bytes of an LED, green first. -/
def ledCode : BlockCode (UInt8 × UInt8 × UInt8) UInt8 where
  width := 3
  word := fun px => [px.2.1, px.1, px.2.2]
  read := fun letters =>
    match letters with
    | [g, r, b] => some (r, g, b)
    | _ => none
  length_word := fun _ => rfl
  read_word := fun _ => rfl

/-- The pulses of an LED. -/
def wsCode : BlockCode (UInt8 × UInt8 × UInt8) UInt8 :=
  pulseCode.comp (byteCode.comp ledCode)

theorem width_wsCode : wsCode.width = 24 :=
  rfl

theorem wsByte_eq (v : UInt8) (out : Bytes) :
    wsByte v out = out ++ pulseCode.encode (bits v) := by
  have pulses : ([7, 6, 5, 4, 3, 2, 1, 0] : List UInt8).map
        (fun bit => if (v >>> bit) &&& 1 = 1 then ONE else ZERO) =
      (bits v).map pulse := by
    apply forall_byte fun v =>
      ([7, 6, 5, 4, 3, 2, 1, 0] : List UInt8).map
          (fun bit => if (v >>> bit) &&& 1 = 1 then ONE else ZERO) =
        (bits v).map pulse
    decide +kernel
  calc
    wsByte v out =
        out ++ ([7, 6, 5, 4, 3, 2, 1, 0] : List UInt8).map
          (fun bit => if (v >>> bit) &&& 1 = 1 then ONE else ZERO) := by
      simp [wsByte]
    _ = out ++ (bits v).map pulse := by rw [pulses]
    _ = out ++ pulseCode.encode (bits v) := rfl

theorem wsByte_led (px : UInt8 × UInt8 × UInt8) (buf : Bytes) :
    wsByte px.2.2 (wsByte px.1 (wsByte px.2.1 buf)) =
      buf ++ wsCode.word px := by
  simp only [wsByte_eq, List.append_assoc]
  rfl

/-- The data of a frame is the code of its LEDs. -/
theorem encodeFrame_eq (rgb : Bytes) :
    encodeFrame rgb =
      wsCode.encode (chunksExact rgb) ++ List.replicate LATCH 0 := by
  have folded (leds : List (UInt8 × UInt8 × UInt8)) (buf : Bytes) :
      leds.foldl
          (fun buf px => wsByte px.2.2 (wsByte px.1 (wsByte px.2.1 buf))) buf =
        buf ++ wsCode.encode leds := by
    induction leds generalizing buf with
    | nil => exact (List.append_nil buf).symm
    | cons px rest induction =>
        rw [List.foldl_cons, wsByte_led, induction, wsCode.encode_cons,
          List.append_assoc]
  rw [encodeFrame, folded, List.nil_append]

theorem length_chunksExact {n : Nat} {rgb : Bytes}
    (sized : rgb.length = 3 * n) : (chunksExact rgb).length = n := by
  induction n generalizing rgb with
  | zero =>
      rw [List.eq_nil_of_length_eq_zero sized]
      rfl
  | succ n induction =>
      match rgb with
      | [] => simp at sized
      | [_] => simp at sized; omega
      | [_, _] => simp at sized; omega
      | r :: g :: b :: rest =>
          rw [chunksExact, List.length_cons, induction]
          simp only [List.length_cons] at sized
          omega

/-- The bytes of an LED as a frame has them. -/
def rgbCode : BlockCode (UInt8 × UInt8 × UInt8) UInt8 where
  width := 3
  word := fun px => [px.1, px.2.1, px.2.2]
  read := fun letters =>
    match letters with
    | [r, g, b] => some (r, g, b)
    | _ => none
  length_word := fun _ => rfl
  read_word := fun _ => rfl

theorem rgbCode_chunksExact {n : Nat} {rgb : Bytes}
    (sized : rgb.length = 3 * n) : rgbCode.encode (chunksExact rgb) = rgb := by
  induction n generalizing rgb with
  | zero =>
      rw [List.eq_nil_of_length_eq_zero sized]
      rfl
  | succ n induction =>
      match rgb with
      | [] => rfl
      | [_] => simp at sized; omega
      | [_, _] => simp at sized; omega
      | r :: g :: b :: rest =>
          have fewer : rest.length = 3 * n := by
            simp only [List.length_cons] at sized
            omega
          rw [chunksExact, rgbCode.encode_cons, induction fewer]
          rfl

/-- The place of a channel among the three bytes of an LED, in the order of the
wire. -/
def GRB : List Nat :=
  [1, 0, 2]

theorem getElem?_bits (v : UInt8) {bit : Nat} (small : bit < 8) :
    (bits v)[bit]? = some (v.toNat.testBit (7 - bit)) := by
  interval_cases bit <;> rfl

theorem getElem?_pulses (word : List Bool) (place : Nat) :
    (pulseCode.encode word)[place]? = word[place]?.map pulse := by
  have found := pulseCode.getElem?_encode word place
    (Nat.lt_succ_self 0)
  have width : pulseCode.width = 1 := rfl
  rw [width, Nat.one_mul, Nat.add_zero] at found
  rw [found]
  cases word[place]? <;> rfl

theorem readPulse_pulse (bit : Bool) : readPulse (pulse bit) = some bit := by
  cases bit <;> rfl

/-- A byte of the data is a bit of the LED's channel. -/
theorem readPulse_word (px : UInt8 × UInt8 × UInt8) {channel bit : Nat}
    (inLed : channel < 3) (small : bit < 8) :
    (wsCode.word px)[8 * channel + bit]?.bind readPulse =
      ((rgbCode.word px)[GRB.getD channel 0]?).map fun v =>
        v.toNat.testBit (7 - bit) := by
  have pulses : wsCode.word px =
      pulseCode.encode (byteCode.encode (ledCode.word px)) := rfl
  have width : byteCode.width = 8 := rfl
  have found := byteCode.getElem?_encode (ledCode.word px) channel small
  rw [width] at found
  have ordered : (ledCode.word px)[channel]? =
      (rgbCode.word px)[GRB.getD channel 0]? := by
    interval_cases channel <;> rfl
  rw [pulses, getElem?_pulses, found, ordered]
  cases (rgbCode.word px)[GRB.getD channel 0]? with
  | none => rfl
  | some v =>
      have isBit : (byteCode.word v)[bit]? = _ := getElem?_bits v small
      rw [Option.bind_some, isBit, Option.map_some, Option.bind_some,
        readPulse_pulse]
      rfl

theorem ne_zero_of_mem_pulses {word : List Bool} {byte : UInt8}
    (member : byte ∈ pulseCode.encode word) : byte ≠ 0 := by
  obtain ⟨bit, -, inPulse⟩ := List.mem_flatMap.mp member
  rw [List.mem_singleton.mp inPulse]
  cases bit <;> decide

/-- Everything before the first latch byte, read back as a frame. -/
def decodeFrame (buf : Bytes) : Option Bytes :=
  let data := buf.takeWhile fun byte => byte ≠ 0
  (wsCode.decode (data.length / 24) data).map rgbCode.encode

/-- A frame of LEDs on the wire: the data and then the latch, each byte of the
data one bit of the frame. -/
structure OnWire (n : Nat) (rgb buf data : Bytes) : Prop where
  split : buf = data ++ List.replicate LATCH 0
  length : data.length = 24 * n
  bit : ∀ led < n, ∀ channel < 3, ∀ bit < 8,
    data[24 * led + (8 * channel + bit)]?.bind readPulse =
      rgb[3 * led + GRB.getD channel 0]?.map fun v =>
        v.toNat.testBit (7 - bit)
  unlatched : ∀ byte ∈ data, byte ≠ 0

theorem onWire_encodeFrame {n : Nat} {rgb : Bytes}
    (sized : rgb.length = 3 * n) :
    OnWire n rgb (encodeFrame rgb) (wsCode.encode (chunksExact rgb)) := by
  refine ⟨encodeFrame_eq rgb, ?_, ?_, ?_⟩
  · rw [wsCode.length_encode, length_chunksExact sized, width_wsCode]
  · intro led _ channel inLed bit small
    have place : 8 * channel + bit < wsCode.width := by
      rw [width_wsCode]
      omega
    have found := wsCode.getElem?_encode (chunksExact rgb) led place
    rw [width_wsCode] at found
    have inWord : GRB.getD channel 0 < rgbCode.width := by
      interval_cases channel <;> decide
    have original := rgbCode.getElem?_encode (chunksExact rgb) led inWord
    rw [rgbCode_chunksExact sized] at original
    have width : rgbCode.width = 3 := rfl
    rw [width] at original
    rw [found, original]
    cases (chunksExact rgb)[led]? with
    | none => rfl
    | some px => exact readPulse_word px inLed small
  · intro byte member
    have pulses : wsCode.encode (chunksExact rgb) =
        pulseCode.encode ((byteCode.comp ledCode).encode (chunksExact rgb)) :=
      pulseCode.encode_comp _ _
    rw [pulses] at member
    exact ne_zero_of_mem_pulses member

theorem decodeFrame_encodeFrame {n : Nat} {rgb : Bytes}
    (sized : rgb.length = 3 * n) :
    decodeFrame (encodeFrame rgb) = some rgb := by
  have onWire := onWire_encodeFrame sized
  have data : (encodeFrame rgb).takeWhile (fun byte => byte ≠ 0) =
      wsCode.encode (chunksExact rgb) := by
    rw [onWire.split, List.takeWhile_append_of_pos
      (fun byte member => decide_eq_true (onWire.unlatched byte member))]
    simp [LATCH, List.replicate]
  unfold decodeFrame
  rw [data]
  dsimp only
  rw [onWire.length, Nat.mul_div_cancel_left n (by decide),
    ← length_chunksExact sized, wsCode.decode_encode, Option.map_some,
    rgbCode_chunksExact sized]

/-- A frame of any number of LEDs goes out as its bits and a latch that no bit
looks like, and no other frame goes out the same. -/
theorem encodeFrame_lossless {n : Nat} {rgb : Bytes}
    (sized : rgb.length = 3 * n) :
    (∃ data, OnWire n rgb (encodeFrame rgb) data) ∧
      decodeFrame (encodeFrame rgb) = some rgb ∧
      ∀ (m : Nat) (other : Bytes), other.length = 3 * m →
        encodeFrame other = encodeFrame rgb → other = rgb := by
  refine ⟨⟨_, onWire_encodeFrame sized⟩, decodeFrame_encodeFrame sized, ?_⟩
  intro m other otherSized same
  rw [encodeFrame_eq, encodeFrame_eq] at same
  have leds := wsCode.encode_injective (by decide) (List.append_cancel_right same)
  rw [← rgbCode_chunksExact otherSized, leds, rgbCode_chunksExact sized]

/-- A red LED, a dark one and a dim blue one. -/
theorem encodeFrame_lossless_three :
    (∃ data, OnWire 3 [255, 0, 0, 0, 0, 0, 1, 2, 90]
        (encodeFrame [255, 0, 0, 0, 0, 0, 1, 2, 90]) data) ∧
      decodeFrame (encodeFrame [255, 0, 0, 0, 0, 0, 1, 2, 90]) =
        some [255, 0, 0, 0, 0, 0, 1, 2, 90] ∧
      ∀ (m : Nat) (other : Bytes), other.length = 3 * m →
        encodeFrame other = encodeFrame [255, 0, 0, 0, 0, 0, 1, 2, 90] →
        other = [255, 0, 0, 0, 0, 0, 1, 2, 90] :=
  encodeFrame_lossless rfl

end Ring
