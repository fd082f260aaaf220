import Loa.ErrorDiffusion
import Loa.RingEncode
import Loa.RustFloat

/-!
# The dither of the ring

A frame of doubles goes to the strip as bytes.  Every channel of every LED keeps
the fraction that its byte left out and adds it to the next value, so each of
the 72 channels diffuses its own error.
-/

namespace Ring

open ErrorDiffusion

/-- A colour, by channel. -/
abbrev Colour := F64 × F64 × F64

/-- The three channels of a colour. -/
def chans (colour : Colour) : Fin 3 → F64
  | 0 => colour.1
  | 1 => colour.2.1
  | 2 => colour.2.2

/-- The accumulators, one for each channel of each LED. -/
structure Dither where
  acc : Fin LEDS → Fin 3 → F64

namespace Dither

def new : Dither where
  acc := fun _ _ => 0

/-- What a channel is asked for. -/
def requested (frame : List Colour) (led : Fin LEDS) (channel : Fin 3) :
    Option F64 :=
  frame[led.val]?.map fun colour => chans colour channel

/-- The whole part of what a channel owes; nothing behind the end of a frame. -/
def emitted (dither : Dither) (frame : List Colour) (led : Fin LEDS)
    (channel : Fin 3) : Int :=
  match requested frame led channel with
  | some value => RustFloat.asI64 (dither.acc led channel + value)
  | none => 0

/-- The remainder that a channel keeps. -/
def remainder (dither : Dither) (frame : List Colour) (led : Fin LEDS)
    (channel : Fin 3) : F64 :=
  match requested frame led channel with
  | some value =>
      dither.acc led channel + value - dither.emitted frame led channel
  | none => dither.acc led channel

/-- The clamp to a byte. -/
def clamp (value : Int) : Int :=
  max 0 (min value 255)

/-- Emit the whole parts, and keep the remainders. -/
def render (dither : Dither) (frame : List Colour) : Bytes × Dither :=
  (List.ofFn fun place : Fin BYTES =>
      have led : Fin LEDS := ⟨place.val / 3, by
        have inside := place.isLt
        unfold BYTES at inside
        omega⟩
      have channel : Fin 3 := ⟨place.val % 3, Nat.mod_lt _ (by decide)⟩
      UInt8.ofNat (clamp (dither.emitted frame led channel)).toNat,
    { acc := fun led channel => dither.remainder frame led channel })

/-- Render frames one after the other. -/
def renderAll (dither : Dither) : List (List Colour) → List Bytes × Dither
  | [] => ([], dither)
  | frame :: rest =>
      let (raw, after) := dither.render frame
      let (raws, last) := after.renderAll rest
      (raw :: raws, last)

end Dither

/-- A frame of the whole ring, its channels from 0 to 255. -/
structure Valid (frame : List Colour) : Prop where
  length : frame.length = LEDS
  channels : ∀ colour ∈ frame, ∀ channel,
    0 ≤ chans colour channel ∧ chans colour channel ≤ 255

theorem truncate_of_nonneg {value : F64} (positive : 0 ≤ value) :
    RustFloat.truncate value = ⌊value⌋ := by
  rw [RustFloat.truncate, Rat.floor_def',
    Int.tdiv_eq_ediv_of_nonneg (Rat.num_nonneg.mpr positive)]

theorem asI64_of_bounds {value : F64} (positive : 0 ≤ value)
    (bounded : value < 256) : RustFloat.asI64 value = ⌊value⌋ := by
  have low : 0 ≤ ⌊value⌋ := Int.floor_nonneg.mpr positive
  have high : ⌊value⌋ < 256 := Int.floor_lt.mpr (by exact_mod_cast bounded)
  rw [RustFloat.asI64, truncate_of_nonneg positive]
  omega

/-- The byte of a channel in what was emitted. -/
def byteAt (led : Fin LEDS) (channel : Fin 3) (raw : Bytes) : Nat :=
  (raw.getD (led.val * 3 + channel.val) 0).toNat

/-- What a channel of a frame is asked for; nothing behind its end. -/
def valueAt (led : Fin LEDS) (channel : Fin 3) (frame : List Colour) : F64 :=
  (Dither.requested frame led channel).getD 0

section Channel

variable {dither : Dither} {frame : List Colour} {led : Fin LEDS}
  {channel : Fin 3}

theorem Valid.requested (valid : Valid frame) (led : Fin LEDS)
    (channel : Fin 3) :
    Dither.requested frame led channel = some (valueAt led channel frame) ∧
      0 ≤ valueAt led channel frame ∧ valueAt led channel frame ≤ 255 := by
  have inside : led.val < frame.length := by
    rw [valid.length]
    exact led.isLt
  have asked : Dither.requested frame led channel =
      some (chans frame[led.val] channel) := by
    rw [Dither.requested, List.getElem?_eq_getElem inside]
    rfl
  rw [valueAt, asked]
  exact ⟨rfl, valid.channels _ (List.getElem_mem inside) channel⟩

/-- A channel whose accumulator is a fraction emits and keeps as error diffusion
does, and what it emits is a byte already. -/
theorem diffuses (valid : Valid frame)
    (fraction : 0 ≤ dither.acc led channel ∧ dither.acc led channel < 1) :
    dither.emitted frame led channel =
        emit (dither.acc led channel) (valueAt led channel frame) ∧
      dither.remainder frame led channel =
        keep (dither.acc led channel) (valueAt led channel frame) ∧
      Dither.clamp (dither.emitted frame led channel) =
        dither.emitted frame led channel := by
  obtain ⟨asked, positive, bounded⟩ := valid.requested led channel
  have whole : dither.emitted frame led channel =
      emit (dither.acc led channel) (valueAt led channel frame) := by
    unfold Dither.emitted
    rw [asked]
    apply asI64_of_bounds
    · exact add_nonneg fraction.1 positive
    · linarith [fraction.2]
  refine ⟨whole, ?_, ?_⟩
  · unfold Dither.remainder
    rw [asked, whole]
    exact Int.self_sub_floor _
  · have low := emit_nonneg fraction.1 positive
    have high : emit (dither.acc led channel) (valueAt led channel frame) ≤
        255 :=
      emit_le fraction.2 (by exact_mod_cast bounded)
    rw [whole, Dither.clamp]
    omega

theorem byteAt_render (dither : Dither) (frame : List Colour) (led : Fin LEDS)
    (channel : Fin 3) :
    byteAt led channel (dither.render frame).1 =
      (UInt8.ofNat
        (Dither.clamp (dither.emitted frame led channel)).toNat).toNat := by
  have ledBelow := led.isLt
  have channelBelow := channel.isLt
  have inside : led.val * 3 + channel.val < BYTES := by
    unfold LEDS at ledBelow
    unfold BYTES LEDS
    omega
  have sameLed : (led.val * 3 + channel.val) / 3 = led.val := by omega
  have sameChannel : (led.val * 3 + channel.val) % 3 = channel.val := by omega
  unfold byteAt Dither.render
  dsimp only
  rw [List.getD_eq_getElem?_getD, List.getElem?_ofFn, dif_pos inside,
    Option.getD_some]
  simp only [sameLed, sameChannel, Fin.eta]

theorem byteAt_render_of_valid (valid : Valid frame)
    (fraction : 0 ≤ dither.acc led channel ∧ dither.acc led channel < 1) :
    (byteAt led channel (dither.render frame).1 : Int) =
      emit (dither.acc led channel) (valueAt led channel frame) := by
  obtain ⟨whole, -, unclamped⟩ := diffuses valid fraction
  obtain ⟨-, positive, bounded⟩ := valid.requested led channel
  have low := emit_nonneg fraction.1 positive
  have high : emit (dither.acc led channel) (valueAt led channel frame) ≤ 255 :=
    emit_le fraction.2 (by exact_mod_cast bounded)
  rw [byteAt_render, unclamped, whole, UInt8.toNat_ofNat']
  omega

end Channel

section Run

variable {dither : Dither} {frames : List (List Colour)} {led : Fin LEDS}
  {channel : Fin 3}

/-- Over a run, a channel is error diffusion of the values it is asked for. -/
theorem renderAll_diffuses (valid : ∀ frame ∈ frames, Valid frame)
    (fraction : 0 ≤ dither.acc led channel ∧ dither.acc led channel < 1) :
    ((dither.renderAll frames).1.map fun raw =>
          (byteAt led channel raw : Int)) =
        emitted (dither.acc led channel)
          (frames.map (valueAt led channel)) ∧
      (dither.renderAll frames).2.acc led channel =
        carried (dither.acc led channel)
          (frames.map (valueAt led channel)) := by
  induction frames generalizing dither with
  | nil => exact ⟨rfl, rfl⟩
  | cons frame rest induction =>
      have first := valid frame List.mem_cons_self
      have kept : (dither.render frame).2.acc led channel =
          keep (dither.acc led channel) (valueAt led channel frame) :=
        (diffuses first fraction).2.1
      have later := @induction (dither.render frame).2
        (fun frame member => valid frame (List.mem_cons_of_mem _ member))
        (by
          rw [kept]
          exact ⟨keep_nonneg _ _, keep_lt_one _ _⟩)
      rw [kept] at later
      refine ⟨?_, later.2⟩
      simp only [Dither.renderAll, List.map_cons, emitted]
      rw [byteAt_render_of_valid first fraction, later.1]

/-- No light is lost over a run: the bytes that a channel was given differ from
what it was asked for by less than one, its remainder is a fraction, and the
clamp left every emitted value as it was. -/
structure Conserved (frames : List (List Colour)) (led : Fin LEDS)
    (channel : Fin 3) : Prop where
  light : |((Dither.new.renderAll frames).1.map fun raw =>
        (byteAt led channel raw : F64)).sum -
      (frames.map (valueAt led channel)).sum| < 1
  remainder : 0 ≤ (Dither.new.renderAll frames).2.acc led channel ∧
    (Dither.new.renderAll frames).2.acc led channel < 1
  unclamped : ∀ past frame later, frames = past ++ frame :: later →
    let before := (Dither.new.renderAll past).2
    Dither.clamp (before.emitted frame led channel) =
      before.emitted frame led channel

theorem light_conserved (valid : ∀ frame ∈ frames, Valid frame)
    (led : Fin LEDS) (channel : Fin 3) : Conserved frames led channel := by
  have start : 0 ≤ Dither.new.acc led channel ∧
      Dither.new.acc led channel < 1 := by
    simp [Dither.new]
  have fraction (past : List (List Colour))
      (each : ∀ frame ∈ past, Valid frame) :
      0 ≤ (Dither.new.renderAll past).2.acc led channel ∧
        (Dither.new.renderAll past).2.acc led channel < 1 := by
    rw [(renderAll_diffuses each start).2]
    exact carried_fraction start _
  obtain ⟨bytes, acc⟩ := renderAll_diffuses valid start
  have total := sum_emitted (Dither.new.acc led channel)
    (frames.map (valueAt led channel))
  have casts : (Int.cast ∘ fun raw : Bytes => (byteAt led channel raw : Int)) =
      fun raw => (byteAt led channel raw : F64) :=
    funext fun raw => Int.cast_natCast _
  have fresh : Dither.new.acc led channel = 0 := rfl
  rw [← bytes, ← acc, List.map_map, casts, fresh, zero_add] at total
  have last := fraction frames valid
  refine ⟨?_, last, ?_⟩
  · rw [abs_lt]
    constructor
    · linarith [last.2]
    · linarith [last.1]
  · rintro past frame later rfl
    have each : ∀ frame ∈ past, Valid frame := fun frame member =>
      valid frame (List.mem_append_left _ member)
    have next : Valid frame :=
      valid frame (List.mem_append_right _ List.mem_cons_self)
    exact (diffuses next (fraction past each)).2.2

end Run

/-- A red just under the top, between two codes of green. -/
def amber : List Colour :=
  List.replicate LEDS (2549 / 10, 1 / 2, 0)

theorem valid_amber : Valid amber := by
  refine ⟨List.length_replicate, ?_⟩
  intro colour member channel
  rw [List.eq_of_mem_replicate member]
  match channel with
  | 0 => norm_num [chans]
  | 1 => norm_num [chans]
  | 2 => norm_num [chans]

theorem light_conserved_amber : Conserved [amber, amber] ⟨0, by decide⟩ 1 :=
  light_conserved (by simp [valid_amber]) _ _

end Ring
