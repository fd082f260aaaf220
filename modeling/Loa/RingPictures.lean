import Loa.RingRenderer
import Mathlib.Tactic.NormNum
import Mathlib.Tactic.Positivity

/-!
# The pictures of the ring

Every picture that a renderer draws is one of the whole ring, with channels from
0 to 255, whatever tell speaks and whenever it is drawn.  The functions of the
mathematical library need only keep to their ranges.
-/

namespace RustFloat

/-- The ranges of the functions of the mathematical library, where the ring
calls them. -/
structure Libm.Tame (libm : Libm) : Prop where
  pi : 0 ≤ libm.pi
  sin : ∀ x, 0 ≤ x → x ≤ libm.pi * (1 / 2) → 0 ≤ libm.sin x ∧ libm.sin x ≤ 1
  quarter : ∀ x, 0 ≤ x → x ≤ libm.pi * (1 / 2) →
    0 ≤ libm.cos x ∧ libm.cos x ≤ 1
  cos : ∀ x, -1 ≤ libm.cos x ∧ libm.cos x ≤ 1
  exp : ∀ x ≤ 0, 0 ≤ libm.exp x ∧ libm.exp x ≤ 1
  powf : ∀ x, 0 ≤ x → x ≤ 1 →
    0 ≤ libm.powf x (3 / 2) ∧ libm.powf x (3 / 2) ≤ 1

theorem truncate_neg (value : F64) : truncate (-value) = -truncate value := by
  unfold truncate
  rw [Rat.num_neg_eq_neg_num, Rat.den_neg_eq_den, Int.neg_tdiv]

theorem rem_nonneg {value modulus : F64} (positive : 0 ≤ value)
    (wide : 0 < modulus) :
    0 ≤ rem value modulus ∧ rem value modulus < modulus := by
  have quotient : 0 ≤ value / modulus := div_nonneg positive wide.le
  have whole : rem value modulus = modulus * Int.fract (value / modulus) := by
    rw [rem, Ring.truncate_of_nonneg quotient, Int.fract, mul_sub,
      mul_div_cancel₀ _ wide.ne']
  rw [whole]
  constructor
  · exact mul_nonneg wide.le (Int.fract_nonneg _)
  · exact mul_lt_of_lt_one_right wide (Int.fract_lt_one _)

theorem rem_neg (value modulus : F64) :
    rem (-value) modulus = -rem value modulus := by
  rw [rem, rem, neg_div, truncate_neg]
  push_cast
  ring

theorem remEuclid_nonneg {modulus : F64} (value : F64) (wide : 0 < modulus) :
    0 ≤ remEuclid value modulus := by
  unfold remEuclid
  dsimp only
  split_ifs with negative
  · have below : 0 ≤ -value := by
      by_contra wrong
      have positive : 0 ≤ value := by linarith
      exact absurd (rem_nonneg positive wide).1 (not_le.mpr negative)
    have bounds := rem_nonneg below wide
    rw [rem_neg] at bounds
    rw [abs_of_pos wide]
    linarith [bounds.2]
  · exact not_lt.mp negative

end RustFloat

namespace Ring

open RustFloat
open RingDaemon (Tell RingInput OneShot)

/-- The channels of a colour from 0 to 255. -/
def Bounded (colour : Colour) : Prop :=
  ∀ channel, 0 ≤ chans colour channel ∧ chans colour channel ≤ 255

theorem bounded_mk {r g b : F64} (red : 0 ≤ r ∧ r ≤ 255)
    (green : 0 ≤ g ∧ g ≤ 255) (blue : 0 ≤ b ∧ b ≤ 255) : Bounded (r, g, b) := by
  intro channel
  match channel with
  | 0 => exact red
  | 1 => exact green
  | 2 => exact blue

theorem bounded_dark : Bounded (0, 0, 0) :=
  bounded_mk (by norm_num) (by norm_num) (by norm_num)

theorem bounded_hsv {h s v : F64} (hue : 0 ≤ h) (saturation : 0 ≤ s ∧ s ≤ 1)
    (value : 0 ≤ v ∧ v ≤ 1) : Bounded (hsv h s v) := by
  obtain ⟨remPositive, remBelow⟩ :=
    rem_nonneg (div_nonneg hue (by norm_num : (0 : F64) ≤ 60)) two_pos
  have ramp : |rem (h / 60) 2 - 1| ≤ 1 := abs_le.mpr ⟨by linarith, by linarith⟩
  have slope := abs_nonneg (rem (h / 60) 2 - 1)
  unfold hsv
  dsimp only
  generalize |rem (h / 60) 2 - 1| = distance at ramp slope
  have chroma : 0 ≤ v * s := mul_nonneg value.1 saturation.1
  have within : v * s ≤ v := mul_le_of_le_one_right value.1 saturation.2
  have second : 0 ≤ v * s * (1 - distance) :=
    mul_nonneg chroma (by linarith)
  have secondWithin : v * s * (1 - distance) ≤ v * s :=
    mul_le_of_le_one_right chroma (by linarith)
  -- each part is at most the chroma, and the chroma and the rest are the value
  have channel {part : F64} (low : 0 ≤ part) (high : part ≤ v * s) :
      0 ≤ (part + (v - v * s)) * 255 ∧ (part + (v - v * s)) * 255 ≤ 255 := by
    constructor <;> linarith [value.2]
  have most := channel chroma le_rfl
  have middle := channel second secondWithin
  have least := channel le_rfl chroma
  split_ifs
  · exact bounded_mk most middle least
  · exact bounded_mk middle most least
  · exact bounded_mk least most middle
  · exact bounded_mk least middle most
  · exact bounded_mk middle least most
  · exact bounded_mk most least middle

theorem valid_replicate {colour : Colour} (bounded : Bounded colour) :
    Valid (List.replicate 24 colour) where
  length := List.length_replicate
  channels := fun other member => by
    rw [List.eq_of_mem_replicate member]
    exact bounded

theorem valid_map {colour : Nat → Colour} (each : ∀ led, Bounded (colour led)) :
    Valid ((List.range 24).map colour) where
  length := by simp [LEDS]
  channels := fun other member => by
    obtain ⟨led, -, rfl⟩ := List.mem_map.mp member
    exact each led

theorem valid_dark : Valid (List.replicate 24 (0, 0, 0)) :=
  valid_replicate bounded_dark

theorem valid_solid {h s v : F64} (hue : 0 ≤ h) (saturation : 0 ≤ s ∧ s ≤ 1)
    (value : 0 ≤ v ∧ v ≤ 1) : Valid (solid h s v) :=
  valid_replicate (bounded_hsv hue saturation value)

theorem frameCount_pos (secs : F64) : 0 < frameCount secs := by
  have least : (1 : F64) ≤ max (RustFloat.round (secs * FPS)) 1 := le_max_right _ _
  have whole := Int.le_floor.mpr (by exact_mod_cast least :
    ((1 : Int) : F64) ≤ max (RustFloat.round (secs * FPS)) 1)
  unfold frameCount asUsize
  rw [truncate_of_nonneg (zero_le_one.trans least)]
  omega

section Library

variable {libm : Libm} (tame : libm.Tame)

include tame

theorem easedCurve_between {secs peak base level : F64} {phase : Phase}
    (above : base ≤ peak)
    (member : level ∈ easedCurve libm secs peak base phase) :
    base ≤ level ∧ level ≤ peak := by
  have eased {rise : F64} (low : 0 ≤ rise) (high : rise ≤ 1) :
      base ≤ base + (peak - base) * libm.powf rise (3 / 2) ∧
        base + (peak - base) * libm.powf rise (3 / 2) ≤ peak := by
    obtain ⟨positive, most⟩ := tame.powf rise low high
    have wide : 0 ≤ peak - base := sub_nonneg.mpr above
    have lower := mul_nonneg wide positive
    have upper := mul_le_of_le_one_right wide most
    constructor <;> linarith
  -- a frame of the phase is on the quarter circle
  have angle {count step : Nat} (inside : step < count) :
      0 ≤ (step : F64) / count * libm.pi * (1 / 2) ∧
        (step : F64) / count * libm.pi * (1 / 2) ≤ libm.pi * (1 / 2) := by
    have some : (0 : F64) < count := by exact_mod_cast Nat.zero_lt_of_lt inside
    have part : (step : F64) / count ≤ 1 := by
      rw [div_le_one some]
      exact_mod_cast inside.le
    have positive : 0 ≤ (step : F64) / count := by positivity
    have most := mul_le_of_le_one_left tame.pi part
    have least := mul_nonneg positive tame.pi
    constructor <;> linarith
  unfold easedCurve at member
  cases phase with
  | hold =>
      rw [List.eq_of_mem_replicate member]
      exact ⟨above, le_rfl⟩
  | rest =>
      rw [List.eq_of_mem_replicate member]
      exact ⟨le_rfl, above⟩
  | inhale =>
      obtain ⟨step, inside, rfl⟩ := List.mem_map.mp member
      obtain ⟨low, high⟩ := angle (List.mem_range.mp inside)
      obtain ⟨positive, most⟩ := tame.sin _ low high
      exact eased positive most
  | exhale =>
      obtain ⟨step, inside, rfl⟩ := List.mem_map.mp member
      obtain ⟨low, high⟩ := angle (List.mem_range.mp inside)
      obtain ⟨positive, most⟩ := tame.quarter _ low high
      exact eased positive most

theorem breathCurve_between {peak inhaleS holdS exhaleS restS level : F64}
    (above : BASE ≤ peak)
    (member : level ∈ breathCurve libm peak inhaleS holdS exhaleS restS) :
    BASE ≤ level ∧ level ≤ peak := by
  unfold breathCurve at member
  simp only [List.mem_append] at member
  obtain ((inhale | hold) | exhale) | rest := member
  · exact easedCurve_between tame above inhale
  · exact easedCurve_between tame above hold
  · exact easedCurve_between tame above exhale
  · exact easedCurve_between tame above rest

theorem homeHue_between (t : F64) :
    120 ≤ homeHue libm t ∧ homeHue libm t ≤ 165 := by
  have swing := tame.cos (2 * libm.pi * t / 60)
  unfold homeHue
  constructor <;> linarith [swing.1, swing.2]

theorem valid_cometFrame (head : F64) {amp : F64} (faded : 0 ≤ amp ∧ amp ≤ 1) :
    Valid (cometFrame libm head amp) := by
  unfold cometFrame
  apply valid_map
  intro led
  dsimp only
  split_ifs
  · have behind : 0 ≤ remEuclid (head - led) 24 :=
      remEuclid_nonneg _ (by norm_num)
    obtain ⟨positive, most⟩ :=
      tame.exp (-remEuclid (head - led) 24 * (9 / 10)) (by linarith)
    have lower := mul_nonneg positive faded.1
    have upper := mul_le_one₀ most faded.1 faded.2
    apply bounded_hsv (by norm_num) (by norm_num)
    rw [mul_assoc]
    constructor
    · positivity
    · rw [div_le_one (by norm_num)]
      linarith
  · exact bounded_dark

theorem valid_scanFrames {lapS fadeS : F64} {frame : List Colour}
    (member : frame ∈ scanFrames libm lapS fadeS) : Valid frame := by
  unfold scanFrames at member
  obtain lap | fade := List.mem_append.mp member
  · obtain ⟨step, -, rfl⟩ := List.mem_map.mp lap
    exact valid_cometFrame tame _ (by norm_num)
  · obtain ⟨step, inside, rfl⟩ := List.mem_map.mp fade
    have early : (step : F64) ≤ frameCount fadeS := by
      exact_mod_cast (List.mem_range.mp inside).le
    have some : (0 : F64) < frameCount fadeS := by
      exact_mod_cast frameCount_pos fadeS
    have part : (step : F64) / frameCount fadeS ≤ 1 := (div_le_one some).mpr early
    have positive : 0 ≤ (step : F64) / frameCount fadeS := by positivity
    exact valid_cometFrame tame _ ⟨by linarith, by linarith⟩

end Library

theorem breathCurve_ne_nil (libm : Libm) (peak inhaleS holdS exhaleS restS : F64) :
    breathCurve libm peak inhaleS holdS exhaleS restS ≠ [] := by
  have rests := frameCount_pos restS
  unfold breathCurve
  apply List.append_ne_nil_of_right_ne_nil
  rw [easedCurve]
  exact List.ne_nil_of_length_pos (by simpa using rests)

theorem scanFrames_ne_nil (libm : Libm) (lapS fadeS : F64) :
    scanFrames libm lapS fadeS ≠ [] := by
  have fades := frameCount_pos fadeS
  unfold scanFrames
  apply List.append_ne_nil_of_right_ne_nil
  exact List.ne_nil_of_length_pos (by simpa using fades)

theorem sampleIndex_lt {length : Nat} (some : 0 < length) (t totalS : F64) :
    sampleIndex length t totalS < length := by
  unfold sampleIndex
  omega

theorem getD_mem {Item : Type} {seq : List Item} {place : Nat}
    (inside : place < seq.length) (default : Item) :
    seq.getD place default ∈ seq := by
  rw [List.getD_eq_getElem?_getD, List.getElem?_eq_getElem inside]
  exact List.getElem_mem inside

theorem sampleScalar_mem {seq : List F64} (some : seq ≠ []) (t totalS : F64) :
    sampleScalar seq t totalS ∈ seq :=
  getD_mem (sampleIndex_lt (List.length_pos_iff.mpr some) t totalS) _

theorem sampleFrames_mem {seq : List (List Colour)} (some : seq ≠ [])
    (t totalS : F64) : sampleFrames seq t totalS ∈ seq :=
  getD_mem (sampleIndex_lt (List.length_pos_iff.mpr some) t totalS) _

theorem valid_alarm (t : F64) : Valid (alarm t) := by
  unfold alarm
  dsimp only
  split_ifs <;> exact valid_solid (by norm_num) (by norm_num) (by norm_num)

theorem valid_hurts (t : F64) : Valid (hurts t) := by
  unfold hurts
  dsimp only
  generalize min _ (HURTS.length - 1) = i
  have each : ∀ value ∈ HURTS, 0 ≤ value ∧ value ≤ 1 := by
    simp only [HURTS, List.mem_cons, List.not_mem_nil, or_false]
    rintro value (rfl | rfl | rfl | rfl | rfl | rfl | rfl) <;> norm_num
  apply valid_solid le_rfl (by norm_num)
  rw [List.getD_eq_getElem?_getD]
  cases there : HURTS[i]? with
  | none => norm_num
  | some value => exact each value (List.mem_of_getElem? there)

theorem valid_mute (t : F64) : Valid (mute t) := by
  unfold mute
  split_ifs <;> exact valid_solid le_rfl (by norm_num) (by norm_num)

theorem bounded_stutter (coin : Bool) : Bounded (stutter coin) := by
  cases coin <;> exact bounded_mk (by norm_num) (by norm_num) (by norm_num)

namespace Renderer

/-- The sequences of a renderer: breaths within their peaks, and whole frames. -/
structure Stocked (renderer : Renderer) : Prop where
  home : renderer.homeSeq ≠ [] ∧
    ∀ level ∈ renderer.homeSeq, BASE ≤ level ∧ level ≤ HOME_PEAK
  busy : renderer.busySeq ≠ [] ∧
    ∀ level ∈ renderer.busySeq, BASE ≤ level ∧ level ≤ BUSY_PEAK
  slow : renderer.scanSlow ≠ [] ∧ ∀ frame ∈ renderer.scanSlow, Valid frame
  fast : renderer.scanFast ≠ [] ∧ ∀ frame ∈ renderer.scanFast, Valid frame

theorem stocked_new {libm : Libm} (tame : libm.Tame) :
    (Renderer.new libm).Stocked where
  home := ⟨breathCurve_ne_nil libm _ _ _ _ _, fun level member =>
    breathCurve_between tame (by norm_num [BASE, HOME_PEAK]) member⟩
  busy := ⟨breathCurve_ne_nil libm _ _ _ _ _, fun level member =>
    breathCurve_between tame (by norm_num [BASE, BUSY_PEAK]) member⟩
  slow := ⟨scanFrames_ne_nil libm _ _, fun _ => valid_scanFrames tame⟩
  fast := ⟨scanFrames_ne_nil libm _ _, fun _ => valid_scanFrames tame⟩

variable {libm : Libm} {coins : Nat → Bool} {renderer : Renderer} {kind : Tell}
  {input : RingInput} {t : F64}

theorem Stocked.busyLevel (stocked : renderer.Stocked) (t totalS : F64) :
    0 ≤ sampleScalar renderer.busySeq t totalS / 255 ∧
      sampleScalar renderer.busySeq t totalS / 255 ≤ 1 := by
  have level := stocked.busy.2 _ (sampleScalar_mem stocked.busy.1 t totalS)
  norm_num [BASE, BUSY_PEAK] at level
  constructor <;> linarith [level.1, level.2]

theorem Stocked.homeLevel (stocked : renderer.Stocked) (t totalS : F64) :
    0 < sampleScalar renderer.homeSeq t totalS / 255 ∧
      sampleScalar renderer.homeSeq t totalS / 255 ≤ 1 := by
  have level := stocked.home.2 _ (sampleScalar_mem stocked.home.1 t totalS)
  norm_num [BASE, HOME_PEAK] at level
  constructor <;> linarith [level.1, level.2]

theorem valid_home (tame : libm.Tame) (stocked : renderer.Stocked) :
    Valid (renderer.home libm t input).1 := by
  have same : (renderer.niggle t input).homeSeq = renderer.homeSeq := by
    unfold niggle
    split_ifs <;> rfl
  unfold home
  dsimp only
  split_ifs
  · exact valid_solid (by norm_num) (by norm_num) (by norm_num)
  · exact valid_solid (by norm_num) (by norm_num) (by norm_num)
  · unfold breath
    rw [same]
    have hue := homeHue_between tame t
    have level := stocked.homeLevel t HOME_S
    exact valid_solid (by linarith [hue.1]) (by norm_num) ⟨level.1.le, level.2⟩

theorem valid_scan {frame : List Colour} (stocked : renderer.Stocked)
    (drawn : (renderer.scan t input).1 = some frame) : Valid frame := by
  unfold scan at drawn
  cases held : renderer.oneshot with
  | none =>
      rw [held] at drawn
      cases drawn
  | some os =>
      rw [held] at drawn
      dsimp only at drawn
      split_ifs at drawn with spent quick
      · cases drawn
        exact stocked.fast.2 _ (sampleFrames_mem stocked.fast.1 _ _)
      · cases drawn
        exact stocked.slow.2 _ (sampleFrames_mem stocked.slow.1 _ _)

theorem valid_glitch {frame : List Colour}
    (drawn : (renderer.glitch coins t).1 = some frame) : Valid frame := by
  unfold glitch at drawn
  cases held : renderer.oneshot with
  | none =>
      rw [held] at drawn
      cases drawn
  | some os =>
      rw [held] at drawn
      dsimp only at drawn
      split_ifs at drawn
      · cases drawn
        exact valid_dark
      · cases drawn
        exact valid_map fun led => bounded_stutter _

/-- The sequences, the tell and the dither are those from before. -/
structure Kept (before after : Renderer) : Prop where
  home : after.homeSeq = before.homeSeq
  busy : after.busySeq = before.busySeq
  slow : after.scanSlow = before.scanSlow
  fast : after.scanFast = before.scanFast
  tell : after.tell = before.tell
  dither : after.dither = before.dither

theorem Kept.refl (renderer : Renderer) : Kept renderer renderer :=
  ⟨rfl, rfl, rfl, rfl, rfl, rfl⟩

theorem Kept.trans {before between after : Renderer}
    (first : Kept before between) (second : Kept between after) :
    Kept before after where
  home := second.home.trans first.home
  busy := second.busy.trans first.busy
  slow := second.slow.trans first.slow
  fast := second.fast.trans first.fast
  tell := second.tell.trans first.tell
  dither := second.dither.trans first.dither

theorem Kept.stocked {before after : Renderer} (kept : Kept before after)
    (stocked : before.Stocked) : after.Stocked where
  home := kept.home ▸ stocked.home
  busy := kept.busy ▸ stocked.busy
  slow := kept.slow ▸ stocked.slow
  fast := kept.fast ▸ stocked.fast

theorem kept_noteOneshot (renderer : Renderer) (stateWord : String)
    (ts t : F64) : Kept renderer (renderer.noteOneshot stateWord ts t) :=
  ⟨rfl, rfl, rfl, rfl, rfl, rfl⟩

theorem kept_gate : Kept renderer (renderer.gate kind t) := by
  unfold gate
  split_ifs <;> exact ⟨rfl, rfl, rfl, rfl, rfl, rfl⟩

theorem kept_niggle : Kept renderer (renderer.niggle t input) := by
  unfold niggle
  split_ifs <;> exact ⟨rfl, rfl, rfl, rfl, rfl, rfl⟩

theorem kept_home : Kept renderer (renderer.home libm t input).2 := by
  unfold home
  dsimp only
  split_ifs <;> exact kept_niggle

theorem kept_scan : Kept renderer (renderer.scan t input).2 := by
  unfold scan
  split
  · exact .refl renderer
  · dsimp only
    split_ifs <;> exact ⟨rfl, rfl, rfl, rfl, rfl, rfl⟩

theorem kept_glitch : Kept renderer (renderer.glitch coins t).2 := by
  unfold glitch
  split
  · exact .refl renderer
  · dsimp only
    split_ifs <;> exact ⟨rfl, rfl, rfl, rfl, rfl, rfl⟩

/-- Whatever tell speaks, its picture is valid. -/
theorem draw_valid (tame : libm.Tame) (stocked : renderer.Stocked) :
    Valid (renderer.draw libm coins kind t input).1 ∧
      Kept renderer (renderer.draw libm coins kind t input).2 := by
  cases kind with
  | alarm => exact ⟨valid_alarm t, .refl renderer⟩
  | hurts => exact ⟨valid_hurts t, .refl renderer⟩
  | mute => exact ⟨valid_mute t, .refl renderer⟩
  | busy =>
      have level := stocked.busyLevel t BUSY_S
      exact ⟨valid_solid (by norm_num) (by norm_num) level, .refl renderer⟩
  | home => exact ⟨valid_home tame stocked, kept_home⟩
  | scan =>
      have kept := @kept_scan renderer input t
      have drawn (frame : List Colour)
          (some : (renderer.scan t input).1 = some frame) :=
        valid_scan stocked some
      unfold draw
      dsimp only
      generalize renderer.scan t input = found at kept drawn
      obtain ⟨_ | frame, later⟩ := found
      · exact ⟨valid_home tame (kept.stocked stocked), kept.trans kept_home⟩
      · exact ⟨drawn frame rfl, kept⟩
  | glitch =>
      have kept := @kept_glitch coins renderer t
      have drawn (frame : List Colour)
          (some : (renderer.glitch coins t).1 = some frame) := valid_glitch some
      unfold draw
      dsimp only
      generalize renderer.glitch coins t = found at kept drawn
      obtain ⟨_ | frame, later⟩ := found
      · exact ⟨valid_home tame (kept.stocked stocked), kept.trans kept_home⟩
      · exact ⟨drawn frame rfl, kept⟩

end Renderer

end Ring
