import Loa.RingRenderer

/-!
# One-shot tells over a run

Notes and renders come in any order on a clock that never goes back.  A new
record is held until a later one supersedes it or until a render that selects it
finds its sequence over, where the sequence starts again at every render that
gates it.
-/

namespace Ring

open RustFloat (Libm)
open RingDaemon (Tell RingInput OneShot pickTell)

namespace Renderer

/-- The length of the sequence of a one-shot. -/
def sequenceS (kind : Tell) (ripperdoc : Bool) : F64 :=
  if kind = .glitch then GLITCH_S
  else (scanTimings ripperdoc).1 + (scanTimings ripperdoc).2

theorem pickTell_selects_or_gates (input : RingInput) (pending : Option Tell) :
    pickTell input pending = pending.getD .home ∨
      (pickTell input pending ≠ .scan ∧ pickTell input pending ≠ .glitch) := by
  unfold pickTell
  split_ifs <;> simp

variable {libm : Libm} {coins : Nat → Bool} {renderer : Renderer} {kind : Tell}
  {input : RingInput} {t : F64}

@[simp]
theorem niggle_toRenderer :
    (renderer.niggle t input).toRenderer = renderer.toRenderer := by
  unfold niggle
  split_ifs <;> rfl

@[simp]
theorem home_toRenderer :
    (renderer.home libm t input).2.toRenderer = renderer.toRenderer := by
  unfold home
  dsimp only
  split_ifs <;> exact niggle_toRenderer

@[simp]
theorem speak_toRenderer (tell : Tell) :
    (renderer.speak tell).toRenderer = renderer.toRenderer := by
  unfold speak
  split_ifs <;> rfl

theorem gate_of_played (played : kind = .scan ∨ kind = .glitch) :
    renderer.gate kind t = renderer := by
  unfold gate
  rw [if_neg]
  rintro ⟨notScan, notGlitch⟩
  exact played.elim notScan notGlitch

theorem gate_of_gating (notScan : kind ≠ .scan) (notGlitch : kind ≠ .glitch) :
    renderer.gate kind t =
      { renderer with
        oneshot := renderer.oneshot.map fun os => { os with start := t } } := by
  unfold gate
  rw [if_pos ⟨notScan, notGlitch⟩]

/-- Only a scan and a glitch touch the record. -/
theorem draw_of_gating (notScan : kind ≠ .scan) (notGlitch : kind ≠ .glitch) :
    (renderer.draw libm coins kind t input).2.toRenderer =
      renderer.toRenderer := by
  cases kind with
  | scan => exact (notScan rfl).elim
  | glitch => exact (notGlitch rfl).elim
  | home => exact home_toRenderer
  | alarm | hurts | mute | busy => rfl

section Played

variable {os : OneShot} (held : renderer.oneshot = some os)

include held

theorem scan_of_over
    (passed : sequenceS .scan input.ripperdoc < t - os.start) :
    renderer.scan t input = (none, { renderer with oneshot := none }) := by
  have length : sequenceS .scan input.ripperdoc =
      (scanTimings input.ripperdoc).1 + (scanTimings input.ripperdoc).2 := rfl
  rw [length] at passed
  simp only [scan, held]
  rw [if_pos passed]

theorem scan_of_playing
    (playing : ¬ sequenceS .scan input.ripperdoc < t - os.start) :
    ∃ frame, renderer.scan t input = (some frame, renderer) := by
  have length : sequenceS .scan input.ripperdoc =
      (scanTimings input.ripperdoc).1 + (scanTimings input.ripperdoc).2 := rfl
  rw [length] at playing
  simp only [scan, held]
  rw [if_neg playing]
  exact ⟨_, rfl⟩

theorem glitch_of_over (passed : GLITCH_S < t - os.start) :
    renderer.glitch coins t = (none, { renderer with oneshot := none }) := by
  simp only [glitch, held]
  rw [if_pos passed]

theorem glitch_of_playing (playing : ¬ GLITCH_S < t - os.start) :
    ∃ frame tossed, renderer.glitch coins t =
      (some frame, { renderer with tossed }) := by
  simp only [glitch, held]
  rw [if_neg playing]
  split_ifs
  · exact ⟨_, _, rfl⟩
  · exact ⟨_, _, rfl⟩

/-- A scan or a glitch that plays is kept until its sequence is over. -/
theorem draw_of_played (played : kind = .scan ∨ kind = .glitch) :
    (renderer.draw libm coins kind t input).2.toRenderer =
      { renderer.toRenderer with
        oneshot :=
          if sequenceS kind input.ripperdoc < t - os.start then none
          else some os } := by
  obtain rfl | rfl := played
  · by_cases passed : sequenceS .scan input.ripperdoc < t - os.start
    · rw [if_pos passed, draw, scan_of_over held passed]
      exact home_toRenderer
    · obtain ⟨frame, same⟩ := scan_of_playing held passed
      rw [if_neg passed, draw, same, ← held]
  · by_cases passed : sequenceS .glitch input.ripperdoc < t - os.start
    · rw [if_pos passed, draw, glitch_of_over held passed]
      exact home_toRenderer
    · obtain ⟨frame, tossed, same⟩ := glitch_of_playing held passed
      rw [if_neg passed, draw, same, ← held]

end Played

theorem render_toRenderer :
    (renderer.render libm coins input t).2.toRenderer =
      ((renderer.gate (renderer.tellNow input) t).draw libm coins
        (renderer.tellNow input) t input).2.toRenderer := by
  unfold render
  exact speak_toRenderer _

theorem render_of_none (empty : renderer.oneshot = none) :
    (renderer.render libm coins input t).2.toRenderer = renderer.toRenderer := by
  have pending : renderer.pendingOneshot = none := by
    simp [RingDaemon.Renderer.pendingOneshot, empty]
  have gating : renderer.tellNow input ≠ .scan ∧
      renderer.tellNow input ≠ .glitch := by
    unfold RingDaemon.Renderer.tellNow
    rw [pending]
    obtain home | gating := pickTell_selects_or_gates input none
    · simp [home]
    · exact gating
  rw [render_toRenderer, draw_of_gating gating.1 gating.2,
    gate_of_gating gating.1 gating.2, empty]
  exact congrArg (RingDaemon.Renderer.mk · renderer.seen) empty.symm

/-- A render that selects the held record spends it where its sequence is over,
and one that gates it starts it again. -/
theorem render_of_some {os : OneShot} (held : renderer.oneshot = some os)
    (oneShot : os.kind = .scan ∨ os.kind = .glitch) :
    (renderer.render libm coins input t).2.toRenderer =
      { renderer.toRenderer with
        oneshot :=
          if pickTell input (some os.kind) = os.kind then
            if sequenceS os.kind input.ripperdoc < t - os.start then none
            else some os
          else some { os with start := t } } := by
  have now : renderer.tellNow input = pickTell input (some os.kind) := by
    simp [RingDaemon.Renderer.tellNow, RingDaemon.Renderer.pendingOneshot, held]
  rw [render_toRenderer, now]
  by_cases selected : pickTell input (some os.kind) = os.kind
  · rw [if_pos selected, selected, gate_of_played oneShot,
      draw_of_played held oneShot]
  · have gating := (pickTell_selects_or_gates input (some os.kind)).resolve_left
      selected
    rw [if_neg selected, draw_of_gating gating.1 gating.2,
      gate_of_gating gating.1 gating.2, held]
    rfl

/-- The picture of a tell that is no one-shot. -/
def voice (libm : Libm) (renderer : Renderer) (tell : Tell) (t : F64)
    (input : RingInput) : List Colour :=
  match tell with
  | .alarm => alarm t
  | .hurts => hurts t
  | .mute => mute t
  | .busy => renderer.busy t
  | .scan | .glitch | .home => (renderer.home libm t input).1

/-- A frame shows a one-shot only where the ladder selects it; else its picture
is the plain voice of its tell. -/
structure Shows (libm : Libm) (coins : Nat → Bool) (renderer : Renderer)
    (input : RingInput) (t : F64) : Prop where
  selected : ∀ kind, kind = .scan ∨ kind = .glitch →
    (renderer.render libm coins input t).1.tell = kind →
      pickTell input renderer.pendingOneshot = kind
  plain : ∀ tell, tell ≠ .scan → tell ≠ .glitch →
    (renderer.render libm coins input t).1.tell = tell → ∃ dither : Dither,
      (renderer.render libm coins input t).1.rgb =
        (dither.render (voice libm renderer tell t input)).1

/-- The pictures do not depend on the record. -/
theorem voice_with (memory : RingDaemon.Renderer) (tell : Tell) :
    voice libm { renderer with toRenderer := memory } tell t input =
      voice libm renderer tell t input := by
  have home : ({ renderer with toRenderer := memory }.home libm t input).1 =
      (renderer.home libm t input).1 := by
    unfold Renderer.home niggle
    dsimp only
    split_ifs <;> rfl
  cases tell with
  | alarm | hurts | mute | busy => rfl
  | scan | glitch | home => exact home

theorem draw_picture_of_gating (notScan : kind ≠ .scan)
    (notGlitch : kind ≠ .glitch) :
    ((renderer.gate kind t).draw libm coins kind t input).1 =
      voice libm renderer kind t input := by
  obtain ⟨memory, same⟩ : ∃ memory : RingDaemon.Renderer,
      renderer.gate kind t = { renderer with toRenderer := memory } :=
    ⟨_, gate_of_gating notScan notGlitch⟩
  rw [same, ← voice_with memory]
  cases kind with
  | scan => exact (notScan rfl).elim
  | glitch => exact (notGlitch rfl).elim
  | alarm | hurts | mute | busy | home => rfl

/-- A one-shot that plays speaks, and a spent one leaves the picture to home. -/
theorem draw_spoke (libm : Libm) (coins : Nat → Bool) (input : RingInput)
    (t : F64) {os : OneShot} (held : renderer.oneshot = some os)
    (played : kind = .scan ∨ kind = .glitch) :
    (renderer.draw libm coins kind t input).2.spoke kind = kind ∨
      ((renderer.draw libm coins kind t input).2.spoke kind = .home ∧
        (renderer.draw libm coins kind t input).1 =
          voice libm renderer .home t input) := by
  have memory : (renderer.draw libm coins kind t input).2.toRenderer = _ :=
    draw_of_played held played
  have oneshot := congrArg RingDaemon.Renderer.oneshot memory
  by_cases passed : sequenceS kind input.ripperdoc < t - os.start
  · right
    rw [if_pos passed] at oneshot
    refine ⟨if_pos ⟨played, oneshot⟩, ?_⟩
    obtain rfl | rfl := played
    · rw [draw, scan_of_over held passed]
      exact voice_with ⟨none, renderer.seen⟩ .home
    · rw [draw, glitch_of_over held passed]
      exact voice_with ⟨none, renderer.seen⟩ .home
  · left
    rw [if_neg passed] at oneshot
    refine if_neg ?_
    rintro ⟨-, empty⟩
    rw [oneshot] at empty
    cases empty

theorem render_frame (libm : Libm) (coins : Nat → Bool) (renderer : Renderer)
    (input : RingInput) (t : F64) :
    ∃ dither : Dither, (renderer.render libm coins input t).1 =
      { tell :=
          ((renderer.gate (renderer.tellNow input) t).draw libm coins
            (renderer.tellNow input) t input).2.spoke (renderer.tellNow input)
        rgb := (dither.render ((renderer.gate (renderer.tellNow input) t).draw
          libm coins (renderer.tellNow input) t input).1).1 } :=
  ⟨_, rfl⟩

theorem spoke_of_gating (notScan : kind ≠ .scan) (notGlitch : kind ≠ .glitch) :
    renderer.spoke kind = kind := by
  refine if_neg ?_
  rintro ⟨played, -⟩
  exact played.elim notScan notGlitch

theorem spoke_eq (renderer : Renderer) (kind : Tell) :
    renderer.spoke kind = kind ∨ renderer.spoke kind = .home := by
  unfold spoke
  split_ifs
  · exact .inr rfl
  · exact .inl rfl

/-- Only a held record makes the ladder select a one-shot. -/
theorem held_of_played
    (played : renderer.tellNow input = .scan ∨
      renderer.tellNow input = .glitch) :
    ∃ os, renderer.oneshot = some os := by
  cases held : renderer.oneshot with
  | some os => exact ⟨os, rfl⟩
  | none =>
      exfalso
      have now : renderer.tellNow input = pickTell input none := by
        simp [RingDaemon.Renderer.tellNow, RingDaemon.Renderer.pendingOneshot,
          held]
      rw [now] at played
      obtain home | gating := pickTell_selects_or_gates input none
      · rw [home] at played
        simp at played
      · exact played.elim gating.1 gating.2

theorem shows (libm : Libm) (coins : Nat → Bool) (renderer : Renderer)
    (input : RingInput) (t : F64) : Shows libm coins renderer input t := by
  obtain ⟨dither, frame⟩ := render_frame libm coins renderer input t
  constructor
  · intro kind oneShot shown
    rw [frame] at shown
    obtain same | home := spoke_eq ((renderer.gate (renderer.tellNow input)
      t).draw libm coins (renderer.tellNow input) t input).2
      (renderer.tellNow input)
    · exact same.symm.trans shown
    · rw [home] at shown
      subst shown
      simp at oneShot
  · intro tell notScan notGlitch shown
    refine ⟨dither, ?_⟩
    rw [frame] at shown ⊢
    dsimp only at shown ⊢
    by_cases played : renderer.tellNow input = .scan ∨
        renderer.tellNow input = .glitch
    · obtain ⟨os, held⟩ := held_of_played played
      rw [gate_of_played played] at shown ⊢
      obtain same | ⟨home, picture⟩ := draw_spoke libm coins input t held
        played
      · rw [same] at shown
        rw [shown] at played
        exact (played.elim notScan notGlitch).elim
      · rw [home] at shown
        rw [picture, shown]
    · push Not at played
      rw [spoke_of_gating played.1 played.2] at shown
      rw [draw_picture_of_gating played.1 played.2, shown]

end Renderer

end Ring
