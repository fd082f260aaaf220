import Loa.NewestDrain
import Loa.NiggleTicks
import Loa.TransitionRun

/-!
# The two threads of the ring

One thread hears the feed, renders, and hands each frame to the strip and to the
cortex.  The other owns the strip: it clears it, then drains its channel to the
newest frame and writes that.  Messages, renders, drains and writes come in any
order.
-/

namespace Ring

open Wire (Parts Prost)
open RustFloat (Libm)
open RingDaemon (Held)
open NewestDrain (Hand Act Consumer)
open OneShots (Event)
open TransitionRun (Run)

/-- The dark frame. -/
def DARK : Bytes :=
  List.replicate BYTES 0

/-- What goes out on the bus for a frame, where the write succeeds; a frame of
another size is refused. -/
def shown (rgb : Bytes) (written : Bool) : Option Bytes :=
  if rgb.length ≠ BYTES then none
  else if written then some (encodeFrame rgb) else none

/-- The state of both threads.  The channel of the strip remembers all that was
rendered; the bus has the buffers that were written whole. -/
structure Process where
  held : Held := {}
  renderer : Renderer
  strip : Consumer Bytes Bool := {}
  off : Option Bool := none
  bus : List Bytes := []
  pushed : List Bytes := []

/-- One step of one of the threads, with the clock of the renderer, whether the
cortex took the frame, and whether a write succeeded. -/
inductive Turn
  | hear (parts : Parts) (t : F64)
  | render (t : F64) (accepted : Bool)
  | off (written : Bool)
  | recv
  | dry
  | write (written : Bool)

namespace Process

/-- The frames that were rendered, the oldest first. -/
def rendered (process : Process) : List Bytes :=
  process.strip.channel.sent

section Step

variable (prost : Prost) (libm : Libm) (coins : Nat → Bool)

def boot : Process where
  renderer := Renderer.new libm

def hear (process : Process) (parts : Parts) (t : F64) : Process :=
  let daemon := RingDaemon.receive prost t
    ⟨process.held, process.renderer.toRenderer⟩ parts
  { process with
    held := daemon.held
    renderer := { process.renderer with toRenderer := daemon.renderer } }

def render (process : Process) (t : F64) (accepted : Bool) : Process :=
  let (frame, renderer) :=
    process.renderer.render libm coins process.held.input t
  { process with
    renderer
    strip := process.strip.send frame.rgb
    pushed := process.pushed ++ if accepted then [frame.rgb] else [] }

def clear (process : Process) (written : Bool) : Option Process :=
  match process.off with
  | some _ => none
  | none =>
      some
        { process with
          off := some (shown DARK written).isSome
          bus := process.bus ++ (shown DARK written).toList }

/-- A step of the loop of the strip, which begins behind the clear. -/
def looped (process : Process)
    (step : Consumer Bytes Bool → Option (Consumer Bytes Bool)) :
    Option Process :=
  if process.off = none then none
  else (step process.strip).map fun strip => { process with strip }

def showNewest (process : Process) (written : Bool) : Option Process :=
  match process.strip.hand with
  | .ready rgb =>
      (process.strip.act (shown rgb written).isSome).map fun strip =>
        { process with strip, bus := process.bus ++ (shown rgb written).toList }
  | .empty | .draining _ => none

def step (process : Process) : Turn → Option Process
  | .hear parts t => some (process.hear prost parts t)
  | .render t accepted => some (process.render libm coins t accepted)
  | .off written => process.clear written
  | .recv => process.looped Consumer.recv
  | .dry => process.looped Consumer.dry
  | .write written => process.showNewest written

end Step

/-- The numbers of the frames that were written whole. -/
def written (process : Process) : List Nat :=
  (process.strip.acts.filter Act.outcome).map Act.number

/-- The strip was given frames of the renders in their order, none twice, and
nothing but those and the dark frame in front; the cortex was given frames of
the same renders. -/
structure Sound (libm : Libm) (coins : Nat → Bool) (process : Process) :
    Prop where
  strip : process.strip.Sound
  whole : ∀ rgb ∈ process.rendered, rgb.length = BYTES
  bus : process.bus.map decodeFrame =
    (if process.off = some true then [some DARK] else []) ++
      process.written.map fun number => process.rendered[number]?
  pushed : process.pushed.Sublist process.rendered
  started : process.off = none → process.strip.acts = [] ∧
    process.strip.hand = .empty ∧ process.bus = []
  history : ∃ history : List Event,
    process.renderer = OneShots.run libm coins history ∧
      process.rendered = (shots libm coins (Renderer.new libm) history).map
        fun shot => shot.frame.rgb

variable {libm : Libm} {coins : Nat → Bool} {prost : Prost}
  {process after : Process}

theorem length_render (dither : Dither) (frame : List Colour) :
    (dither.render frame).1.length = BYTES := by
  simp [Dither.render]

theorem shown_eq {rgb : Bytes} (whole : rgb.length = BYTES) (written : Bool) :
    shown rgb written = if written then some (encodeFrame rgb) else none := by
  unfold shown
  rw [if_neg (not_not.mpr whole)]

/-- A whole frame is read back from what goes out. -/
theorem decodeFrame_shown {rgb : Bytes} (whole : rgb.length = BYTES)
    (written : Bool) :
    (shown rgb written).toList.map decodeFrame =
      if written then [some rgb] else [] := by
  rw [shown_eq whole]
  cases written with
  | false => rfl
  | true =>
      have leds : rgb.length = 3 * LEDS := whole.trans (by decide)
      simp [decodeFrame_encodeFrame leds]

theorem sound_boot : (boot libm).Sound libm coins where
  strip := Consumer.sound_start
  whole := fun rgb member => by
    have nothing : rgb ∈ ([] : List Bytes) := member
    cases nothing
  bus := rfl
  pushed := List.Sublist.refl _
  started := fun _ => ⟨rfl, rfl, rfl⟩
  history := ⟨[], rfl, rfl⟩

/-- A message leaves the renderer, or is a note. -/
theorem hear_renderer (prost : Prost) (process : Process) (parts : Parts)
    (t : F64) :
    (process.hear prost parts t).renderer = process.renderer ∨
      ∃ stateWord ts, (process.hear prost parts t).renderer =
        process.renderer.noteOneshot stateWord ts t := by
  unfold hear RingDaemon.receive
  dsimp only
  split_ifs
  · split
    · rename_i msg decoded
      unfold RingDaemon.hold
      split
      · split_ifs <;> exact .inl rfl
      · exact .inl rfl
      · split_ifs
        · split
          · exact .inr ⟨_, _, rfl⟩
          · exact .inl rfl
        · exact .inl rfl
      · exact .inl rfl
    · exact .inl rfl
  · exact .inl rfl

theorem Sound.hear (sound : process.Sound libm coins) (parts : Parts) (t : F64) :
    (process.hear prost parts t).Sound libm coins where
  strip := sound.strip
  whole := sound.whole
  bus := sound.bus
  pushed := sound.pushed
  started := sound.started
  history := by
    obtain ⟨history, renderer, rendered⟩ := sound.history
    obtain same | ⟨stateWord, ts, noted⟩ :=
      hear_renderer prost process parts t
    · exact ⟨history, same.trans renderer, rendered⟩
    · refine ⟨history ++ [.note stateWord ts t], ?_, ?_⟩
      · rw [noted, renderer, OneShots.run_snoc]
        rfl
      · rw [shots_snoc, List.map_append]
        exact rendered.trans (List.append_nil _).symm

theorem Sound.render (sound : process.Sound libm coins) (t : F64)
    (accepted : Bool) :
    (process.render libm coins t accepted).Sound libm coins where
  strip := sound.strip.send _
  whole := by
    intro rgb member
    obtain old | new := List.mem_append.mp member
    · exact sound.whole rgb old
    · rw [List.mem_singleton.mp new]
      exact length_render _ _
  bus := by
    refine sound.bus.trans (congrArg (_ ++ ·) (List.map_congr_left ?_))
    intro number member
    obtain ⟨act, kept, rfl⟩ := List.mem_map.mp member
    have there := sound.strip.item act (List.mem_filter.mp kept).1
    exact there.trans (Consumer.sent_send _ there).symm
  pushed := sound.pushed.append (by
    cases accepted with
    | true => exact List.Sublist.refl _
    | false => exact List.nil_sublist _)
  started := sound.started
  history := by
    obtain ⟨history, renderer, rendered⟩ := sound.history
    refine ⟨history ++ [.render process.held.input t], ?_, ?_⟩
    · rw [OneShots.run_snoc, ← renderer]
      rfl
    · rw [shots_snoc, List.map_append, ← rendered]
      have same : history.foldl (OneShots.after libm coins) (Renderer.new libm) =
          process.renderer := renderer.symm
      rw [same]
      rfl

theorem Sound.clear (sound : process.Sound libm coins) {written : Bool}
    (stepped : process.clear written = some after) :
    after.Sound libm coins := by
  unfold Process.clear at stepped
  split at stepped
  · cases stepped
  · rename_i notYet
    obtain ⟨acts, hand, bus⟩ := sound.started notYet
    cases stepped
    have dark : DARK.length = BYTES := List.length_replicate
    refine ⟨sound.strip, sound.whole, ?_, sound.pushed, nofun, sound.history⟩
    simp only [Process.written, acts, List.filter_nil, List.map_nil,
      List.append_nil, bus, List.nil_append, decodeFrame_shown dark]
    rw [shown_eq dark]
    cases written <;> rfl

/-- A step of the loop that takes from the channel keeps the acts and all that
was rendered. -/
theorem Sound.looped (sound : process.Sound libm coins)
    {step : Consumer Bytes Bool → Option (Consumer Bytes Bool)}
    (keeps : ∀ strip, step process.strip = some strip → strip.Sound ∧
      strip.acts = process.strip.acts ∧
      strip.channel.sent = process.strip.channel.sent)
    (stepped : process.looped step = some after) : after.Sound libm coins := by
  unfold Process.looped at stepped
  split_ifs at stepped with notYet
  obtain ⟨strip, moved, rfl⟩ := Option.map_eq_some_iff.mp stepped
  obtain ⟨consumer, acts, sent⟩ := keeps strip moved
  refine ⟨consumer, ?_, ?_, ?_, fun early => (notYet early).elim, ?_⟩
  · unfold rendered
    rw [sent]
    exact sound.whole
  · unfold written rendered
    rw [acts, sent]
    exact sound.bus
  · unfold rendered
    rw [sent]
    exact sound.pushed
  · unfold rendered
    rw [sent]
    exact sound.history

theorem Sound.showNewest (sound : process.Sound libm coins) {written : Bool}
    (stepped : process.showNewest written = some after) :
    after.Sound libm coins := by
  unfold Process.showNewest at stepped
  split at stepped
  case h_1 rgb hand =>
    obtain ⟨strip, acted, rfl⟩ := Option.map_eq_some_iff.mp stepped
    have consumer := sound.strip.act acted
    obtain ⟨item, held, rfl⟩ := Consumer.act_eq_some acted
    have same : item = rgb := by
      rw [hand] at held
      exact (Hand.ready.inj held).symm
    have begun : process.off ≠ none := fun notYet => by
      have empty := (sound.started notYet).2.1
      rw [hand] at empty
      cases empty
    have there := consumer.item _ (List.mem_append_right _ (List.mem_singleton.mpr rfl))
    have whole : rgb.length = BYTES :=
      sound.whole rgb (List.mem_of_getElem? (same ▸ there))
    refine ⟨consumer, sound.whole, ?_, sound.pushed,
      fun early => (begun early).elim, sound.history⟩
    simp only [Process.written, List.filter_append, List.map_append, sound.bus,
      decodeFrame_shown whole]
    rw [List.append_assoc, shown_eq whole]
    refine congrArg (_ ++ ·) (congrArg (_ ++ ·) ?_)
    cases written with
    | false => rfl
    | true => exact congrArg (fun found => [found]) (same ▸ there).symm
  all_goals cases stepped

/-- Every step of either thread keeps it. -/
theorem step_sound {turn : Turn}
    (stepped : process.step prost libm coins turn = some after)
    (sound : process.Sound libm coins) : after.Sound libm coins := by
  cases turn with
  | hear parts t =>
      cases stepped
      exact sound.hear parts t
  | render t accepted =>
      cases stepped
      exact sound.render t accepted
  | off written => exact sound.clear stepped
  | recv =>
      refine sound.looped (fun strip moved => ⟨sound.strip.recv moved, ?_⟩)
        stepped
      obtain ⟨item, -, sent, -, acts, -⟩ := Consumer.recv_eq_some moved
      exact ⟨acts, sent⟩
  | dry =>
      refine sound.looped (fun strip moved => ⟨sound.strip.dry moved, ?_⟩)
        stepped
      obtain ⟨item, -, -, rfl⟩ := Consumer.dry_eq_some moved
      exact ⟨rfl, rfl⟩
  | write written => exact sound.showNewest stepped

/-- In every run of the two threads, in whatever order they step: what the strip
was given whole is the dark frame and then frames of the renders, in their order
and none twice, each readable as it was rendered; a strip that waits with nothing
queued tried the newest frame last; and the cortex was given frames of the same
renders, which are those of one history of the renderer. -/
theorem strip_shows_newest {trace : List (Process × Turn)} {last : Process}
    (run : Run (step prost libm coins) (boot libm) trace last) :
    last.bus.map decodeFrame =
        (if last.off = some true then [some DARK] else []) ++
          last.written.map (fun number => last.rendered[number]?) ∧
      last.written.Pairwise (· < ·) ∧
      (last.strip.hand = .empty → last.strip.channel.queue = [] →
        last.strip.acts.getLast?.map Act.item = last.rendered.getLast?) ∧
      last.pushed.Sublist last.rendered ∧
      ∃ history, last.rendered =
        (shots libm coins (Renderer.new libm) history).map
          fun shot => shot.frame.rgb := by
  have sound := run.kept sound_boot fun _ _ _ => step_sound
  obtain ⟨history, -, rendered⟩ := sound.history
  refine ⟨sound.bus, ?_, sound.strip.newest, sound.pushed, history, rendered⟩
  exact List.pairwise_map.mpr (sound.strip.increasing.sublist List.filter_sublist)

end Process

namespace Overtaken

open Process

/-- A library that reads no message. -/
def prost : Prost where
  encodeToVec _ := []
  decode _ := .error "buffer underflow"

/-- The second frame overtakes the first one, and the third one comes while the
second is written. -/
def turns : List Turn :=
  [.off true, .hear ⟨RustText.asBytes "state", .bytes []⟩ 0, .render 0 true, .recv,
    .render 1 false, .recv, .dry, .render 2 true, .write true, .recv, .dry,
    .write true]

abbrev ringStep : Process → Turn → Option Process :=
  step prost terms fun _ => true

theorem followed : (TransitionRun.follow ringStep (boot terms) turns).isSome := by
  decide +kernel

def passed : List (Process × Turn) × Process :=
  (TransitionRun.follow ringStep (boot terms) turns).get followed

theorem run : Run ringStep (boot terms) passed.1 passed.2 :=
  TransitionRun.run_of_follow (Option.some_get followed).symm

theorem strip_shows_newest_overtaken :
    passed.2.written = [1, 2] ∧
      passed.2.bus.map decodeFrame =
        [some DARK] ++ [1, 2].map (fun number => passed.2.rendered[number]?) ∧
      passed.2.strip.acts.getLast?.map Act.item = passed.2.rendered.getLast? ∧
      passed.2.pushed.Sublist passed.2.rendered := by
  have written : passed.2.written = [1, 2] := by decide +kernel
  have off : passed.2.off = some true := by decide +kernel
  obtain ⟨bus, -, newest, pushed, -⟩ := strip_shows_newest run
  rw [if_pos off, written] at bus
  exact ⟨written, bus, newest (by decide +kernel) (by decide +kernel), pushed⟩

end Overtaken

end Ring
