import Loa.OneShotHistory
import Loa.RingPictures

/-!
# The light of the ring over a run

Notes and renders in any order, and what the strip is given for the pictures
that are drawn.  A render never clips, a channel is never a whole code away from
its picture, and over any stretch of a run no light is added, and none is lost
but the fractions that a change of tell throws away.
-/

namespace Ring

open RustFloat (Libm)
open RingDaemon (Tell RingInput)
open OneShots (Event run)

/-- A render: its snapshot and its time, what was drawn, and what went out. -/
structure Shot where
  input : RingInput
  t : F64
  picture : List Colour
  frame : Frame

section Shots

variable (libm : Libm) (coins : Nat → Bool)

/-- The picture of a render, before it is dithered. -/
def Renderer.picture (renderer : Renderer) (input : RingInput) (t : F64) :
    List Colour :=
  let kind := renderer.tellNow input
  ((renderer.gate kind t).draw libm coins kind t input).1

def Renderer.shoot (renderer : Renderer) (input : RingInput) (t : F64) :
    Shot where
  input := input
  t := t
  picture := renderer.picture libm coins input t
  frame := (renderer.render libm coins input t).1

/-- The renders of a stretch of a history. -/
def shots (renderer : Renderer) : List Event → List Shot
  | [] => []
  | .note stateWord ts t :: rest =>
      shots (renderer.noteOneshot stateWord ts t) rest
  | .render input t :: rest =>
      renderer.shoot libm coins input t ::
        shots (renderer.render libm coins input t).2 rest

end Shots

/-- How often the tell changes. -/
def changes : List Tell → Nat
  | first :: second :: rest =>
      (if first = second then 0 else 1) + changes (second :: rest)
  | _ => 0

/-- The bytes that a channel was given. -/
def given (led : Fin LEDS) (channel : Fin 3) (film : List Shot) : F64 :=
  (film.map fun shot => (byteAt led channel shot.frame.rgb : F64)).sum

/-- The values that a channel was asked for. -/
def asked (led : Fin LEDS) (channel : Fin 3) (film : List Shot) : F64 :=
  (film.map fun shot => valueAt led channel shot.picture).sum

/-- The accumulators are fractions. -/
def Dither.Fractions (dither : Dither) : Prop :=
  ∀ led channel, 0 ≤ dither.acc led channel ∧ dither.acc led channel < 1

theorem Dither.fractions_new : Dither.new.Fractions := by
  intro led channel
  simp [Dither.new]

namespace Renderer

/-- A renderer between two renders. -/
structure Ready (renderer : Renderer) : Prop where
  stocked : renderer.Stocked
  fractions : renderer.dither.Fractions

variable {libm : Libm} {coins : Nat → Bool} {renderer : Renderer}
  {input : RingInput} {t : F64}

/-- The dither that a render goes through: a fresh one where the tell changes. -/
def ditherFor (renderer : Renderer) (tell : Tell) : Dither :=
  if renderer.tell = some tell then renderer.dither else Dither.new

theorem speak_dither (tell : Tell) :
    (renderer.speak tell).dither = renderer.ditherFor tell ∧
      (renderer.speak tell).tell = some tell := by
  unfold speak ditherFor
  by_cases same : renderer.tell = some tell
  · rw [if_neg (not_not.mpr same.symm), if_pos same]
    exact ⟨rfl, same⟩
  · rw [if_pos (Ne.symm same), if_neg same]
    exact ⟨rfl, rfl⟩

/-- What one render does: a valid picture goes through the dither of the tell
that spoke. -/
structure Rendered (renderer : Renderer) (shot : Shot) (after : Renderer) :
    Prop where
  valid : Valid shot.picture
  stocked : after.Stocked
  tell : after.tell = some shot.frame.tell
  dithered : (shot.frame.rgb, after.dither) =
    (renderer.ditherFor shot.frame.tell).render shot.picture

theorem rendered (tame : libm.Tame) (stocked : renderer.Stocked) :
    Rendered renderer (renderer.shoot libm coins input t)
      (renderer.render libm coins input t).2 := by
  have gated := @kept_gate renderer (renderer.tellNow input) t
  obtain ⟨valid, drawn⟩ :=
    @draw_valid libm coins _ (renderer.tellNow input) input t tame
      (gated.stocked stocked)
  have kept := gated.trans drawn
  have stockedDrawn := kept.stocked stocked
  unfold shoot picture render
  dsimp only at *
  generalize draw libm coins _ _ t input = found at *
  obtain ⟨picture, later⟩ := found
  dsimp only at *
  obtain ⟨dither, tell⟩ := @speak_dither later (later.spoke (renderer.tellNow input))
  have same : later.ditherFor (later.spoke (renderer.tellNow input)) =
      renderer.ditherFor (later.spoke (renderer.tellNow input)) := by
    unfold ditherFor
    rw [kept.tell, kept.dither]
  refine ⟨valid, ?_, tell, ?_⟩
  · unfold speak
    split_ifs
    all_goals exact ⟨stockedDrawn.home, stockedDrawn.busy, stockedDrawn.slow,
      stockedDrawn.fast⟩
  · dsimp only
    rw [← same, ← dither]

theorem Ready.ditherFor (ready : renderer.Ready) (tell : Tell) :
    (renderer.ditherFor tell).Fractions := by
  unfold Renderer.ditherFor
  split_ifs
  · exact ready.fractions
  · exact Dither.fractions_new

/-- What a channel is given and what it keeps is what it had and what it was
asked for, and a fraction is kept. -/
theorem Rendered.balance {shot : Shot} {after : Renderer}
    (rendered : Rendered renderer shot after) (ready : renderer.Ready)
    (led : Fin LEDS) (channel : Fin 3) :
    (byteAt led channel shot.frame.rgb : F64) + after.dither.acc led channel =
        (renderer.ditherFor shot.frame.tell).acc led channel +
          valueAt led channel shot.picture ∧
      0 ≤ after.dither.acc led channel ∧ after.dither.acc led channel < 1 := by
  have fraction := ready.ditherFor shot.frame.tell led channel
  have same := rendered.dithered
  generalize renderer.ditherFor shot.frame.tell = dither at *
  have bytes := congrArg Prod.fst same
  have kept := congrArg Prod.snd same
  dsimp only at bytes kept
  have remainder : after.dither.acc led channel =
      ErrorDiffusion.keep (dither.acc led channel)
        (valueAt led channel shot.picture) := by
    rw [kept]
    exact (diffuses rendered.valid fraction).2.1
  have byte : (byteAt led channel shot.frame.rgb : F64) =
      ErrorDiffusion.emit (dither.acc led channel)
        (valueAt led channel shot.picture) := by
    rw [bytes, ← byteAt_render_of_valid rendered.valid fraction]
    simp
  rw [remainder, byte]
  exact ⟨ErrorDiffusion.emit_add_keep _ _, ErrorDiffusion.keep_nonneg _ _,
    ErrorDiffusion.keep_lt_one _ _⟩

theorem Rendered.ready {shot : Shot} {after : Renderer}
    (rendered : Rendered renderer shot after) (ready : renderer.Ready) :
    after.Ready where
  stocked := rendered.stocked
  fractions := fun led channel => (rendered.balance ready led channel).2

theorem Ready.noteOneshot (ready : renderer.Ready) (stateWord : String)
    (ts t : F64) : (renderer.noteOneshot stateWord ts t).Ready where
  stocked := (kept_noteOneshot renderer stateWord ts t).stocked ready.stocked
  fractions := ready.fractions

theorem ready_new (tame : libm.Tame) : (Renderer.new libm).Ready where
  stocked := stocked_new tame
  fractions := Dither.fractions_new

theorem ready_run (tame : libm.Tame) (history : List Event) :
    (run libm coins history).Ready := by
  induction history using List.reverseRecOn with
  | nil => exact ready_new tame
  | append_singleton history event induction =>
      rw [OneShots.run_snoc]
      cases event with
      | note stateWord ts t => exact induction.noteOneshot stateWord ts t
      | render input t => exact (rendered tame induction.stocked).ready induction

end Renderer

section Stretch

variable {libm : Libm} {coins : Nat → Bool} {led : Fin LEDS} {channel : Fin 3}

/-- Each picture is a whole ring in range, and each byte within a code of it. -/
theorem shots_close (tame : libm.Tame) {renderer : Renderer}
    (ready : renderer.Ready) {stretch : List Event} {shot : Shot}
    (member : shot ∈ shots libm coins renderer stretch) :
    Valid shot.picture ∧ ∀ led channel,
      |(byteAt led channel shot.frame.rgb : F64) -
        valueAt led channel shot.picture| < 1 := by
  induction stretch generalizing renderer with
  | nil => cases member
  | cons event rest induction =>
      cases event with
      | note stateWord ts t =>
          exact induction (ready.noteOneshot stateWord ts t) member
      | render input t =>
          have rendered := @Renderer.rendered libm coins renderer input t tame
            ready.stocked
          obtain rfl | later := List.mem_cons.mp member
          · refine ⟨rendered.valid, fun led channel => ?_⟩
            obtain ⟨balance, low, high⟩ := rendered.balance ready led channel
            have before := ready.ditherFor
              (renderer.shoot libm coins input t).frame.tell led channel
            rw [abs_lt]
            constructor <;> linarith [before.1, before.2]
          · exact induction (rendered.ready ready) later

/-- The changes of tell, from the one that spoke before. -/
def changesFrom (before : Tell) (tells : List Tell) : Nat :=
  changes (before :: tells)

/-- The tells of a stretch. -/
def tells (film : List Shot) : List Tell :=
  film.map fun shot => shot.frame.tell

/-- From a tell on: what a channel is given is at most what it had and what it
was asked for, and the difference is at most what it keeps and one for each
change of tell. -/
theorem shots_account (tame : libm.Tame) {renderer : Renderer}
    (ready : renderer.Ready) {tell : Tell} (spoke : renderer.tell = some tell)
    (stretch : List Event) (led : Fin LEDS) (channel : Fin 3) :
    let film := shots libm coins renderer stretch
    given led channel film ≤
        renderer.dither.acc led channel + asked led channel film ∧
      renderer.dither.acc led channel + asked led channel film <
        given led channel film + 1 + changesFrom tell (tells film) := by
  induction stretch generalizing renderer tell with
  | nil =>
      have fraction := ready.fractions led channel
      simp [shots, given, asked, tells, changesFrom, changes, fraction]
  | cons event rest induction =>
      cases event with
      | note stateWord ts t =>
          exact induction (ready.noteOneshot stateWord ts t) spoke
      | render input t =>
          have rendered := @Renderer.rendered libm coins renderer input t tame
            ready.stocked
          obtain ⟨balance, -⟩ := rendered.balance ready led channel
          obtain ⟨most, least⟩ := induction (rendered.ready ready) rendered.tell
          have fraction := ready.fractions led channel
          simp only [shots, given, asked, tells, changesFrom, changes,
            List.map_cons, List.sum_cons] at most least ⊢
          generalize renderer.shoot libm coins input t = shot at *
          unfold Renderer.ditherFor at balance
          rw [spoke] at balance
          by_cases same : tell = shot.frame.tell
          · rw [if_pos (congrArg some same)] at balance
            rw [if_pos same, Nat.zero_add]
            constructor <;> linarith
          · rw [if_neg fun equal => same (Option.some.inj equal)] at balance
            have fresh : Dither.new.acc led channel = 0 := rfl
            rw [fresh] at balance
            rw [if_neg same]
            push_cast
            constructor <;> linarith [fraction.1, fraction.2]

/-- Over any stretch of any run each picture is a whole ring in range, each byte
is within a code of it, a channel is given less than a code more than it was
asked for, and it loses less than a code, and one for each change of tell. -/
theorem light_follows_pictures (tame : libm.Tame) (coins : Nat → Bool)
    (earlier stretch : List Event) (led : Fin LEDS) (channel : Fin 3) :
    let film := shots libm coins (run libm coins earlier) stretch
    (∀ shot ∈ film, Valid shot.picture ∧
        |(byteAt led channel shot.frame.rgb : F64) -
          valueAt led channel shot.picture| < 1) ∧
      given led channel film < asked led channel film + 1 ∧
      asked led channel film <
        given led channel film + 1 + changes (tells film) := by
  have ready := @Renderer.ready_run libm coins tame earlier
  generalize run libm coins earlier = renderer at ready
  refine ⟨fun shot member => ?_, ?_⟩
  · obtain ⟨valid, close⟩ := shots_close tame ready member
    exact ⟨valid, close led channel⟩
  · induction stretch generalizing renderer with
    | nil => simp [shots, given, asked, tells, changes]
    | cons event rest induction =>
        cases event with
        | note stateWord ts t =>
            exact induction _ (ready.noteOneshot stateWord ts t)
        | render input t =>
            -- the first render has the fraction that its tell begins with
            have rendered := @Renderer.rendered libm coins renderer input t tame
              ready.stocked
            obtain ⟨balance, -⟩ := rendered.balance ready led channel
            have start := ready.ditherFor
              (renderer.shoot libm coins input t).frame.tell led channel
            obtain ⟨most, least⟩ := @shots_account libm coins tame _
              (rendered.ready ready) _ rendered.tell rest led channel
            simp only [shots, given, asked, tells, changesFrom, List.map_cons,
              List.sum_cons] at most least ⊢
            constructor <;> linarith [start.1, start.2]

end Stretch

/-- A few terms of each series, cut to the range of the function. -/
def terms : Libm where
  pi := 22 / 7
  sin := fun x => max (-1) (min 1 (x - x ^ 3 / 6 + x ^ 5 / 120))
  cos := fun x => max (-1) (min 1 (1 - x ^ 2 / 2 + x ^ 4 / 24))
  exp := fun x => 1 / (1 - x + x ^ 2 / 2 - x ^ 3 / 6)
  powf := fun x _ => x * (((1 + x) / 2 + 2 * x / (1 + x)) / 2)

theorem tame_terms : terms.Tame where
  pi := by norm_num [terms]
  sin := fun x low high => by
    norm_num [terms] at high ⊢
    have square : x ^ 2 ≤ 4 := by nlinarith
    have rest : 0 ≤ 1 - x ^ 2 / 6 := by linarith
    have fifth : 0 ≤ x ^ 5 := by positivity
    have first := mul_nonneg low rest
    linarith
  quarter := fun x low high => by
    norm_num [terms] at high ⊢
    have square : x ^ 2 ≤ 5 / 2 := by nlinarith
    nlinarith [mul_nonneg (by linarith : 0 ≤ 5 / 2 - x ^ 2)
      (by linarith : 0 ≤ 19 / 2 - x ^ 2)]
  cos := fun x => by
    constructor
    · exact le_max_left _ _
    · exact max_le (by norm_num) (min_le_left _ _)
  exp := fun x low => by
    have cube : 0 ≤ -x ^ 3 := by
      have := mul_nonneg (sq_nonneg x) (neg_nonneg.mpr low)
      linarith
    have least : 1 ≤ 1 - x + x ^ 2 / 2 - x ^ 3 / 6 := by nlinarith [sq_nonneg x]
    have positive : 0 < 1 - x + x ^ 2 / 2 - x ^ 3 / 6 := by linarith
    exact ⟨div_nonneg zero_le_one positive.le, (div_le_one positive).mpr least⟩
  powf := fun x low high => by
    have some : 0 < 1 + x := by linarith
    have part : 2 * x / (1 + x) ≤ 1 := (div_le_one some).mpr (by linarith)
    have positive : 0 ≤ 2 * x / (1 + x) := by positivity
    dsimp only [terms]
    constructor
    · positivity
    · exact mul_le_one₀ high (by linarith) (by linarith)

theorem light_follows_pictures_alarmed :
    let film := shots terms (fun _ => true) (run terms (fun _ => true) [])
      OneShots.alarmed
    tells film = [.scan, .alarm, .scan, .home] ∧
      given ⟨0, by decide⟩ 0 film < asked ⟨0, by decide⟩ 0 film + 1 ∧
      asked ⟨0, by decide⟩ 0 film <
        given ⟨0, by decide⟩ 0 film + 1 + changes (tells film) :=
  ⟨by decide +kernel,
    (light_follows_pictures tame_terms (fun _ => true) [] OneShots.alarmed
      ⟨0, by decide⟩ 0).2⟩

end Ring
