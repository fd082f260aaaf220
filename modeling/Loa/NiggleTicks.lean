import Loa.RingLight

/-!
# The amber tick of the ring

A niggle rides on the breath as a short amber tick.  Over any history on a clock
that never goes back, two ambers belong to one tick or are most of a period
apart, and while something niggles a breath at home is never without a tick for
a whole period.
-/

namespace Ring

open RustFloat (Libm)
open RingDaemon (Tell RingInput OneShot)
open OneShots (Event run Ordered)

def NIGGLE_S : F64 := 36 / 100

/-- A render that shows the amber tick, its bright half or its dim one. -/
def Amber (shot : Shot) : Prop :=
  shot.frame.tell = .home ∧
    (shot.picture = solid 38 1 (55 / 100) ∨ shot.picture = solid 38 1 (10 / 100))

theorem red_of_amber (v : F64) : chans (hsv 38 1 v) 0 = v * 255 := by
  norm_num [hsv, chans]

theorem red_of_breath {hue v : F64} (low : 120 ≤ hue) (high : hue < 180) :
    chans (hsv hue 1 v) 0 = 0 := by
  unfold hsv
  dsimp only
  rw [if_neg (by linarith), if_neg (by linarith), if_pos high]
  simp [chans]

theorem solid_inj {h s v h' s' v' : F64} (same : solid h s v = solid h' s' v') :
    hsv h s v = hsv h' s' v' :=
  (List.replicate_right_inj (by decide : (24 : Nat) ≠ 0)).mp same

namespace Renderer

variable {libm : Libm} {coins : Nat → Bool} {renderer : Renderer} {kind : Tell}
  {input : RingInput} {t : F64}

theorem breath_not_amber (tame : libm.Tame) {v : F64} (positive : 0 < v) :
    renderer.breath libm t ≠ solid 38 1 v := by
  intro same
  obtain ⟨low, high⟩ := homeHue_between tame t
  have red := congrArg (fun colour => chans colour 0) (solid_inj same)
  rw [red_of_amber, red_of_breath low (by linarith)] at red
  linarith

/-- The schedule of the tick: when the next one may start, and when the current
one ends. -/
def schedule (renderer : Renderer) : F64 × F64 :=
  (renderer.niggleNext, renderer.niggleUntil)

theorem home_schedule :
    (renderer.home libm t input).2.schedule =
      (renderer.niggle t input).schedule := by
  unfold home
  dsimp only
  split_ifs <;> rfl

/-- Either something else than home speaks, and the schedule stays, or the
picture is home's and the schedule goes on. -/
structure Drawn (libm : Libm) (renderer : Renderer) (input : RingInput)
    (t : F64) (tell : Tell) (picture : List Colour) (after : F64 × F64) :
    Prop where
  other : tell ≠ .home → after = renderer.schedule
  home : tell = .home → picture = (renderer.home libm t input).1 ∧
    after = (renderer.niggle t input).schedule

theorem home_drawn (memory : RingDaemon.Renderer) :
    Drawn libm renderer input t .home
      (({ renderer with toRenderer := memory }.home libm t input).1)
      ({ renderer with toRenderer := memory }.home libm t input).2.schedule where
  other := fun other => (other rfl).elim
  home := fun _ => by
    refine ⟨voice_with memory .home, ?_⟩
    rw [home_schedule]
    unfold niggle
    dsimp only
    split_ifs <;> rfl

theorem other_drawn {tell : Tell} {picture : List Colour} {after : Renderer}
    (other : tell ≠ .home) (same : after.schedule = renderer.schedule) :
    Drawn libm renderer input t tell picture after.schedule where
  other := fun _ => same
  home := fun home => (other home).elim

/-- A spent one-shot leaves the picture to home. -/
theorem spent_drawn (played : kind = .scan ∨ kind = .glitch) :
    let after := ({ renderer with oneshot := none } : Renderer).home libm t input
    Drawn libm renderer input t (after.2.spoke kind) after.1
      after.2.schedule := by
  have empty : (({ renderer with oneshot := none } : Renderer).home libm t
      input).2.oneshot = none :=
    congrArg RingDaemon.Renderer.oneshot home_toRenderer
  intro after
  have spent : after.2.spoke kind = .home := if_pos ⟨played, empty⟩
  rw [spent]
  exact home_drawn ⟨none, renderer.seen⟩

/-- A one-shot that plays speaks for itself. -/
theorem playing_drawn {os : OneShot} {after : Renderer} (picture : List Colour)
    (played : kind = .scan ∨ kind = .glitch) (held : after.oneshot = some os)
    (same : after.schedule = renderer.schedule) :
    Drawn libm renderer input t (after.spoke kind) picture after.schedule := by
  have plays : after.spoke kind = kind := by
    refine if_neg ?_
    rintro ⟨-, empty⟩
    rw [held] at empty
    cases empty
  rw [plays]
  refine other_drawn ?_ same
  rintro rfl
  simp at played

theorem draw_drawn (libm : Libm) (coins : Nat → Bool) (input : RingInput)
    (t : F64) {os : OneShot} (held : renderer.oneshot = some os)
    (played : kind = .scan ∨ kind = .glitch) :
    let drawn := renderer.draw libm coins kind t input
    Drawn libm renderer input t (drawn.2.spoke kind) drawn.1
      drawn.2.schedule := by
  by_cases passed : sequenceS kind input.ripperdoc < t - os.start
  · obtain rfl | rfl := played
    · rw [draw, scan_of_over held passed]
      exact spent_drawn (.inl rfl)
    · rw [draw, glitch_of_over held passed]
      exact spent_drawn (.inr rfl)
  · obtain rfl | rfl := played
    · obtain ⟨frame, same⟩ := scan_of_playing held passed
      rw [draw, same]
      exact playing_drawn frame (.inl rfl) held rfl
    · obtain ⟨frame, tossed, same⟩ := glitch_of_playing held passed
      rw [draw, same]
      exact playing_drawn frame (.inr rfl) held rfl

/-- One render either leaves the schedule or draws home. -/
theorem render_drawn (libm : Libm) (coins : Nat → Bool) (renderer : Renderer)
    (input : RingInput) (t : F64) :
    Drawn libm renderer input t (renderer.render libm coins input t).1.tell
      (renderer.picture libm coins input t)
      (renderer.render libm coins input t).2.schedule := by
  have spoken (other : Renderer) (tell : Tell) :
      (other.speak tell).schedule = other.schedule := by
    unfold speak
    split_ifs <;> rfl
  have after : (renderer.render libm coins input t).2.schedule =
      ((renderer.gate (renderer.tellNow input) t).draw libm coins
        (renderer.tellNow input) t input).2.schedule :=
    spoken _ _
  obtain ⟨dither, frame⟩ := render_frame libm coins renderer input t
  rw [frame, after]
  unfold picture
  dsimp only
  by_cases played : renderer.tellNow input = .scan ∨
      renderer.tellNow input = .glitch
  · obtain ⟨os, held⟩ := held_of_played played
    rw [gate_of_played played]
    exact draw_drawn libm coins input t held played
  · push Not at played
    rw [spoke_of_gating played.1 played.2,
      gate_of_gating played.1 played.2]
    generalize renderer.tellNow input = kind at played
    cases kind with
    | scan => exact (played.1 rfl).elim
    | glitch => exact (played.2 rfl).elim
    | home => exact home_drawn _
    | alarm | hurts | mute | busy => exact other_drawn (by decide) rfl

end Renderer

/-- Two ambers of one tick, or most of a period apart. -/
def Spaced (first second : Shot) : Prop :=
  second.t - first.t < NIGGLE_S ∨
    NIGGLE_PERIOD_S - NIGGLE_S < second.t - first.t

/-- No tick yet, or the last one: the schedule is the one that it left, and the
ambers are its own or most of a period before it. -/
inductive Scheduled (film : List Shot) : F64 × F64 → Prop
  | never (none : ∀ shot ∈ film, ¬ Amber shot) : Scheduled film (0, 0)
  | last {start : Shot} (member : start ∈ film) (amber : Amber start)
      (before : ∀ shot ∈ film, Amber shot → shot.t < start.t + NIGGLE_S ∧
        (start.t ≤ shot.t ∨ NIGGLE_PERIOD_S - NIGGLE_S < start.t - shot.t)) :
      Scheduled film (start.t + NIGGLE_PERIOD_S, start.t + NIGGLE_S)

/-- A breath at home while something niggles has a tick within a period behind
it. -/
def Reminded (film : List Shot) : Prop :=
  ∀ past shot later, film = past ++ shot :: later → shot.frame.tell = .home →
    shot.input.cond = .niggle → ¬ Amber shot →
      ∃ earlier ∈ past, Amber earlier ∧ shot.t - earlier.t < NIGGLE_PERIOD_S

/-- The ticks of a film. -/
structure Ticks (film : List Shot) : Prop where
  spaced : film.Pairwise fun first second =>
    Amber first → Amber second → Spaced first second
  reminded : Reminded film
  niggles : ∀ shot ∈ film, Amber shot → shot.input.cond = .niggle

theorem Reminded.snoc {film : List Shot} {shot : Shot}
    (reminded : Reminded film)
    (next : shot.frame.tell = .home → shot.input.cond = .niggle →
      ¬ Amber shot →
        ∃ earlier ∈ film, Amber earlier ∧
          shot.t - earlier.t < NIGGLE_PERIOD_S) :
    Reminded (film ++ [shot]) := by
  intro past other later split
  cases later using List.reverseRecOn with
  | nil =>
      obtain ⟨rfl, same⟩ := List.append_inj' split rfl
      obtain rfl := List.singleton_inj.mp same
      exact next
  | append_singleton later last =>
      rw [← List.cons_append, ← List.append_assoc] at split
      exact reminded _ _ _ (List.append_inj' split rfl).1

theorem Ticks.snoc {film : List Shot} {shot : Shot} (ticks : Ticks film)
    (spaced : Amber shot → ∀ other ∈ film, Amber other → Spaced other shot)
    (reminded : shot.frame.tell = .home → shot.input.cond = .niggle →
      ¬ Amber shot →
        ∃ earlier ∈ film, Amber earlier ∧
          shot.t - earlier.t < NIGGLE_PERIOD_S)
    (niggles : Amber shot → shot.input.cond = .niggle) :
    Ticks (film ++ [shot]) where
  spaced := by
    refine List.pairwise_append.mpr ⟨ticks.spaced, List.pairwise_singleton _ _,
      fun other member last same => ?_⟩
    obtain rfl := List.mem_singleton.mp same
    exact fun amber later => spaced later other member amber
  reminded := ticks.reminded.snoc reminded
  niggles := by
    intro other member amber
    obtain earlier | same := List.mem_append.mp member
    · exact ticks.niggles other earlier amber
    · obtain rfl := List.mem_singleton.mp same
      exact niggles amber

/-- A shot that is no amber leaves the schedule. -/
theorem Scheduled.snoc {film : List Shot} {schedule : F64 × F64} {shot : Shot}
    (scheduled : Scheduled film schedule)
    (next : Amber shot → ∀ start ∈ film, schedule =
      (start.t + NIGGLE_PERIOD_S, start.t + NIGGLE_S) →
        start.t ≤ shot.t ∧ shot.t < start.t + NIGGLE_S)
    (none : schedule = (0, 0) → ¬ Amber shot) :
    Scheduled (film ++ [shot]) schedule := by
  cases scheduled with
  | never empty =>
      refine .never fun other member => ?_
      obtain earlier | same := List.mem_append.mp member
      · exact empty other earlier
      · obtain rfl := List.mem_singleton.mp same
        exact none rfl
  | @last start member amber before =>
      refine .last (List.mem_append_left _ member) amber
        fun other place lit => ?_
      obtain earlier | same := List.mem_append.mp place
      · exact before other earlier lit
      · obtain rfl := List.mem_singleton.mp same
        obtain ⟨later, within⟩ := next lit start member rfl
        exact ⟨within, .inl later⟩

section Render

variable {libm : Libm} {coins : Nat → Bool} {renderer : Renderer}
  {film : List Shot} {input : RingInput} {t : F64}

/-- What home draws: the tick while it lasts, else no amber. -/
theorem home_picture (tame : libm.Tame) (stocked : renderer.Stocked) :
    ((renderer.home libm t input).1 = solid 38 1 (55 / 100) ∨
        (renderer.home libm t input).1 = solid 38 1 (10 / 100)) ↔
      input.cond = .niggle ∧ t < (renderer.niggle t input).niggleUntil := by
  have kept := (@Renderer.kept_niggle renderer input t).stocked stocked
  unfold Renderer.home
  dsimp only
  constructor
  · intro amber
    by_contra calm
    rw [if_neg calm] at amber
    exact amber.elim (Renderer.breath_not_amber tame (by norm_num))
      (Renderer.breath_not_amber tame (by norm_num))
  · intro ticking
    rw [if_pos ticking]
    split_ifs
    · exact .inl rfl
    · exact .inr rfl

/-- One render keeps the ticks and their schedule. -/
theorem render_ticks (tame : libm.Tame) (coins : Nat → Bool)
    (stocked : renderer.Stocked) (ticks : Ticks film)
    (scheduled : Scheduled film renderer.schedule) (since : 0 ≤ t)
    (later : ∀ shot ∈ film, shot.t ≤ t) :
    Ticks (film ++ [renderer.shoot libm coins input t]) ∧
      Scheduled (film ++ [renderer.shoot libm coins input t])
        (renderer.render libm coins input t).2.schedule := by
  have drawn := renderer.render_drawn libm coins input t
  have moment : (renderer.shoot libm coins input t).t = t := rfl
  have same : (renderer.shoot libm coins input t).input = input := rfl
  have picture : (renderer.shoot libm coins input t).picture =
    renderer.picture libm coins input t := rfl
  have tell : (renderer.shoot libm coins input t).frame.tell =
    (renderer.render libm coins input t).1.tell := rfl
  generalize renderer.shoot libm coins input t = shot at *
  by_cases home : shot.frame.tell = .home
  case neg =>
    have dark : ¬ Amber shot := fun amber => home amber.1
    rw [drawn.other (tell ▸ home)]
    exact ⟨ticks.snoc (fun amber => (dark amber).elim)
        (fun speaks => (home speaks).elim) (fun amber => (dark amber).elim),
      scheduled.snoc (fun amber => (dark amber).elim) fun _ => dark⟩
  obtain ⟨drawnHome, after⟩ := drawn.home (tell ▸ home)
  have lit : Amber shot ↔
      input.cond = .niggle ∧ t < (renderer.niggle t input).niggleUntil := by
    rw [← home_picture tame stocked, ← drawnHome, ← picture]
    exact and_iff_right home
  have niggles : Amber shot → shot.input.cond = .niggle := fun amber =>
    same ▸ (lit.mp amber).1
  rw [after]
  by_cases starts : input.cond = .niggle ∧ renderer.niggleNext ≤ t
  · -- a new tick: the one before it started a period ago
    have fresh : renderer.niggle t input =
        { renderer with
          niggleNext := t + NIGGLE_PERIOD_S
          niggleUntil := t + NIGGLE_S } := if_pos starts
    have amber : Amber shot := by
      rw [lit, fresh]
      exact ⟨starts.1, lt_add_of_pos_right t (by norm_num [NIGGLE_S])⟩
    have apart : ∀ other ∈ film, Amber other →
        NIGGLE_PERIOD_S - NIGGLE_S < t - other.t := by
      intro other member earlier
      have due := starts.2
      change renderer.schedule.1 ≤ t at due
      generalize renderer.schedule = schedule at scheduled due
      cases scheduled with
      | never none => exact (none other member earlier).elim
      | last place bright before =>
          have within := (before other member earlier).1
          linarith
    refine ⟨ticks.snoc (fun _ other member earlier => .inr ?_)
      (fun _ _ dark => (dark amber).elim) niggles, ?_⟩
    · rw [moment]
      exact apart other member earlier
    · rw [fresh]
      refine moment ▸ .last (by simp) amber fun other member earlier => ?_
      have positive : 0 < NIGGLE_S := by norm_num [NIGGLE_S]
      obtain old | new := List.mem_append.mp member
      · have past := later other old
        exact ⟨by linarith, .inr (moment ▸ apart other old earlier)⟩
      · obtain rfl := List.mem_singleton.mp new
        exact ⟨by linarith, .inl le_rfl⟩
  · have stays : renderer.niggle t input = renderer := if_neg starts
    rw [stays] at lit ⊢
    -- the tick that runs, or the one that is less than a period old
    have running : Amber shot → ∀ start ∈ film, renderer.schedule =
        (start.t + NIGGLE_PERIOD_S, start.t + NIGGLE_S) →
          start.t ≤ shot.t ∧ shot.t < start.t + NIGGLE_S := by
      intro amber start member schedule
      have ends : renderer.niggleUntil = start.t + NIGGLE_S :=
        congrArg Prod.snd schedule
      rw [moment, ← ends]
      exact ⟨later start member, (lit.mp amber).2⟩
    refine ⟨ticks.snoc (fun amber other member earlier => ?_)
      (fun _ niggling _ => ?_) niggles,
      scheduled.snoc running fun schedule amber => ?_⟩
    · generalize renderer.schedule = schedule at scheduled running
      cases scheduled with
      | never none => exact (none other member earlier).elim
      | @last start place bright before =>
          obtain ⟨follows, within⟩ := running amber start place rfl
          obtain recent | old := (before other member earlier).2
          · exact .inl (by linarith)
          · exact .inr (by linarith)
    · have early : ¬ renderer.schedule.1 ≤ t := fun due =>
        starts ⟨same ▸ niggling, due⟩
      generalize renderer.schedule = schedule at scheduled early
      cases scheduled with
      | never none => exact (early since).elim
      | @last start place bright before =>
          refine ⟨start, place, bright, ?_⟩
          rw [moment]
          dsimp only at early
          linarith
    · have ends : renderer.niggleUntil = 0 := congrArg Prod.snd schedule
      have within := (lit.mp amber).2
      rw [ends] at within
      linarith

end Render

section History

variable {libm : Libm} {coins : Nat → Bool}

theorem shots_snoc (renderer : Renderer) (history : List Event)
    (event : Event) :
    shots libm coins renderer (history ++ [event]) =
      shots libm coins renderer history ++
        shots libm coins (history.foldl (OneShots.after libm coins) renderer)
          [event] := by
  induction history generalizing renderer with
  | nil => rfl
  | cons first rest induction =>
      cases first with
      | note stateWord ts t => exact induction _
      | render input t => exact congrArg (List.cons _) (induction _)

theorem shots_t (renderer : Renderer) {history : List Event} {shot : Shot}
    (member : shot ∈ shots libm coins renderer history) :
    shot.t ∈ history.map Event.t := by
  induction history generalizing renderer with
  | nil => cases member
  | cons first rest induction =>
      cases first with
      | note stateWord ts t => exact List.mem_cons_of_mem _ (induction _ member)
      | render input t =>
          obtain rfl | later := List.mem_cons.mp member
          · exact List.mem_cons_self
          · exact List.mem_cons_of_mem _ (induction _ later)

/-- In every history on a clock that never goes back: two ambers are of one tick
or most of a period apart, a breath at home while something niggles has an amber
within a period behind it, and amber shows only while something niggles. -/
theorem niggle_ticks (tame : libm.Tame) (coins : Nat → Bool)
    {history : List Event} (ordered : Ordered history)
    (since : ∀ event ∈ history, 0 ≤ event.t) :
    Ticks (shots libm coins (Renderer.new libm) history) := by
  have both : Ticks (shots libm coins (Renderer.new libm) history) ∧
      Scheduled (shots libm coins (Renderer.new libm) history)
        (run libm coins history).schedule := by
    induction history using List.reverseRecOn with
    | nil =>
        refine ⟨⟨.nil, fun past shot later split => ?_, fun _ member => ?_⟩,
          .never fun _ member => ?_⟩
        · simp [shots] at split
        · cases member
        · cases member
    | append_singleton history event induction =>
        have earlier : Ordered history := OneShots.ordered_front ordered rfl
        obtain ⟨ticks, scheduled⟩ := induction earlier fun event member =>
          since event (List.mem_append_left _ member)
        rw [shots_snoc, OneShots.run_snoc]
        cases event with
        | note stateWord ts t =>
            rw [show shots libm coins _ [Event.note stateWord ts t] = [] from rfl,
              List.append_nil]
            exact ⟨ticks, scheduled⟩
        | render input t =>
            unfold Ordered at ordered
            rw [List.map_append, List.pairwise_append] at ordered
            refine render_ticks tame coins
              (Renderer.ready_run tame history).stocked ticks scheduled
              (since (.render input t) (by simp)) fun shot member => ?_
            exact ordered.2.2 _ (shots_t _ member) _ (by simp [Event.t])
  exact both.1

end History

/-- Three renders while something niggles: the tick, its end, and the next. -/
def niggling : List Event :=
  [.render ⟨.niggle, "home", false⟩ 0, .render ⟨.niggle, "home", false⟩ 1,
    .render ⟨.niggle, "home", false⟩ 21]

theorem niggle_ticks_niggling :
    Ticks (shots terms (fun _ => true) (Renderer.new terms) niggling) :=
  niggle_ticks tame_terms (fun _ => true)
    (by
      unfold Ordered niggling Event.t
      norm_num)
    (by simp [niggling, Event.t])

end Ring
