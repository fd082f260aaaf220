import Loa.CortexFeed

/-!
# One condition, three readers

The face, the ring and the cortex each derive a word for how the body is.  The
file says in which runs the three words agree, and what becomes of them when
the sweeps stop coming.
-/

namespace Cortex

open FileDirectory Wire TransitionRun

/-- The word that a ring acts on. -/
def ringWord (ring : RingDaemon.Daemon) : String :=
  ring.held.input.cond.word

theorem parse_conditionFrom (rows : List FaultRow) :
    (RingDaemon.Cond.parse (conditionFrom rows)).word = conditionFrom rows := by
  rcases conditionFrom_cases rows with hurts | niggle | well
  · rw [hurts]
    decide
  · rw [niggle]
    decide
  · rw [well]
    decide

theorem conditionFrom_ne_mute (rows : List FaultRow) :
    conditionFrom rows ≠ "mute" := by
  rcases conditionFrom_cases rows with hurts | niggle | well
  · rw [hurts]
    decide
  · rw [niggle]
    decide
  · rw [well]
    decide

/-- The word of the last state message, as a face reads it. -/
def statedWord (prost : Prost) (feed : List Parts) : String :=
  if (heardOn prost feed).faceWord = "" then "well"
  else (heardOn prost feed).faceWord

section Words

variable {env : Env} {flags : Bool → Prop} {sys : Sys}
  {delivered : List (F64 × Parts)}

/-- Before the first republish everybody is mute. -/
theorem words_of_asking (wall : F64) (telling : Telling env flags sys)
    (asking : sys.main ≠ .running)
    (whole : delivered.map Prod.snd = sys.feed) :
    Oled.rendererCondition (faceOn env.prost wall delivered) = "mute" ∧
      ringWord (ringOn env.prost delivered) = "mute" ∧
      rendererCondition sys.cx.st = "mute" := by
  have inStep := inStep_on env.prost wall whole telling.named
  obtain ⟨heard, unswept⟩ := telling.silent asking
  rw [heard] at inStep
  refine ⟨?_, ?_, ?_⟩
  · simp [Oled.rendererCondition, inStep.faceSeen]
  · simp [ringWord, RingDaemon.Held.input, RingDaemon.deviceCondition,
      inStep.ringSeen, RingDaemon.Cond.word]
  · simp [rendererCondition, unswept]

/-- From then on the ring's word is that of the rows the cortex has. -/
theorem ringWord_of_running (telling : Telling env flags sys)
    (running : sys.main = .running)
    (whole : delivered.map Prod.snd = sys.feed) :
    ∃ dbDown, flags dbDown ∧
      ringWord (ringOn env.prost delivered) =
        conditionFrom (sys.cx.faultRows dbDown) := by
  have inStep := inStep_on env.prost 0 whole telling.named
  obtain ⟨dbDown, now, allowed, last⟩ := telling.told running
  refine ⟨dbDown, allowed, ?_⟩
  simp [ringWord, RingDaemon.Held.input, RingDaemon.deviceCondition,
    inStep.ringSeen, inStep.ringFault, last, faultMessage,
    parse_conditionFrom]

/-- And the face's is that of the last state message. -/
theorem faceWord_of_running (wall : F64) (telling : Telling env flags sys)
    (running : sys.main = .running)
    (whole : delivered.map Prod.snd = sys.feed) :
    Oled.rendererCondition (faceOn env.prost wall delivered) =
      statedWord env.prost sys.feed := by
  have inStep := inStep_on env.prost wall whole telling.named
  obtain ⟨dbDown, now, -, last⟩ := telling.told running
  simp [Oled.rendererCondition, statedWord, inStep.faceSeen, inStep.faceWord,
    last]

end Words

/-- However the messages on the feed were timed, the face, the ring and the
cortex act on one word. -/
def Agree (env : Env) (sys : Sys) : Prop :=
  ∀ (wall : F64) (delivered : List (F64 × Parts)),
    delivered.map Prod.snd = sys.feed →
    Oled.rendererCondition (faceOn env.prost wall delivered) =
        ringWord (ringOn env.prost delivered) ∧
      ringWord (ringOn env.prost delivered) = rendererCondition sys.cx.st

/-- A feed with times on it. -/
theorem timed_whole (feed : List Parts) :
    (feed.map fun parts => ((0 : F64), parts)).map Prod.snd = feed := by
  simp

/-- A cortex that is not mute has its own word, and has had a sweep. -/
theorem rendererCondition_eq_iff {st : State} {word : String}
    (notMute : word ≠ "mute") :
    rendererCondition st = word ↔ st.faultTs.isSome ∧ st.condition = word := by
  unfold rendererCondition
  cases st.faultTs with
  | none => simpa using notMute.symm
  | some swept => simp

/-- With the store reachable the three agree before anything is said; and from
then on just where a sweep has landed, its word is that of its rows, and the last
state message has that word. -/
theorem agree_iff (env : Env) (dsn : Bool) (host : Host) (server : Server)
    {trace : List (Sys × Action)} {sys : Sys}
    (run : Run (Sys.step env) (boot env dsn host server) trace sys)
    (storeReachable : Along (fun before _ => before.dbDown = false) trace) :
    Agree env sys ↔
      sys.main ≠ .running ∨
        (sys.cx.st.faultTs.isSome ∧
          sys.cx.st.condition = conditionFrom sys.cx.st.faults ∧
          statedWord env.prost sys.feed = sys.cx.st.condition) := by
  have telling : Telling env (fun down => down = false) sys :=
    telling_of_run run storeReachable
  by_cases running : sys.main = .running
  · have ringSays {delivered : List (F64 × Parts)}
        (whole : delivered.map Prod.snd = sys.feed) :
        ringWord (ringOn env.prost delivered) =
          conditionFrom sys.cx.st.faults := by
      obtain ⟨dbDown, up, word⟩ := ringWord_of_running telling running whole
      subst up
      simpa [faultRows, injectedFaults] using word
    have cortexSays := @rendererCondition_eq_iff sys.cx.st _
      (conditionFrom_ne_mute sys.cx.st.faults)
    constructor
    · intro agree
      obtain ⟨face, ring⟩ := agree 0 _ (timed_whole sys.feed)
      rw [ringSays (timed_whole sys.feed)] at face ring
      obtain ⟨swept, word⟩ := cortexSays.mp ring.symm
      rw [faceWord_of_running 0 telling running (timed_whole sys.feed)] at face
      exact Or.inr ⟨swept, word, face.trans word.symm⟩
    · rintro (asking | ⟨swept, word, stated⟩) wall delivered whole
      · exact absurd running asking
      rw [ringSays whole, faceWord_of_running wall telling running whole]
      exact ⟨stated.trans word, (cortexSays.mpr ⟨swept, word⟩).symm⟩
  · constructor
    · intro _
      exact Or.inl running
    · intro _ wall delivered whole
      obtain ⟨face, ring, cortex⟩ := words_of_asking wall telling running
        whole
      exact ⟨face.trans ring.symm, ring.trans cortex.symm⟩

/-- The ring is never mute once the cortex runs. -/
theorem not_agree_of_mute {env : Env} {flags : Bool → Prop} {sys : Sys}
    (telling : Telling env flags sys) (running : sys.main = .running)
    (mute : rendererCondition sys.cx.st = "mute") : ¬ Agree env sys := by
  intro agree
  obtain ⟨-, same⟩ := agree 0 _ (timed_whole sys.feed)
  obtain ⟨dbDown, -, word⟩ :=
    ringWord_of_running telling running (timed_whole sys.feed)
  rw [mute, word] at same
  exact conditionFrom_ne_mute _ same

/-- A face that was told another word than the cortex has disagrees. -/
theorem not_agree_of_faceWord {env : Env} {flags : Bool → Prop} {sys : Sys}
    (telling : Telling env flags sys) (running : sys.main = .running)
    (told : statedWord env.prost sys.feed ≠ rendererCondition sys.cx.st) :
    ¬ Agree env sys := by
  intro agree
  obtain ⟨faceSame, ringSame⟩ := agree 0 _ (timed_whole sys.feed)
  have word := faceWord_of_running 0 telling running (timed_whole sys.feed)
  exact told (word.symm.trans (faceSame.trans ringSame))

namespace Trial

def report (level : Option String) (word : String) : Action :=
  push "fault" (.fault
    { rows := level.toList.map fun level => ⟨level, "PIR DEAD", "", none⟩
      condition := some word
      ts := some 1 })

/-- These actions are a run with the store reachable, at whose end the three
words differ. -/
def Disagrees (actions : List Action) : Prop :=
  ∃ trace sys,
    Run (Sys.step env) (boot env true host (server ∅)) trace sys ∧
      trace.map Prod.snd = actions ∧
      Along (fun before _ => before.dbDown = false) trace ∧ ¬ Agree env sys

theorem disagrees_of_follow {actions : List Action}
    {trace : List (Sys × Action)} {sys : Sys}
    (followed : follow (Sys.step env) (boot env true host (server ∅)) actions =
      some (trace, sys))
    (up : Along (fun before _ => before.dbDown = false) trace)
    (differ : Telling env (fun _ => True) sys → ¬ Agree env sys) :
    Disagrees actions := by
  have run := run_of_follow followed
  refine ⟨trace, sys, run, actions_of_follow followed, up, differ ?_⟩
  exact telling_of_run run fun _ _ => trivial

/-- The words differ before any sweep; after a sweep whose word is not that of
its rows, though every state message has gone out; and after a sweep that
moved the word, since no state message followed. -/
theorem disagree :
    Disagrees asks ∧
      Disagrees (asks ++ [report none "mute", post turnPage, .hearNews]) ∧
      Disagrees (asks ++ [report (some "fault") "hurts"]) := by
  refine ⟨disagrees_of_follow rfl ?_ ?_, disagrees_of_follow rfl ?_ ?_,
    disagrees_of_follow rfl ?_ ?_⟩
  · unfold Along
    decide
  · intro telling
    exact not_agree_of_mute telling rfl rfl
  · unfold Along
    decide
  · intro telling
    exact not_agree_of_mute telling rfl rfl
  · unfold Along
    decide
  · intro telling
    exact not_agree_of_faceWord telling rfl (by decide)

/-- A sweep with its rows' word, and a state message after it. -/
theorem agree_iff_trial :
    ∃ trace sys,
      Run (Sys.step env) (boot env true host (server ∅)) trace sys ∧
        trace.map Prod.snd =
          asks ++ [report (some "warn") "niggle", post turnPage, .hearNews] ∧
        (Agree env sys ↔ sys.main ≠ .running ∨
          (sys.cx.st.faultTs.isSome ∧
            sys.cx.st.condition = conditionFrom sys.cx.st.faults ∧
            statedWord env.prost sys.feed = sys.cx.st.condition)) := by
  have followed : follow (Sys.step env) (boot env true host (server ∅))
      (asks ++ [report (some "warn") "niggle", post turnPage, .hearNews]) =
      some (_, _) := rfl
  refine ⟨_, _, run_of_follow followed, actions_of_follow followed,
    agree_iff env true host (server ∅) (run_of_follow followed) ?_⟩
  unfold Along
  decide

end Trial

/-- The sweep that an inbound message brings. -/
def sweepOf (env : Env) (parts : Parts) : Option Fault :=
  match accepted env parts with
  | some (.fault f) => some f
  | _ => none

/-- The last sweep of a run came at this time. -/
def LastSweep (env : Env) (trace : List (Sys × Action)) (received : F64) :
    Prop :=
  ∃ earlier before parts later,
    trace = earlier ++ (before, .inbound parts) :: later ∧
      (sweepOf env parts).isSome ∧ received = env.clock before.ticks ∧
      ∀ entry ∈ later, ∀ parts, entry.2 = .inbound parts →
        sweepOf env parts = none

/-- Mute for the ring and the face, and the face's page for the faults says
why; `t` is the time of drawing. -/
def MuteEverywhere (t : F64) (face : Oled.RenderState)
    (ring : RingDaemon.Daemon) : Prop :=
  ring.held.input.cond = .mute ∧ Oled.rendererCondition face = "mute" ∧
    "SENSE DEAD".toList <+: (Oled.faultHead t face).toList

theorem running_kept {env : Env} {sys after : Sys} {action : Action}
    (effect : Effect env sys action after) (running : sys.main = .running) :
    after.main = .running := by
  cases effect with
  | asked main =>
      rw [running] at main
      cases main
  | opened => rfl
  | flushed flushes => cases flushes <;> exact running
  | _ => exact running

/-- A run that has taken a message in has come past the asks. -/
theorem running_of_inbound {env : Env} {start sys before : Sys}
    {trace : List (Sys × Action)} {parts : Parts}
    (run : Run (Sys.step env) start trace sys)
    (member : (before, Action.inbound parts) ∈ trace) :
    sys.main = .running := by
  induction run with
  | stay => cases member
  | @move trace last after action run stepped induction =>
      have effect := effect_of_step stepped
      rcases List.mem_append.mp member with earlier | now
      · exact running_kept effect (induction earlier)
      · rw [List.mem_singleton, Prod.mk.injEq] at now
        obtain ⟨rfl, rfl⟩ := now
        apply running_kept effect
        cases effect <;> assumption

/-- Once a sweep has come in, no ring is mute, however old the sweep is. -/
theorem not_muteEverywhere {env : Env} {start sys : Sys}
    {trace : List (Sys × Action)} {received : F64}
    (run : Run (Sys.step env) start trace sys)
    (telling : Telling env (fun _ => True) sys)
    (swept : LastSweep env trace received)
    {delivered : List (F64 × Parts)}
    (whole : delivered.map Prod.snd = sys.feed) (t : F64)
    (face : Oled.RenderState) :
    ¬ MuteEverywhere t face (ringOn env.prost delivered) := by
  rintro ⟨mute, -, -⟩
  obtain ⟨earlier, before, parts, later, rfl, -, -, -⟩ := swept
  have running : sys.main = .running :=
    running_of_inbound run (List.mem_append_right _ List.mem_cons_self)
  obtain ⟨dbDown, -, word⟩ := ringWord_of_running telling running whole
  rw [ringWord, mute] at word
  exact conditionFrom_ne_mute _ word.symm

/-- A sweep received at one time and stale at another is mute everywhere at
that other time. -/
def StaleReadsMute (env : Env) (sys : Sys) (received t : F64) : Prop :=
  received + Oled.FAULTS_STALE_S < t →
    ∀ (wall : F64) (delivered : List (F64 × Parts)),
      delivered.map Prod.snd = sys.feed →
      MuteEverywhere t (faceOn env.prost wall delivered)
        (ringOn env.prost delivered)

/-- No stale sweep is mute everywhere in any run: every republish sends the
rows of the last sweep out again as news. -/
theorem staleReadsMute_iff (env : Env) (dsn : Bool) (host : Host)
    (server : Server) {trace : List (Sys × Action)} {sys : Sys}
    (run : Run (Sys.step env) (boot env dsn host server) trace sys)
    {received : F64} (swept : LastSweep env trace received) (t : F64) :
    StaleReadsMute env sys received t ↔
      ¬ received + Oled.FAULTS_STALE_S < t := by
  have telling : Telling env (fun _ => True) sys :=
    telling_of_run run fun _ _ => trivial
  constructor
  · intro mute stale
    exact not_muteEverywhere run telling swept (timed_whole sys.feed) t _
      (mute stale 0 _ (timed_whole sys.feed))
  · intro fresh stale
    exact absurd stale fresh

namespace Trial

theorem exists_swept :
    ∃ trace sys, Run (Sys.step env) (boot env true host (server ∅)) trace sys ∧
      LastSweep env trace 5 := by
  have followed : follow (Sys.step env) (boot env true host (server ∅)) asks =
      some (_, _) := rfl
  refine ⟨_, _, Run.move (run_of_follow followed)
    (show Sys.step env _ (report none "well") = some _ from rfl),
    _, _, _, [], rfl, ?_, ?_, ?_⟩
  · rfl
  · exact (by norm_num : (5 : F64) = ((5 : Nat) : F64))
  · simp

theorem stale_at_1000 : (5 : F64) + Oled.FAULTS_STALE_S < 1000 := by
  norm_num [Oled.FAULTS_STALE_S]

/-- A quarter of an hour after the last sweep the ring is not mute. -/
theorem stale_sweep_not_mute :
    ∃ trace sys, Run (Sys.step env) (boot env true host (server ∅)) trace sys ∧
      LastSweep env trace 5 ∧ (5 : F64) + Oled.FAULTS_STALE_S < 1000 ∧
      ¬ StaleReadsMute env sys 5 1000 := by
  obtain ⟨trace, sys, run, swept⟩ := exists_swept
  refine ⟨trace, sys, run, swept, stale_at_1000, fun mute => ?_⟩
  exact not_muteEverywhere run (telling_of_run run fun _ _ => trivial) swept
    (timed_whole sys.feed) 1000 _
    (mute stale_at_1000 0 _ (timed_whole sys.feed))

theorem staleReadsMute_iff_trial :
    ∃ trace sys, Run (Sys.step env) (boot env true host (server ∅)) trace sys ∧
      LastSweep env trace 5 ∧
      (StaleReadsMute env sys 5 1000 ↔
        ¬ (5 : F64) + Oled.FAULTS_STALE_S < 1000) := by
  obtain ⟨trace, sys, run, swept⟩ := exists_swept
  exact ⟨trace, sys, run, swept,
    staleReadsMute_iff env true host (server ∅) run swept 1000⟩

end Trial

end Cortex
