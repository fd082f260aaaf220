import Loa.DoorMachine
import Loa.TransitionRun

/-!
# Where a custom text lives

The text on the face belongs to the mode `text`.  The verbs are followed from
the default state, to find in which of their runs a text is held in that mode
alone, and what the console leaves behind in the others.
-/

namespace Cortex

open TransitionRun

/-- A state verb with its arguments. -/
inductive Verb
  | feel (feeling : Option String) (next : Bool) (note : Option String)
  | display (mode text : Option String) (dim flip : Option Bool)
  | ripperdoc (on : Option Bool) (page : Option String)

def Verb.call (cx : Cortex) : Verb → Except String Logged × Cortex
  | .feel feeling next note => cx.feel feeling next note
  | .display mode text dim flip => cx.display mode text dim flip
  | .ripperdoc on page => cx.ripperdoc on page

/-- What an accepted verb leaves; a refused one is no step. -/
def Verb.accept (cx : Cortex) (verb : Verb) : Option Cortex :=
  match verb.call cx with
  | (.ok _, after) => some after
  | (.error _, _) => none

/-- A custom text is held in the mode `text` alone. -/
def Paired (cx : Cortex) : Prop :=
  cx.st.oledText.isSome → cx.st.oledMode = "text"

instance (cx : Cortex) : Decidable cx.Paired :=
  inferInstanceAs (Decidable (_ → _))

/-- The verb turns the console on or off. -/
def Verb.Consoles : Verb → Prop
  | .ripperdoc (some _) _ => True
  | _ => False

/-- The console is turned on or off only while no text is held. -/
def SparesText (cx : Cortex) (verb : Verb) : Prop :=
  verb.Consoles → cx.st.oledText = none

theorem feel_accepted {cx after : Cortex} {feeling note : Option String}
    {next : Bool}
    (accepted : (Verb.feel feeling next note).accept cx = some after) :
    ∃ mood ∈ MOODS, after = cx.wear mood := by
  unfold Verb.accept Verb.call Cortex.feel at accepted
  cases target : cx.feelTarget feeling next with
  | none => simp [target] at accepted
  | some mood =>
      simp only [target, Option.some.injEq] at accepted
      exact ⟨mood, feelTarget_mem target, accepted.symm⟩

theorem display_accepted {cx after : Cortex} {mode text : Option String}
    {dim flip : Option Bool}
    (accepted : (Verb.display mode text dim flip).accept cx = some after) :
    after = cx ∨ after = cx.shown mode text dim flip := by
  change (match cx.display mode text dim flip with
    | (.ok _, after) => some after
    | (.error _, _) => none) = some after at accepted
  unfold Cortex.display at accepted
  split_ifs at accepted
  · cases accepted
    exact Or.inl rfl
  · cases accepted
    exact Or.inr rfl

theorem ripperdoc_accepted {cx after : Cortex} {on : Option Bool}
    {page : Option String}
    (accepted : (Verb.ripperdoc on page).accept cx = some after) :
    after = on.elim (cx.turned page) (cx.turned page).consoled := by
  change (match cx.ripperdoc on page with
    | (.ok _, after) => some after
    | (.error _, _) => none) = some after at accepted
  unfold Cortex.ripperdoc at accepted
  split_ifs at accepted
  cases on with
  | none => exact (Option.some.inj accepted).symm
  | some on => exact (Option.some.inj accepted).symm

theorem paired_wear (cx : Cortex) {mood : Mood} (listed : mood ∈ MOODS) :
    (cx.wear mood).Paired := by
  have table : ∀ mood ∈ MOODS, mood.oledText.isSome → mood.oledMode = "text" := by
    decide
  exact table mood listed

theorem paired_shown {cx : Cortex} (paired : cx.Paired)
    (mode text : Option String) (dim flip : Option Bool) :
    (cx.shown mode text dim flip).Paired := by
  cases mode with
  | none => exact paired
  | some m =>
      intro held
      by_cases isText : m = "text"
      · exact isText
      · simp [shown, isText] at held

/-- The console takes the mode and leaves the text where it is. -/
theorem paired_consoled_iff (cx : Cortex) (on : Bool) :
    (cx.consoled on).Paired ↔ cx.st.oledText = none := by
  have mode : (cx.consoled on).st.oledMode ≠ "text" := by
    cases on <;> simp [consoled]
  constructor
  · intro paired
    by_contra held
    exact mode (paired (Option.isSome_iff_ne_none.mpr held))
  · intro cleared held
    have still : cx.st.oledText.isSome := held
    simp [cleared] at still

/-- One accepted verb keeps the pairing just where it spares the text. -/
theorem paired_accept_iff {cx after : Cortex} {verb : Verb}
    (paired : cx.Paired) (accepted : verb.accept cx = some after) :
    after.Paired ↔ SparesText cx verb := by
  cases verb with
  | feel feeling next note =>
      obtain ⟨mood, listed, rfl⟩ := feel_accepted accepted
      exact iff_of_true (paired_wear cx listed) False.elim
  | display mode text dim flip =>
      refine iff_of_true ?_ False.elim
      obtain rfl | rfl := display_accepted accepted
      · exact paired
      · exact paired_shown paired mode text dim flip
  | ripperdoc on page =>
      rw [ripperdoc_accepted accepted]
      cases on with
      | none => exact iff_of_true paired False.elim
      | some on =>
          rw [Option.elim_some, paired_consoled_iff]
          exact (forall_const True).symm

/-- In a run of accepted verbs from the default state the text is held in its
own mode in every state exactly when each console verb of the run comes while no
text is held. -/
theorem text_in_text_mode_iff {trace : List (Cortex × Verb)} {last : Cortex}
    (run : Run Verb.accept {} trace last) :
    (∀ cx ∈ last :: trace.map Prod.fst, cx.Paired) ↔ Along SparesText trace := by
  induction run with
  | stay =>
      have default : ({} : Cortex).Paired := by decide
      simp [Along, default]
  | @move trace before after verb run stepped induction =>
      have states : (∀ cx ∈ after :: (trace ++ [(before, verb)]).map Prod.fst,
          cx.Paired) ↔
          after.Paired ∧ ∀ cx ∈ before :: trace.map Prod.fst, cx.Paired := by
        simp only [List.map_append, List.map_cons, List.map_nil,
          List.mem_cons, List.mem_append, List.not_mem_nil, or_false]
        grind
      rw [states, along_concat, and_comm, induction]
      refine and_congr_right fun along => ?_
      have paired := (induction.mpr along) before List.mem_cons_self
      exact paired_accept_iff paired stepped

/-- A text put up, and the console opened in front of it. -/
def textThenConsole : List Verb :=
  [.display (some "text") (some "hello") none none, .ripperdoc (some true) none]

/-- The console leaves the text held in another mode. -/
theorem text_outside_text_mode :
    ¬ ∀ (trace : List (Cortex × Verb)) (last : Cortex),
      Run Verb.accept {} trace last →
        ∀ cx ∈ last :: trace.map Prod.fst, cx.Paired := by
  intro always
  have ran : Run Verb.accept {} _ _ :=
    @run_of_follow _ _ _ _ _ textThenConsole _ rfl
  have paired := always _ _ ran _ List.mem_cons_self
  revert paired
  decide

/-- The text put up again by a mood after the console was opened without one. -/
theorem text_in_text_mode_alarmed :
    ((({} : Cortex).consoled true).wear ⟨"alarmed", "alarm", false,
      "text", some "!! FLATLINE !!", false⟩).Paired :=
  (@text_in_text_mode_iff
    [({}, .ripperdoc (some true) none),
      (({} : Cortex).consoled true, .feel (some "alarmed") false none)] _
    (.move (.move .stay rfl) rfl)).mpr (by
      intro entry member spared
      simp only [List.mem_cons, List.not_mem_nil, or_false] at member
      obtain rfl | rfl := member <;> rfl) _ List.mem_cons_self

end Cortex
