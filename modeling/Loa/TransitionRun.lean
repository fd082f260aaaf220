import Mathlib.Data.List.Induction

/-!
# Runs of a transition function

A run is a list of steps, each with the state it started from, so that a
condition on the steps of a run and a question about its past can be read off
the list.
-/

namespace TransitionRun

variable {State Action : Type} {step : State → Action → Option State}

/-- `trace` leads from `start` to the last state. -/
inductive Run (step : State → Action → Option State) (start : State) :
    List (State × Action) → State → Prop
  | stay : Run step start [] start
  | move {trace : List (State × Action)} {before after : State}
      {action : Action} (run : Run step start trace before)
      (stepped : step before action = some after) :
      Run step start (trace ++ [(before, action)]) after

/-- Every step of the trace meets a condition on its state and action. -/
def Along (condition : State → Action → Prop)
    (trace : List (State × Action)) : Prop :=
  ∀ entry ∈ trace, condition entry.1 entry.2

theorem along_concat {condition : State → Action → Prop}
    {trace : List (State × Action)} {before : State} {action : Action} :
    Along condition (trace ++ [(before, action)]) ↔
      Along condition trace ∧ condition before action := by
  simp [Along, or_imp, forall_and]

theorem along_of_actions {condition : Action → Prop}
    {trace : List (State × Action)}
    (each : ∀ action ∈ trace.map Prod.snd, condition action) :
    Along (fun _ action => condition action) trace :=
  fun _ member => each _ (List.mem_map_of_mem member)

/-- What holds at the start and is kept by every step that meets the condition
holds wherever a run of such steps leads. -/
theorem Run.invariant {condition : State → Action → Prop}
    {holds : State → Prop} {start last : State}
    {trace : List (State × Action)} (run : Run step start trace last)
    (along : Along condition trace) (initially : holds start)
    (keeps : ∀ before action after, condition before action →
      step before action = some after → holds before → holds after) :
    holds last := by
  induction run with
  | stay => exact initially
  | move run stepped induction =>
      obtain ⟨earlier, now⟩ := along_concat.mp along
      exact keeps _ _ _ now stepped (induction earlier)

theorem Run.kept {holds : State → Prop} {start last : State}
    {trace : List (State × Action)} (run : Run step start trace last)
    (initially : holds start)
    (keeps : ∀ before action after, step before action = some after →
      holds before → holds after) :
    holds last := by
  have along : Along (fun _ _ => True) trace := fun _ _ => trivial
  exact run.invariant along initially fun before action after _ =>
    keeps before action after

/-- A run up to one of its steps, and the step. -/
theorem Run.split {start last before : State} {action : Action}
    {earlier later : List (State × Action)}
    (run : Run step start (earlier ++ (before, action) :: later) last) :
    Run step start earlier before ∧ ∃ after, step before action = some after := by
  generalize whole : earlier ++ (before, action) :: later = trace at run
  induction run generalizing later with
  | stay => simp at whole
  | @move trace previous after made run stepped induction =>
      cases later using List.reverseRecOn with
      | nil =>
          obtain ⟨same, ended⟩ := List.append_inj' whole rfl
          cases same
          cases ended
          exact ⟨run, after, stepped⟩
      | append_singleton later final =>
          rw [← List.cons_append, ← List.append_assoc] at whole
          exact induction (List.append_inj' whole rfl).1

/-- Follow a list of actions as far as a trace and a last state. -/
def follow (step : State → Action → Option State) (start : State) :
    List Action → Option (List (State × Action) × State)
  | [] => some ([], start)
  | action :: rest =>
      (step start action).bind fun after =>
        (follow step after rest).map fun found =>
          ((start, action) :: found.1, found.2)

theorem Run.cons {start after last : State} {action : Action}
    {trace : List (State × Action)} (stepped : step start action = some after)
    (run : Run step after trace last) :
    Run step start ((start, action) :: trace) last := by
  induction run with
  | stay => exact Run.move (.stay) stepped
  | move _ later induction => exact induction.move later

theorem run_of_follow {start last : State} {actions : List Action}
    {trace : List (State × Action)}
    (followed : follow step start actions = some (trace, last)) :
    Run step start trace last := by
  induction actions generalizing start trace with
  | nil =>
      cases followed
      exact .stay
  | cons action rest induction =>
      obtain ⟨after, stepped, followed⟩ := Option.bind_eq_some_iff.mp followed
      obtain ⟨found, later, same⟩ := Option.map_eq_some_iff.mp followed
      cases same
      exact (induction later).cons stepped

theorem actions_of_follow {start last : State} {actions : List Action}
    {trace : List (State × Action)}
    (followed : follow step start actions = some (trace, last)) :
    trace.map Prod.snd = actions := by
  induction actions generalizing start trace with
  | nil =>
      cases followed
      rfl
  | cons action rest induction =>
      obtain ⟨after, -, followed⟩ := Option.bind_eq_some_iff.mp followed
      obtain ⟨found, later, same⟩ := Option.map_eq_some_iff.mp followed
      cases same
      rw [List.map_cons, induction later]

end TransitionRun
