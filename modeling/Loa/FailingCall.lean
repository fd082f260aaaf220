import Loa.OperationProgram

/-!
# One failing call

A run in which one call, by its number, is served by a faulty machine and every
other by the sound one.  `OneFault` says what every such run ends with, by the
call that failed; the rules follow the structure of the program.
-/

namespace Program

variable {Op : Type} {Reply : Op → Type} {World α β : Type}

section Machine

variable (serve fault : (op : Op) → World → Reply op × World)

/-- The run whose call number `point`, from 0, is served by the fault; the sound
run where there is no such call. -/
def runFailing : Nat → Program Op Reply α → World → α × World
  | _, .done value, world => (value, world)
  | 0, .call op next, world =>
      (next (fault op world).1).run serve (fault op world).2
  | point + 1, .call op next, world =>
      runFailing point (next (serve op world).1) (serve op world).2

@[simp]
theorem runFailing_pure (point : Nat) (value : α) (world : World) :
    runFailing serve fault point (pure value) world = (value, world) := by
  cases point <;> rfl

/-- A fault behind the end of the program is none. -/
theorem runFailing_of_le (program : Program Op Reply α) {point : Nat}
    {world : World} (behind : (program.calls serve world).length ≤ point) :
    program.runFailing serve fault point world = program.run serve world := by
  induction program generalizing point world with
  | done value => exact runFailing_pure serve fault point value world
  | call op next induction =>
      simp only [calls, List.length_cons] at behind
      obtain ⟨earlier, rfl⟩ : ∃ earlier, point = earlier + 1 :=
        ⟨point - 1, by omega⟩
      exact induction _ (by omega)

/-- A fault in the first of two programs: the second one runs soundly. -/
theorem runFailing_bind_of_lt (program : Program Op Reply α)
    (next : α → Program Op Reply β) {point : Nat} {world : World}
    (inside : point < (program.calls serve world).length) :
    (program >>= next).runFailing serve fault point world =
      (next (program.runFailing serve fault point world).1).run serve
        (program.runFailing serve fault point world).2 := by
  induction program generalizing point world with
  | done value => cases inside
  | call op rest induction =>
      cases point with
      | zero => exact run_bind serve (rest _) next _
      | succ point =>
          simp only [calls, List.length_cons] at inside
          exact induction _ (by omega)

/-- A fault in the second of two programs. -/
theorem runFailing_bind_of_le (program : Program Op Reply α)
    (next : α → Program Op Reply β) {point : Nat} {world : World}
    (behind : (program.calls serve world).length ≤ point) :
    (program >>= next).runFailing serve fault point world =
      (next (program.run serve world).1).runFailing serve fault
        (point - (program.calls serve world).length)
        (program.run serve world).2 := by
  induction program generalizing point world with
  | done value => rfl
  | call op rest induction =>
      simp only [calls, List.length_cons] at behind ⊢
      obtain ⟨earlier, rfl⟩ : ∃ earlier, point = earlier + 1 :=
        ⟨point - 1, by omega⟩
      have later := @induction (serve op world).1 earlier (serve op world).2
        (by omega)
      have same : earlier + 1 -
          (((rest (serve op world).1).calls serve (serve op world).2).length +
            1) =
          earlier -
            ((rest (serve op world).1).calls serve (serve op world).2).length :=
        by omega
      rw [same]
      exact later

/-- Every run of which one call fails ends with what `ends` says of that
call. -/
def OneFault (ends : Op → α → World → Prop) :
    Program Op Reply α → World → Prop
  | .done _, _ => True
  | .call op next, world =>
      ends op ((next (fault op world).1).run serve (fault op world).2).1
          ((next (fault op world).1).run serve (fault op world).2).2 ∧
        (next (serve op world).1).OneFault ends (serve op world).2

end Machine

variable {serve fault : (op : Op) → World → Reply op × World}
  {ends : Op → α → World → Prop}

theorem OneFault.run_failing {program : Program Op Reply α} {world : World}
    (faulty : OneFault serve fault ends program world) {point : Nat} {op : Op}
    (called : (program.calls serve world)[point]? = some op) :
    ends op (program.runFailing serve fault point world).1
      (program.runFailing serve fault point world).2 := by
  induction program generalizing point world with
  | done value => simp [calls] at called
  | call first next induction =>
      cases point with
      | zero =>
          obtain rfl : first = op := by simpa [calls] using called
          exact faulty.1
      | succ point =>
          exact induction _ faulty.2 (by simpa [calls] using called)

theorem oneFault_pure (value : α) (world : World) :
    OneFault serve fault ends (pure value) world :=
  trivial

theorem oneFault_perform (op : Op) {world : World}
    {ends : Op → Reply op → World → Prop}
    (ended : ends op (fault op world).1 (fault op world).2) :
    OneFault serve fault ends (perform op) world :=
  ⟨ended, trivial⟩

theorem OneFault.mono {program : Program Op Reply α} {world : World}
    {weaker : Op → α → World → Prop}
    (faulty : OneFault serve fault ends program world)
    (implies : ∀ op value after, ends op value after → weaker op value after) :
    OneFault serve fault weaker program world := by
  induction program generalizing world with
  | done value => trivial
  | call op next induction =>
      exact ⟨implies _ _ _ faulty.1, induction _ faulty.2⟩

/-- A fault in the first program is followed by a sound run of the second one
from what it left. -/
theorem oneFault_bind {program : Program Op Reply α}
    {next : α → Program Op Reply β} {ends : Op → β → World → Prop}
    {world : World}
    (first : OneFault serve fault
      (fun op value after => ends op ((next value).run serve after).1
        ((next value).run serve after).2) program world)
    (second : OneFault serve fault ends (next (program.run serve world).1)
      (program.run serve world).2) :
    OneFault serve fault ends (program >>= next) world := by
  induction program generalizing world with
  | done value => exact second
  | call op rest induction =>
      obtain ⟨failed, later⟩ := first
      refine ⟨?_, induction _ later second⟩
      have whole := run_bind serve (rest (fault op world).1) next
        (fault op world).2
      change ends op ((rest (fault op world).1 >>= next).run serve _).1
        ((rest (fault op world).1 >>= next).run serve _).2
      rw [whole]
      exact failed

/-- Sequencing of programs that may stop with an error. -/
theorem oneFault_exceptBind {ε : Type}
    {program : ExceptT ε (Program Op Reply) α}
    {next : α → ExceptT ε (Program Op Reply) β}
    {ends : Op → Except ε β → World → Prop} {world : World}
    (first : OneFault serve fault
      (fun op result after =>
        match result with
        | .ok value => ends op ((next value).run.run serve after).1
            ((next value).run.run serve after).2
        | .error error => ends op (.error error) after)
      program.run world)
    (second : ∀ value, (program.run.run serve world).1 = .ok value →
      OneFault serve fault ends (next value).run
        (program.run.run serve world).2) :
    OneFault serve fault ends (program >>= next).run world := by
  rw [ExceptT.run_bind]
  apply oneFault_bind
  · apply first.mono
    intro op result after ended
    cases result with
    | ok value => exact ended
    | error error => exact ended
  · cases result : (program.run.run serve world).1 with
    | ok value => exact second value result
    | error error => exact oneFault_pure _ _

/-- A lifted program whose value the second one gets. -/
theorem oneFault_exceptLift {ε : Type} {program : Program Op Reply α}
    {next : α → ExceptT ε (Program Op Reply) β}
    {ends : Op → Except ε β → World → Prop} {world : World}
    (first : OneFault serve fault
      (fun op value after => ends op ((next value).run.run serve after).1
        ((next value).run.run serve after).2) program world)
    (second : OneFault serve fault ends (next (program.run serve world).1).run
      (program.run serve world).2) :
    OneFault serve fault ends (ExceptT.lift program >>= next).run world := by
  have lifted : (ExceptT.lift program >>= next).run =
      program >>= fun value => (next value).run := ExceptT.run_bind_lift _ _
  rw [lifted]
  exact oneFault_bind first second

theorem OneFault.of_uses {allowed : Op → Prop} {program : Program Op Reply α}
    {world : World} (uses : Uses allowed program)
    (faulty : OneFault serve fault
      (fun op value after => allowed op → ends op value after)
      program world) :
    OneFault serve fault ends program world := by
  induction program generalizing world with
  | done value => trivial
  | call op next induction =>
      obtain ⟨permitted, rest⟩ := uses_call.mp uses
      exact ⟨faulty.1 permitted, induction _ (rest _) faulty.2⟩

/-- Where the fault is none, the run ends as the sound one does. -/
theorem OneFault.of_harmless {harmless : Op → Prop}
    (same : ∀ op world, harmless op → fault op world = serve op world)
    {program : Program Op Reply α} {world : World}
    (sound : ∀ op, harmless op →
      ends op (program.run serve world).1 (program.run serve world).2)
    (faulty : OneFault serve fault
      (fun op value after => ¬harmless op → ends op value after)
      program world) :
    OneFault serve fault ends program world := by
  induction program generalizing world with
  | done value => trivial
  | call op next induction =>
      refine ⟨?_, induction _ sound faulty.2⟩
      by_cases harms : harmless op
      · rw [same op world harms]
        exact sound op harms
      · exact faulty.1 harms

/-- What every call of a program keeps, whether served or failing, a run with
one failing call keeps. -/
theorem Uses.oneFault {allowed : Op → Prop} {invariant : World → Prop}
    {program : Program Op Reply α} (uses : Uses allowed program)
    (served : ∀ op world, allowed op → invariant world →
      invariant (serve op world).2)
    (failed : ∀ op world, allowed op → invariant world →
      invariant (fault op world).2)
    {world : World} (before : invariant world) :
    OneFault serve fault (fun op _ after => allowed op ∧ invariant after)
      program world := by
  induction program generalizing world with
  | done value => trivial
  | call op next induction =>
      obtain ⟨permitted, rest⟩ := uses_call.mp uses
      refine ⟨⟨permitted, ?_⟩,
        induction _ (rest _) (served op world permitted before)⟩
      have guarded : Guarded serve invariant (fun _ _ => True)
          (next (fault op world).1) (fault op world).2 :=
        (rest _).guarded served (failed op world permitted before)
      exact guarded.run_post.1

attribute [irreducible] OneFault

end Program
