import Mathlib.Logic.Function.Basic

/-!
# Programs of operations on a machine

A program is a tree of operations whose continuation depends on the replies.
A machine serves one operation at a time.  The file gives the complete run of
a program, the world that is left when the program is cut off after some number
of operations, and the two proof rules that the developments above it use:

* `Guarded always post` says that `always` holds in the world before and after
  every operation, so also wherever the program is cut off, and that the result
  meets `post`;
* `Uses allowed` bounds the operations a program can ever perform, whatever the
  replies, so that anything these operations leave alone is left alone by every
  run and every cut.
-/

/-- A program over an interface of operations with typed replies. -/
inductive Program (Op : Type) (Reply : Op → Type) (α : Type) : Type
  | done (value : α)
  | call (op : Op) (next : Reply op → Program Op Reply α)

namespace Program

variable {Op : Type} {Reply : Op → Type} {α β : Type}

/-- Continue a program with what it returned. -/
def bind (program : Program Op Reply α) (next : α → Program Op Reply β) :
    Program Op Reply β :=
  match program with
  | .done value => next value
  | .call op rest => .call op fun reply => (rest reply).bind next

instance : Monad (Program Op Reply) where
  pure := done
  bind := bind

theorem bind_done (program : Program Op Reply α) :
    program.bind done = program := by
  induction program with
  | done value => rfl
  | call op rest induction =>
      exact congrArg (call op) (funext induction)

theorem bind_assoc {γ : Type} (program : Program Op Reply α)
    (first : α → Program Op Reply β) (second : β → Program Op Reply γ) :
    (program.bind first).bind second =
      program.bind fun value => (first value).bind second := by
  induction program with
  | done value => rfl
  | call op rest induction =>
      exact congrArg (call op) (funext induction)

instance : LawfulMonad (Program Op Reply) :=
  LawfulMonad.mk' _ bind_done (fun _ _ => rfl) bind_assoc

/-- The program that performs one operation and returns its reply. -/
def perform (op : Op) : Program Op Reply (Reply op) :=
  .call op .done

section Machine

variable {World : Type} (serve : (op : Op) → World → Reply op × World)

/-- Run a program to its end. -/
def run : Program Op Reply α → World → α × World
  | .done value, world => (value, world)
  | .call op next, world =>
      (next (serve op world).1).run (serve op world).2

/-- The world when the program is cut off after `count` operations. -/
def cut : Nat → Program Op Reply α → World → World
  | 0, _, world => world
  | _ + 1, .done _, world => world
  | count + 1, .call op next, world =>
      (next (serve op world).1).cut count (serve op world).2

/-- The operations of a complete run, in order. -/
def calls : Program Op Reply α → World → List Op
  | .done _, _ => []
  | .call op next, world =>
      op :: (next (serve op world).1).calls (serve op world).2

@[simp]
theorem run_pure (value : α) (world : World) :
    run serve (pure value) world = (value, world) :=
  rfl

@[simp]
theorem run_bind (program : Program Op Reply α)
    (next : α → Program Op Reply β) (world : World) :
    run serve (program >>= next) world =
      run serve (next (run serve program world).1)
        (run serve program world).2 := by
  induction program generalizing world with
  | done value => rfl
  | call op rest induction =>
      exact induction (serve op world).1 (serve op world).2

@[simp]
theorem run_perform (op : Op) (world : World) :
    run serve (perform op) world = serve op world :=
  rfl

@[simp]
theorem calls_pure (value : α) (world : World) :
    calls serve (pure value) world = [] :=
  rfl

@[simp]
theorem calls_bind (program : Program Op Reply α)
    (next : α → Program Op Reply β) (world : World) :
    calls serve (program >>= next) world =
      calls serve program world ++
        calls serve (next (run serve program world).1)
          (run serve program world).2 := by
  induction program generalizing world with
  | done value => rfl
  | call op rest induction =>
      exact congrArg (op :: ·)
        (induction (serve op world).1 (serve op world).2)

@[simp]
theorem calls_perform (op : Op) (world : World) :
    calls serve (perform op) world = [op] :=
  rfl

/-- `always` holds before and after every operation of the run from this
world, and the result and the final world meet `post`. -/
def Guarded (always : World → Prop) (post : α → World → Prop) :
    Program Op Reply α → World → Prop
  | .done value, world => always world ∧ post value world
  | .call op next, world =>
      always world ∧
        (next (serve op world).1).Guarded always post (serve op world).2

variable {serve} {always : World → Prop} {post : α → World → Prop}

theorem guarded_pure {value : α} {world : World} (held : always world)
    (met : post value world) :
    Guarded serve always post (pure value) world :=
  ⟨held, met⟩

theorem guarded_perform {op : Op} {world : World}
    {post : Reply op → World → Prop} (before : always world)
    (after : always (serve op world).2)
    (met : post (serve op world).1 (serve op world).2) :
    Guarded serve always post (perform op) world :=
  ⟨before, after, met⟩

theorem guarded_perform_of_eq {op : Op} {world after : World}
    {reply : Reply op} {post : Reply op → World → Prop}
    (served : serve op world = (reply, after)) (before : always world)
    (result : always after ∧ post reply after) :
    Guarded serve always post (perform op) world := by
  apply guarded_perform before
  · rw [served]
    exact result.1
  · rw [served]
    exact result.2

/-- Sequencing: the second program is guarded from wherever the first one may
end. -/
theorem guarded_bind {program : Program Op Reply α}
    {next : α → Program Op Reply β} {post : β → World → Prop} {world : World}
    (first : Guarded serve always
      (fun value after => Guarded serve always post (next value) after)
      program world) :
    Guarded serve always post (program >>= next) world := by
  induction program generalizing world with
  | done value => exact first.2
  | call op rest induction =>
      exact ⟨first.1, induction (serve op world).1 first.2⟩

theorem Guarded.mono {program : Program Op Reply α} {world : World}
    {wider : World → Prop} {weaker : α → World → Prop}
    (guarded : Guarded serve always post program world)
    (keeps : ∀ after, always after → wider after)
    (implies : ∀ value after, always after → post value after →
      weaker value after) :
    Guarded serve wider weaker program world := by
  induction program generalizing world with
  | done value =>
      exact ⟨keeps world guarded.1, implies value world guarded.1 guarded.2⟩
  | call op rest induction =>
      exact ⟨keeps world guarded.1,
        induction (serve op world).1 guarded.2⟩

theorem Guarded.run_post {program : Program Op Reply α} {world : World}
    (guarded : Guarded serve always post program world) :
    always (run serve program world).2 ∧
      post (run serve program world).1 (run serve program world).2 := by
  induction program generalizing world with
  | done value => exact guarded
  | call op rest induction => exact induction (serve op world).1 guarded.2

/-- The result that a guarded program meets may be read off its run. -/
theorem Guarded.of_run {program : Program Op Reply α} {world : World}
    {other : α → World → Prop}
    (guarded : Guarded serve always other program world)
    (met : post (run serve program world).1 (run serve program world).2) :
    Guarded serve always post program world := by
  induction program generalizing world with
  | done value => exact ⟨guarded.1, met⟩
  | call op rest induction =>
      exact ⟨guarded.1, induction (serve op world).1 guarded.2 met⟩

/-- Wherever a guarded program is cut off, `always` holds. -/
theorem Guarded.cut {program : Program Op Reply α} {world : World}
    (guarded : Guarded serve always post program world) (count : Nat) :
    always (program.cut serve count world) := by
  induction program generalizing world count with
  | done value =>
      cases count with
      | zero => exact guarded.1
      | succ count => exact guarded.1
  | call op rest induction =>
      cases count with
      | zero => exact guarded.1
      | succ count => exact induction (serve op world).1 guarded.2 count

end Machine

section Fallible

variable {World : Type} {serve : (op : Op) → World → Reply op × World}
  {ε : Type}

theorem run_exceptBind (program : ExceptT ε (Program Op Reply) α)
    (next : α → ExceptT ε (Program Op Reply) β) (world : World) :
    run serve (program >>= next).run world =
      match run serve program.run world with
      | (.ok value, after) => run serve (next value).run after
      | (.error error, after) => (.error error, after) := by
  rw [ExceptT.run_bind, run_bind]
  rcases run serve program.run world with ⟨_ | _, after⟩ <;> rfl

theorem run_exceptLift (program : Program Op Reply α) (world : World) :
    run serve (ExceptT.lift program : ExceptT ε (Program Op Reply) α).run
        world =
      (.ok (run serve program world).1, (run serve program world).2) :=
  run_bind serve program (fun value => pure (Except.ok value)) world

theorem calls_exceptBind (program : ExceptT ε (Program Op Reply) α)
    (next : α → ExceptT ε (Program Op Reply) β) (world : World) :
    calls serve (program >>= next).run world =
      calls serve program.run world ++
        match run serve program.run world with
        | (.ok value, after) => calls serve (next value).run after
        | (.error _, _) => [] := by
  rw [ExceptT.run_bind, calls_bind]
  rcases run serve program.run world with ⟨_ | _, after⟩ <;> rfl

/-- Sequencing of programs that may stop with an error. -/
theorem guarded_exceptBind {always : World → Prop}
    {program : ExceptT ε (Program Op Reply) α}
    {next : α → ExceptT ε (Program Op Reply) β}
    {post : Except ε β → World → Prop} {world : World}
    (first : Guarded serve always
      (fun result after =>
        match result with
        | .ok value => Guarded serve always post (next value).run after
        | .error error => post (.error error) after)
      program.run world) :
    Guarded serve always post (program >>= next).run world := by
  rw [ExceptT.run_bind]
  apply guarded_bind
  apply first.mono (fun after held => held)
  intro result after held met
  cases result with
  | ok value => exact met
  | error error => exact guarded_pure held met

end Fallible

/-- Every operation the program can come to is allowed, whatever the
replies. -/
def Uses (allowed : Op → Prop) : Program Op Reply α → Prop
  | .done _ => True
  | .call op next => allowed op ∧ ∀ reply, (next reply).Uses allowed

variable {allowed : Op → Prop}

theorem uses_pure (value : α) :
    Uses allowed (pure value : Program Op Reply α) :=
  trivial

theorem uses_perform {op : Op} (permitted : allowed op) :
    Uses allowed (perform op : Program Op Reply (Reply op)) :=
  ⟨permitted, fun _ => trivial⟩

theorem uses_call {op : Op} {next : Reply op → Program Op Reply α} :
    Uses allowed (call op next) ↔
      allowed op ∧ ∀ reply, Uses allowed (next reply) :=
  Iff.rfl

theorem uses_bind {program : Program Op Reply α}
    {next : α → Program Op Reply β} (first : Uses allowed program)
    (second : ∀ value, Uses allowed (next value)) :
    Uses allowed (program >>= next) := by
  induction program with
  | done value => exact second value
  | call op rest induction =>
      exact ⟨first.1, fun reply => induction reply (first.2 reply)⟩

theorem uses_exceptBind {ε : Type} {program : ExceptT ε (Program Op Reply) α}
    {next : α → ExceptT ε (Program Op Reply) β}
    (first : Uses allowed program.run)
    (second : ∀ value, Uses allowed (next value).run) :
    Uses allowed (program >>= next).run := by
  rw [ExceptT.run_bind]
  apply uses_bind first
  intro result
  cases result with
  | ok value => exact second value
  | error error => exact uses_pure _

theorem Uses.mono {program : Program Op Reply α} {wider : Op → Prop}
    (uses : Uses allowed program) (implies : ∀ op, allowed op → wider op) :
    Uses wider program := by
  induction program with
  | done value => trivial
  | call op rest induction =>
      exact ⟨implies op uses.1, fun reply => induction reply (uses.2 reply)⟩

section Machine

variable {World : Type} {serve : (op : Op) → World → Reply op × World}

theorem Uses.calls {program : Program Op Reply α}
    (uses : Uses allowed program) (world : World) :
    ∀ op ∈ program.calls serve world, allowed op := by
  induction program generalizing world with
  | done value => simp [Program.calls]
  | call op rest induction =>
      intro performed member
      rcases List.mem_cons.mp member with rfl | later
      · exact uses.1
      · exact induction _ (uses.2 _) _ performed later

/-- What every allowed operation keeps, the program keeps throughout. -/
theorem Uses.guarded {program : Program Op Reply α}
    (uses : Uses allowed program) {always : World → Prop}
    (keeps : ∀ op world, allowed op → always world →
      always (serve op world).2)
    {world : World} (held : always world) :
    Guarded serve always (fun _ _ => True) program world := by
  induction program generalizing world with
  | done value => exact ⟨held, trivial⟩
  | call op rest induction =>
      exact ⟨held, induction (serve op world).1 (uses.2 _)
        (keeps op world uses.1 held)⟩

/-- An observation that no allowed operation changes is the same after the
run. -/
theorem Uses.run_eq {Seen : Type} {program : Program Op Reply α}
    (uses : Uses allowed program) {observe : World → Seen}
    (keeps : ∀ op world, allowed op →
      observe (serve op world).2 = observe world)
    (world : World) :
    observe (run serve program world).2 = observe world := by
  have guarded : Guarded serve
      (fun current => observe current = observe world) (fun _ _ => True)
      program world :=
    uses.guarded
      (fun op current permitted same =>
        (keeps op current permitted).trans same)
      rfl
  exact guarded.run_post.1

end Machine

-- The two judgements are used through their rules only; unfolding them would
-- evaluate the program.
attribute [irreducible] Guarded Uses

end Program
