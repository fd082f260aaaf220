import Loa.OperationProgram
import Mathlib.Order.Defs.Unbundled

/-!
# Programs that share a machine

Several threads work through jobs, each job a program of operations, and take
turns operation by operation on one world.  A run is an interleaving, of which
every operation meets a condition on the world that it finds.

`Shielded rely guarantee may post` judges one thread: whatever the others do
between its operations, as long as it is in `rely`, each of its operations is in
`guarantee` and its result meets `post`.  When every thread's guarantee is in
the rely of every other thread, the judgements hold together in every run.
-/

namespace Program

variable {Op : Type} {Reply : Op → Type} {World α β : Type}

section Judgement

variable (serve : (op : Op) → World → Reply op × World)
  (rely guarantee : World → World → Prop) (may : World → Op → Prop)

/-- However the world has moved on within `rely` before each operation: the
operation, where it may be made, moves it on within `guarantee`, and the result
meets `post`. -/
def Shielded (post : α → World → Prop) : Program Op Reply α → World → Prop
  | .done value, world => ∀ later, rely world later → post value later
  | .call op next, world => ∀ later, rely world later → may later op →
      guarantee later (serve op later).2 ∧
        (next (serve op later).1).Shielded post (serve op later).2

variable {serve rely guarantee may} {post : α → World → Prop}

theorem shielded_pure {value : α} {world : World}
    (met : ∀ later, rely world later → post value later) :
    Shielded serve rely guarantee may post (pure value) world :=
  met

theorem Shielded.met [Std.Refl rely] {value : α} {world : World}
    (shielded : Shielded serve rely guarantee may post (.done value) world) :
    post value world :=
  shielded world (refl world)

theorem Shielded.call [Std.Refl rely] {op : Op}
    {next : Reply op → Program Op Reply α} {world : World}
    (shielded : Shielded serve rely guarantee may post (.call op next) world)
    (permitted : may world op) :
    guarantee world (serve op world).2 ∧
      Shielded serve rely guarantee may post (next (serve op world).1)
        (serve op world).2 :=
  shielded world (refl world) permitted

theorem shielded_perform (op : Op) {world : World}
    {post : Reply op → World → Prop}
    (served : ∀ later, rely world later → may later op →
      guarantee later (serve op later).2 ∧
        ∀ last, rely (serve op later).2 last →
          post (serve op later).1 last) :
    Shielded serve rely guarantee may post (perform op) world :=
  served

/-- A thread stays shielded while the others work. -/
theorem Shielded.later [IsTrans World rely] {program : Program Op Reply α}
    {world later : World}
    (shielded : Shielded serve rely guarantee may post program world)
    (moved : rely world later) :
    Shielded serve rely guarantee may post program later := by
  cases program with
  | done value => exact fun last after => shielded last (trans_of rely moved after)
  | call op next =>
      exact fun last after => shielded last (trans_of rely moved after)

theorem Shielded.mono {program : Program Op Reply α} {world : World}
    {weaker : α → World → Prop}
    (shielded : Shielded serve rely guarantee may post program world)
    (implies : ∀ value after, post value after → weaker value after) :
    Shielded serve rely guarantee may weaker program world := by
  induction program generalizing world with
  | done value =>
      exact fun later moved => implies value later (shielded later moved)
  | call op next induction =>
      intro later moved permitted
      obtain ⟨kept, rest⟩ := shielded later moved permitted
      exact ⟨kept, induction _ rest⟩

/-- Sequencing. -/
theorem shielded_bind [Std.Refl rely] {program : Program Op Reply α}
    {next : α → Program Op Reply β} {post : β → World → Prop} {world : World}
    (first : Shielded serve rely guarantee may
      (fun value after => Shielded serve rely guarantee may post (next value)
        after) program world) :
    Shielded serve rely guarantee may post (program >>= next) world := by
  induction program generalizing world with
  | done value => exact first.met
  | call op rest induction =>
      intro later moved permitted
      obtain ⟨kept, after⟩ := first later moved permitted
      exact ⟨kept, induction _ after⟩

/-- Sequencing of programs that may stop with an error. -/
theorem shielded_exceptBind [Std.Refl rely] [IsTrans World rely] {ε : Type}
    {program : ExceptT ε (Program Op Reply) α}
    {next : α → ExceptT ε (Program Op Reply) β}
    {post : Except ε β → World → Prop} {world : World}
    (first : Shielded serve rely guarantee may
      (fun result after =>
        match result with
        | .ok value =>
            Shielded serve rely guarantee may post (next value).run after
        | .error error => ∀ later, rely after later →
            post (.error error) later)
      program.run world) :
    Shielded serve rely guarantee may post (program >>= next).run world := by
  rw [ExceptT.run_bind]
  apply shielded_bind
  apply first.mono
  intro result after met
  cases result with
  | ok value => exact met
  | error error => exact shielded_pure met

/-- A program whose operations all move the world on within the rely as well:
so does the program. -/
theorem Uses.shielded [Std.Refl rely] [IsTrans World rely] {allowed : Op → Prop}
    {program : Program Op Reply α} (uses : Uses allowed program)
    (served : ∀ op world, allowed op → guarantee world (serve op world).2 ∧
      rely world (serve op world).2)
    (world : World) :
    Shielded serve rely guarantee may (fun _ after => rely world after) program
      world := by
  induction program generalizing world with
  | done value => exact fun _ moved => moved
  | call op next induction =>
      obtain ⟨permitted, rest⟩ := uses_call.mp uses
      intro later moved _
      obtain ⟨kept, after⟩ := served op later permitted
      refine ⟨kept, (induction _ (rest _) _).mono ?_⟩
      exact fun _ last ends =>
        trans_of rely moved (trans_of rely after ends)

/-- A program of operations that change nothing, and that the others leave the
same replies, has the result of a run by itself. -/
theorem Uses.shielded_run [Std.Refl rely] [IsTrans World rely]
    {allowed : Op → Prop} {program : Program Op Reply α}
    (uses : Uses allowed program) {start : World}
    (still : ∀ op world, allowed op → (serve op world).2 = world)
    (kept : ∀ world, guarantee world world)
    (same : ∀ op later, allowed op → rely start later →
      (serve op later).1 = (serve op start).1) :
    Shielded serve rely guarantee may
      (fun value after => value = (program.run serve start).1 ∧
        rely start after)
      program start := by
  have every (later : World) (moved : rely start later) :
      Shielded serve rely guarantee may
        (fun value after => value = (program.run serve start).1 ∧
          rely start after)
        program later := by
    induction program generalizing later with
    | done value =>
        exact fun last after => ⟨rfl, trans_of rely moved after⟩
    | call op next induction =>
        obtain ⟨permitted, rest⟩ := uses_call.mp uses
        intro last after _
        have reached := trans_of rely moved after
        rw [still op last permitted, same op last permitted reached]
        refine ⟨kept last, ?_⟩
        have whole : (run serve (.call op next) start).1 =
            ((next (serve op start).1).run serve start).1 := by
          change ((next (serve op start).1).run serve (serve op start).2).1 = _
          rw [still op start permitted]
        rw [whole]
        exact induction _ (rest _) last reached
  exact every start (refl start)

end Judgement

attribute [irreducible] Shielded

/-- Threads over one world, each with its jobs and the program of a job, and a
machine that serves them. -/
structure Workshop (Op : Type) (Reply : Op → Type) (Thread World : Type) where
  Job : Thread → Type
  Result : Thread → Type
  program : (thread : Thread) → Job thread → Program Op Reply (Result thread)
  serve : Thread → (op : Op) → World → Reply op × World

namespace Workshop

variable {Thread : Type} (shop : Workshop Op Reply Thread World)

/-- A thread at work: its job, the world in which it took the job up, and what
is left of the program. -/
structure Worker (thread : Thread) where
  job : shop.Job thread
  began : World
  rest : Program Op Reply (shop.Result thread)

/-- A job that is being taken up. -/
def hire (world : World) (thread : Thread) (job : shop.Job thread) :
    shop.Worker thread :=
  ⟨job, world, shop.program thread job⟩

/-- All threads at work, and the world. -/
structure Shift where
  workers : (thread : Thread) → shop.Worker thread
  world : World

variable [DecidableEq Thread]

/-- The shift in which one thread is replaced. -/
def Shift.turn {shop : Workshop Op Reply Thread World} (shift : shop.Shift)
    (thread : Thread) (worker : shop.Worker thread) (world : World) :
    shop.Shift :=
  ⟨Function.update shift.workers thread worker, world⟩

@[simp]
theorem turn_self {shop : Workshop Op Reply Thread World} (shift : shop.Shift)
    (thread : Thread) (worker : shop.Worker thread) (world : World) :
    (shift.turn thread worker world).workers thread = worker :=
  Function.update_self ..

theorem turn_of_ne {shop : Workshop Op Reply Thread World} (shift : shop.Shift)
    {thread other : Thread} (differ : other ≠ thread)
    (worker : shop.Worker thread) (world : World) :
    (shift.turn thread worker world).workers other = shift.workers other :=
  Function.update_of_ne differ ..

/-- The shifts that are reached when each operation is made in a world where it
may be. -/
inductive Run (may : Thread → World → Op → Prop) (start : shop.Shift) :
    shop.Shift → Prop
  | start : Run may start start
  | operate {shift : shop.Shift} (reached : Run may start shift)
      (thread : Thread) {op : Op}
      {next : Reply op → Program Op Reply (shop.Result thread)}
      (at_call : (shift.workers thread).rest = .call op next)
      (permitted : may thread shift.world op) :
      Run may start (shift.turn thread
        { shift.workers thread with
          rest := next (shop.serve thread op shift.world).1 }
        (shop.serve thread op shift.world).2)
  | take {shift : shop.Shift} (reached : Run may start shift)
      (thread : Thread) {value : shop.Result thread}
      (at_end : (shift.workers thread).rest = .done value)
      (job : shop.Job thread) :
      Run may start (shift.turn thread (shop.hire shift.world thread job)
        shift.world)

/-- The shift in which every thread takes up a job. -/
def opening (jobs : (thread : Thread) → shop.Job thread) (world : World) :
    shop.Shift :=
  ⟨fun thread => shop.hire world thread (jobs thread), world⟩

@[simp]
theorem turn_turn {shop : Workshop Op Reply Thread World} (shift : shop.Shift)
    (thread : Thread) (first second : shop.Worker thread)
    (early late : World) :
    (shift.turn thread first early).turn thread second late =
      shift.turn thread second late := by
  simp [Shift.turn]

theorem turn_eq_self {shop : Workshop Op Reply Thread World}
    (shift : shop.Shift) (thread : Thread) :
    shift.turn thread (shift.workers thread) shift.world = shift := by
  simp [Shift.turn]

/-- From this shift one thread alone can come to have this left of its program,
in this world. -/
def Reaches (may : Thread → World → Op → Prop) (start shift : shop.Shift)
    (thread : Thread) (rest : Program Op Reply (shop.Result thread))
    (world : World) : Prop :=
  shop.Run may start
    (shift.turn thread { shift.workers thread with rest := rest } world)

variable {shop} {may : Thread → World → Op → Prop} {start shift : shop.Shift}
  {thread : Thread}

theorem Run.reaches (reached : shop.Run may start shift) (thread : Thread) :
    shop.Reaches may start shift thread (shift.workers thread).rest
      shift.world := by
  unfold Reaches
  rw [turn_eq_self]
  exact reached

/-- A thread runs a program by itself, in a world where it always may. -/
theorem Reaches.alone {always : World → Prop}
    (keeps : ∀ op world, always world → always (shop.serve thread op world).2)
    (permits : ∀ op world, always world → may thread world op)
    {program : Program Op Reply α}
    {next : α → Program Op Reply (shop.Result thread)} {world : World}
    (held : always world)
    (reached : shop.Reaches may start shift thread (program >>= next) world) :
    shop.Reaches may start shift thread
      (next (program.run (shop.serve thread) world).1)
      (program.run (shop.serve thread) world).2 := by
  induction program generalizing world with
  | done value => exact reached
  | call op rest induction =>
      apply induction _ (keeps op world held)
      have at_call : ((shift.turn thread
          { shift.workers thread with rest := Program.call op rest >>= next }
          world).workers thread).rest =
            .call op fun reply => (rest reply).bind next := by
        rw [turn_self]
        rfl
      have stepped := Run.operate reached thread at_call
        (permits op world held)
      rw [turn_self, turn_turn] at stepped
      exact stepped

end Workshop

/-- What the threads promise one another: each has a rely and a guarantee, finds
the world idle when it takes up a job, works through the job shielded, and
leaves the world idle with an answer to the job. -/
structure Contract {Thread : Type} (shop : Workshop Op Reply Thread World)
    (may : Thread → World → Op → Prop) where
  rely : Thread → World → World → Prop
  guarantee : Thread → World → World → Prop
  idle : Thread → World → Prop
  answers : (thread : Thread) → shop.Job thread → World → shop.Result thread →
    Prop
  refl : ∀ thread, Std.Refl (rely thread)
  trans : ∀ thread, IsTrans World (rely thread)
  spares : ∀ {thread other : Thread} {before after : World}, other ≠ thread →
    guarantee thread before after → rely other before after
  works : ∀ (thread : Thread) (job : shop.Job thread) (world : World),
    idle thread world →
      Shielded (shop.serve thread) (rely thread) (guarantee thread)
        (may thread)
        (fun value after => idle thread after ∧ answers thread job world value)
        (shop.program thread job) world

namespace Contract

variable {Thread : Type} [DecidableEq Thread]
  {shop : Workshop Op Reply Thread World} {may : Thread → World → Op → Prop}
  (contract : Contract shop may)

/-- A thread is on its way to an answer. -/
def OnTheWay (world : World) (thread : Thread) (worker : shop.Worker thread) :
    Prop :=
  Shielded (shop.serve thread) (contract.rely thread)
    (contract.guarantee thread) (may thread)
    (fun value after => contract.idle thread after ∧
      contract.answers thread worker.job worker.began value)
    worker.rest world

variable {contract}

/-- An operation of one thread leaves every thread on its way. -/
theorem onTheWay_operate {shift : shop.Shift}
    (working : ∀ thread,
      contract.OnTheWay shift.world thread (shift.workers thread))
    (thread : Thread) {op : Op}
    {next : Reply op → Program Op Reply (shop.Result thread)}
    (at_call : (shift.workers thread).rest = .call op next)
    (permitted : may thread shift.world op) :
    contract.guarantee thread shift.world
        (shop.serve thread op shift.world).2 ∧
      ∀ other, contract.OnTheWay (shop.serve thread op shift.world).2 other
        ((shift.turn thread
          { shift.workers thread with
            rest := next (shop.serve thread op shift.world).1 }
          (shop.serve thread op shift.world).2).workers other) := by
  have _ := contract.refl thread
  have own := working thread
  unfold OnTheWay at own
  rw [at_call] at own
  obtain ⟨kept, rest⟩ := own.call permitted
  refine ⟨kept, fun other => ?_⟩
  by_cases same : other = thread
  · subst other
    rw [Workshop.turn_self]
    exact rest
  · have _ := contract.trans other
    rw [Workshop.turn_of_ne _ same]
    exact (working other).later (contract.spares same kept)

theorem onTheWay_take {shift : shop.Shift}
    (working : ∀ thread,
      contract.OnTheWay shift.world thread (shift.workers thread))
    (thread : Thread) {value : shop.Result thread}
    (at_end : (shift.workers thread).rest = .done value)
    (job : shop.Job thread) (other : Thread) :
    contract.OnTheWay shift.world other
      ((shift.turn thread (shop.hire shift.world thread job)
        shift.world).workers other) := by
  by_cases same : other = thread
  · subst other
    have _ := contract.refl thread
    have own := working thread
    unfold OnTheWay at own
    rw [at_end] at own
    rw [Workshop.turn_self]
    exact contract.works thread job shift.world own.met.1
  · rw [Workshop.turn_of_ne _ same]
    exact working other

/-- In every run every thread stays on its way, and what all guarantees keep
holds throughout. -/
theorem onTheWay_run {always : World → Prop}
    (keeps : ∀ thread before after, contract.guarantee thread before after →
      always before → always after)
    {jobs : (thread : Thread) → shop.Job thread} {world : World}
    (idle : ∀ thread, contract.idle thread world) (held : always world)
    {shift : shop.Shift} (run : shop.Run may (shop.opening jobs world) shift) :
    always shift.world ∧ ∀ thread,
      contract.OnTheWay shift.world thread (shift.workers thread) := by
  induction run with
  | start =>
      exact ⟨held, fun thread =>
        contract.works thread (jobs thread) world (idle thread)⟩
  | operate _ thread at_call permitted induction =>
      obtain ⟨before, working⟩ := induction
      obtain ⟨kept, after⟩ :=
        onTheWay_operate working thread at_call permitted
      exact ⟨keeps thread _ _ kept before, after⟩
  | take _ thread at_end job induction =>
      obtain ⟨before, working⟩ := induction
      exact ⟨before, onTheWay_take working thread at_end job⟩

omit [DecidableEq Thread] in
/-- A thread that is done has its answer. -/
theorem OnTheWay.answer {world : World} {thread : Thread}
    {worker : shop.Worker thread} {value : shop.Result thread}
    (working : contract.OnTheWay world thread worker)
    (at_end : worker.rest = .done value) :
    contract.answers thread worker.job worker.began value := by
  have _ := contract.refl thread
  unfold OnTheWay at working
  rw [at_end] at working
  exact working.met.2

end Contract

end Program
