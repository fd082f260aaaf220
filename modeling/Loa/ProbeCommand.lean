import Loa.ThrottleReaders
import Loa.TransitionRun

/-!
# A command with a time limit

A probe runs a command, looks every ten milliseconds whether it has ended, and
reads its output only then.  A pipe holds so many bytes and no more, so a command
that writes more than a pipe holds waits for a reader that never comes, until it
is killed at the limit.  What a probe gets is all of the output or none of it,
but for a command that a signal ended.
-/

namespace FaultDaemon

open RustText
open TransitionRun (Run)

/-- What a child writes to. -/
inductive Port
  | stdout
  | stderr
  deriving DecidableEq

/-- A command: what its shell writes, byte by byte, and its exit code. -/
structure Command where
  script : List (Port × UInt8)
  code : Int

/-- All that is written to a port. -/
def written (port : Port) (script : List (Port × UInt8)) : Bytes :=
  (script.filter fun entry => entry.1 = port).map Prod.snd

/-- The child, its pipes, and what `run_timeout` has returned.  A child that has
ended has an exit code, unless a signal ended it. -/
structure Probe where
  left : List (Port × UInt8)
  held : Port → Bytes
  ended : Option (Option Int)
  result : Option (Int × String × String)

/-- What the child does, and what a turn of the loop comes to: it looks so long
after the start, or the output or the child itself cannot be read. -/
inductive Probe.Event
  | put
  | exit
  | signal
  | poll (elapsed : Nat)
  | unread
  | fail (text : String)

namespace Probe

def start (command : Command) : Probe where
  left := command.script
  held := fun _ => []
  ended := none
  result := none

def text (bytes : Bytes) : String :=
  trim (fromUtf8Lossy bytes)

/-- One step of the child, or one turn of the loop. -/
def step (command : Command) (capacity limit : Nat) (probe : Probe)
    (event : Event) : Option Probe :=
  match probe.result with
  | some _ => none
  | none =>
      match event with
      | .put =>
          match probe.ended, probe.left with
          | none, (port, byte) :: rest =>
              -- a write waits where the pipe is full
              if (probe.held port).length < capacity then
                some
                  { probe with
                    left := rest
                    held := Function.update probe.held port
                      (probe.held port ++ [byte]) }
              else none
          | _, _ => none
      | .exit =>
          match probe.ended, probe.left with
          | none, [] => some { probe with ended := some (some command.code) }
          | _, _ => none
      | .signal =>
          match probe.ended with
          | none => some { probe with ended := some none }
          | some _ => none
      | .poll elapsed =>
          match probe.ended with
          | some code =>
              some
                { probe with
                  result := some (code.getD (-1), text (probe.held .stdout),
                    text (probe.held .stderr)) }
          | none =>
              if limit ≤ elapsed then
                some { probe with result := some (1, "", "TimeoutExpired") }
              else some probe
      | .unread =>
          match probe.ended with
          | some _ => some { probe with result := some (-1, "", "") }
          | none => none
      | .fail text =>
          some { probe with result := some (1, "", "OSError: " ++ text) }

/-- What a run of a command can come to, and what it says on the other port. -/
inductive Outcome (command : Command) (capacity : Nat) :
    Option CommandOutput → String → Prop
  | whole
      (fits : ∀ port, (written port command.script).length ≤ capacity) :
      Outcome command capacity
        (some ⟨some command.code, written .stdout command.script⟩)
        (text (written .stderr command.script))
  | cut {out err : Bytes} (outPrefix : out <+: written .stdout command.script)
      (errPrefix : err <+: written .stderr command.script) :
      Outcome command capacity (some ⟨none, out⟩) (text err)
  | unread : Outcome command capacity (some ⟨none, []⟩) ""
  | expired : Outcome command capacity none "TimeoutExpired"
  | failed (text : String) : Outcome command capacity none ("OSError: " ++ text)

/-- What the probe is told of the output, with the text of the other port. -/
def returned (output : Option CommandOutput) (err : String) :
    Int × String × String :=
  ((run output).1, (run output).2, err)

variable {command : Command} {capacity limit : Nat} {probe after : Probe}

/-- What was written is in the pipes, which hold no more than they can; a child
that ended by itself has written everything. -/
structure Sound (command : Command) (capacity : Nat) (probe : Probe) : Prop where
  order : ∀ port, probe.held port ++ written port probe.left =
    written port command.script
  bounded : ∀ port, (probe.held port).length ≤ capacity
  done : ∀ code, probe.ended = some (some code) →
    code = command.code ∧ probe.left = []
  result : ∀ found ∈ probe.result, ∃ output err,
    found = returned output err ∧ Outcome command capacity output err

theorem sound_start (command : Command) (capacity : Nat) :
    (start command).Sound command capacity where
  order := fun _ => rfl
  bounded := fun _ => Nat.zero_le _
  done := by
    intro code ended
    cases ended
  result := by
    intro found member
    cases member

theorem written_cons (port other : Port) (byte : UInt8)
    (rest : List (Port × UInt8)) :
    written port ((other, byte) :: rest) =
      (if other = port then [byte] else []) ++ written port rest := by
  unfold written
  by_cases same : other = port
  · simp [same]
  · simp [same]

/-- What is collected from a child that has ended. -/
theorem Sound.collected (sound : probe.Sound command capacity)
    {code : Option Int} (ended : probe.ended = some code) :
    Outcome command capacity (some ⟨code, probe.held .stdout⟩)
      (text (probe.held .stderr)) := by
  cases code with
  | none =>
      exact .cut ⟨_, sound.order .stdout⟩ ⟨_, sound.order .stderr⟩
  | some code =>
      obtain ⟨rfl, done⟩ := sound.done code ended
      have all (port : Port) : probe.held port = written port command.script := by
        have order := sound.order port
        rw [done] at order
        exact (List.append_nil _).symm.trans order
      have fits (port : Port) :
          (written port command.script).length ≤ capacity := by
        rw [← all port]
        exact sound.bounded port
      rw [all, all]
      exact .whole fits

theorem Sound.step {event : Event}
    (stepped : probe.step command capacity limit event = some after)
    (sound : probe.Sound command capacity) : after.Sound command capacity := by
  unfold Probe.step at stepped
  split at stepped
  · cases stepped
  rename_i unfinished
  cases event with
  | put =>
      dsimp only at stepped
      split at stepped
      · rename_i port byte rest running left
        split_ifs at stepped with room
        cases stepped
        refine ⟨fun other => ?_, fun other => ?_, fun code ended => ?_, ?_⟩
        · have order := sound.order other
          rw [left, written_cons] at order
          by_cases same : port = other
          · subst same
            simpa using order
          · rw [if_neg same, List.nil_append] at order
            dsimp only
            rw [Function.update_of_ne (Ne.symm same)]
            exact order
        · by_cases same : other = port
          · subst same
            simp only [Function.update_self, List.length_append,
              List.length_singleton]
            omega
          · dsimp only
            rw [Function.update_of_ne same]
            exact sound.bounded other
        · rw [running] at ended
          cases ended
        · intro found member
          rw [unfinished] at member
          cases member
      · cases stepped
  | exit =>
      dsimp only at stepped
      split at stepped
      · rename_i running left
        cases stepped
        refine ⟨sound.order, sound.bounded, fun code ended => ?_,
          sound.result⟩
        cases ended
        exact ⟨rfl, left⟩
      · cases stepped
  | signal =>
      dsimp only at stepped
      split at stepped
      · cases stepped
        refine ⟨sound.order, sound.bounded, fun code ended => ?_,
          sound.result⟩
        cases ended
      · cases stepped
  | poll elapsed =>
      dsimp only at stepped
      split at stepped
      · rename_i code ended
        cases stepped
        refine ⟨sound.order, sound.bounded, sound.done, ?_⟩
        intro found member
        obtain rfl := Option.some.inj member
        exact ⟨some ⟨code, probe.held .stdout⟩, _, rfl, sound.collected ended⟩
      · split_ifs at stepped
        · cases stepped
          refine ⟨sound.order, sound.bounded, sound.done, ?_⟩
          intro found member
          obtain rfl := Option.some.inj member
          exact ⟨none, _, rfl, .expired⟩
        · cases stepped
          exact sound
  | unread =>
      dsimp only at stepped
      split at stepped
      · cases stepped
        refine ⟨sound.order, sound.bounded, sound.done, ?_⟩
        intro found member
        obtain rfl := Option.some.inj member
        exact ⟨some ⟨none, []⟩, "", by decide +kernel, .unread⟩
      · cases stepped
  | fail text =>
      cases stepped
      refine ⟨sound.order, sound.bounded, sound.done, ?_⟩
      intro found member
      obtain rfl := Option.some.inj member
      exact ⟨none, _, rfl, .failed text⟩

/-- What a turn of the loop returns if it returns: what is in the pipes of a child
that has ended, or that the time is over. -/
def collected (probe : Probe) : Int × String × String :=
  match probe.ended with
  | some code =>
      returned (some ⟨code, probe.held .stdout⟩) (text (probe.held .stderr))
  | none => returned none "TimeoutExpired"

/-- A turn at which the child has ended, or the time is over. -/
def Due (limit elapsed : Nat) (probe : Probe) : Prop :=
  probe.ended.isSome ∨ limit ≤ elapsed

theorem result_of_due {elapsed : Nat} (due : probe.Due limit elapsed)
    (stepped : probe.step command capacity limit (.poll elapsed) = some after) :
    after.result = some probe.collected := by
  unfold Probe.step at stepped
  split at stepped
  · cases stepped
  dsimp only at stepped
  unfold collected
  split at stepped
  · cases stepped
    rfl
  · rename_i running
    have late : limit ≤ elapsed := by
      rcases due with ended | late
      · rw [running] at ended
        cases ended
      · exact late
    rw [if_pos late] at stepped
    cases stepped
    rfl

/-- The loop ends with the first turn that is due. -/
theorem ends_with_due {trace : List (Probe × Event)} {last : Probe}
    (ran : Run (Probe.step command capacity limit) (start command) trace last)
    {before : Probe} {elapsed : Nat} (member : (before, .poll elapsed) ∈ trace)
    (due : before.Due limit elapsed) : last.result = some before.collected := by
  induction ran with
  | stay => cases member
  | @move trace middle after event ran stepped induction =>
      rcases List.mem_append.mp member with old | new
      · have finished := induction old
        unfold Probe.step at stepped
        rw [finished] at stepped
        cases stepped
      · obtain ⟨rfl, rfl⟩ := Prod.mk.inj (List.mem_singleton.mp new)
        exact result_of_due due stepped

theorem sound_of_run {trace : List (Probe × Event)} {last : Probe}
    (ran : Run (Probe.step command capacity limit) (start command) trace last) :
    last.Sound command capacity := by
  refine ran.kept (sound_start command capacity) ?_
  intro before event after stepped
  exact Sound.step stepped

/-- In every run of a command with a time limit: what is returned is all of the
output of a command that ended by itself, and no port had more than its pipe
holds; or the beginning of it, with the code -1, where a signal ended it or it
could not be read; or nothing, with the code 1.  The loop returns at the first
turn at which the child has ended or the time is over, and what it returns for a
child that ended by itself is all of its output. -/
theorem run_whole_or_nothing {trace : List (Probe × Event)} {last : Probe}
    (ran : Run (Probe.step command capacity limit) (start command) trace last) :
    (∀ found ∈ last.result, ∃ output err,
      found = returned output err ∧ Outcome command capacity output err) ∧
      (∀ before elapsed, (before, .poll elapsed) ∈ trace →
        before.Due limit elapsed → last.result = some before.collected) ∧
      (∀ before elapsed code, (before, .poll elapsed) ∈ trace →
        before.ended = some (some code) →
        last.result = some (returned
          (some ⟨some command.code, written .stdout command.script⟩)
          (text (written .stderr command.script)))) := by
  refine ⟨(sound_of_run ran).result, fun before elapsed member due =>
    ends_with_due ran member due, fun before elapsed code member ended => ?_⟩
  obtain ⟨earlier, later, rfl⟩ := List.append_of_mem member
  obtain ⟨sofar, -⟩ := ran.split
  obtain ⟨rfl, done⟩ := (sound_of_run sofar).done code ended
  have all (port : Port) : before.held port = written port command.script := by
    have order := (sound_of_run sofar).order port
    rw [done] at order
    exact (List.append_nil _).symm.trans order
  rw [ends_with_due ran member (.inl (by rw [ended]; rfl)), collected, ended]
  dsimp only
  rw [all, all]

/-- A command that writes more than a pipe holds is never read: it comes to its
time limit, to a signal, or to an error. -/
theorem returned_of_overfull {trace : List (Probe × Event)} {last : Probe}
    (ran : Run (Probe.step command capacity limit) (start command) trace last)
    {port : Port} (beyond : capacity < (written port command.script).length)
    {found : Int × String × String} (member : found ∈ last.result) :
    found.1 = -1 ∨ found.1 = 1 ∧ found.2.1 = "" := by
  obtain ⟨output, err, rfl, outcome⟩ := (sound_of_run ran).result found member
  cases outcome with
  | whole fits => exact absurd (fits port) (by omega)
  | cut | unread => exact .inl rfl
  | expired | failed => exact .inr ⟨rfl, rfl⟩

/-- Two bytes and an exit, seen at the second look. -/
def echo : Command :=
  ⟨[(.stdout, 0x6F), (.stdout, 0x6B)], 0⟩

def echoed : List Event :=
  [.put, .poll 0, .put, .exit, .poll 10]

theorem run_whole_or_nothing_echo :
    ∃ trace last, Run (Probe.step echo 65536 8000) (start echo) trace last ∧
      trace.map Prod.snd = echoed ∧
      last.result = some (returned (some ⟨some 0, [0x6F, 0x6B]⟩) (text [])) := by
  have followed : TransitionRun.follow (Probe.step echo 65536 8000) (start echo)
      echoed = some (_, _) :=
    rfl
  have run := TransitionRun.run_of_follow followed
  have found := (run_whole_or_nothing run).2.2
  exact ⟨_, _, run, TransitionRun.actions_of_follow followed,
    found _ 10 0 (List.mem_of_getLast? rfl) rfl⟩

end Probe

end FaultDaemon
