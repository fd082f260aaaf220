import Loa.CortexEffects
import Loa.SettingsAdoption
import Loa.VaultSeal
import Mathlib.Data.List.GetD

/-!
# The door as a state machine

Commands that come through the door move the cortex from one known picture to
another: the words of the state stay in their vocabularies, a refusal moves
nothing, and `feel` with `next` walks the mood table around.
-/

namespace Cortex

open FileDirectory Json

/-- The words that the ring's state may have. -/
def RING_STATES : List String :=
  ["home", "busy", "alarm"]

/-- The state's words are words that the cortex knows. -/
structure Known (st : State) : Prop where
  mood : st.mood ∈ MOODS.map Mood.name
  page : st.page ∈ PAGES
  oledMode : st.oledMode ∈ DISPLAY_MODES
  ringState : st.ringState ∈ RING_STATES

/-- The commands that are logged once they are accepted: a `feel`, a `display`
that gives a mode, a dim or a flip, and a `ripperdoc` that gives `on`. -/
def LogsEvent (command : Vault.Command) : Prop :=
  command.cmd = "feel" ∨
    (command.cmd = "display" ∧
      (((command.args.get "mode").bind Value.asStr).isSome ∨
        ((command.args.get "dim").bind Value.asBool).isSome ∨
        ((command.args.get "flip").bind Value.asBool).isSome)) ∨
    (command.cmd = "ripperdoc" ∧
      ((command.args.get "on").bind Value.asBool).isSome)

/-- What a command can come to. -/
inductive Outcome (cx : Cortex) (command : Vault.Command) : Dispatched → Prop
  | refused {out : Out} (bad : 400 ≤ out.status) :
      Outcome cx command ⟨out, none, cx⟩
  | answered {out : Out} (good : out.status = 200)
      (quiet : ¬ LogsEvent command) : Outcome cx command ⟨out, none, cx⟩
  | felt {out : Out} {detail : Value} {mood : Mood} (good : out.status = 200)
      (logs : LogsEvent command) (known : mood ∈ MOODS) :
      Outcome cx command ⟨out, some ("mood", detail), cx.wear mood⟩
  | showed {out : Out} {detail : Value} {mode text : Option String}
      {dim flip : Option Bool} (good : out.status = 200)
      (logs : LogsEvent command) (known : ∀ m ∈ mode, m ∈ DISPLAY_MODES) :
      Outcome cx command
        ⟨out, some ("display", detail), cx.shown mode text dim flip⟩
  | consoled {out : Out} {detail : Value} {on : Bool} {page : Option String}
      (good : out.status = 200) (logs : LogsEvent command)
      (known : ∀ p ∈ page, p ∈ PAGES) :
      Outcome cx command
        ⟨out, some ("ripperdoc", detail), (cx.turned page).consoled on⟩
  | paged {out : Out} {page : Option String} (good : out.status = 200)
      (quiet : ¬ LogsEvent command) (known : ∀ p ∈ page, p ∈ PAGES) :
      Outcome cx command ⟨out, none, cx.turned page⟩

theorem nextFrom_mem (current : String) : nextFrom current ∈ MOODS := by
  unfold nextFrom
  split
  · rename_i index found
    have small : (index + 1) % MOODS.length < MOODS.length :=
      Nat.mod_lt _ (by decide)
    rw [List.getD_eq_getElem _ _ small]
    exact List.getElem_mem small
  · decide

theorem feelTarget_mem {cx : Cortex} {feeling : Option String} {next : Bool}
    {mood : Mood} (target : cx.feelTarget feeling next = some mood) :
    mood ∈ MOODS := by
  unfold feelTarget at target
  split at target
  · cases target
    exact nextFrom_mem _
  · obtain ⟨word, -, found⟩ := Option.bind_eq_some_iff.mp target
    exact List.mem_of_find?_eq_some found

section Outcomes

variable (cx : Cortex) (args : Value) (token : Option String)

theorem outcome_feel :
    Outcome cx ⟨"feel", args, token⟩ (dispatchFeel cx args) := by
  unfold dispatchFeel Cortex.feel
  cases target : cx.feelTarget ((args.get "feeling").bind Value.asStr)
      (((args.get "next").bind Value.asBool).getD false) with
  | none => exact .refused (Nat.le_refl 400)
  | some mood => exact .felt rfl (Or.inl rfl) (feelTarget_mem target)

theorem outcome_display :
    Outcome cx ⟨"display", args, token⟩ (dispatchDisplay cx args) := by
  unfold dispatchDisplay Cortex.display
  by_cases badMode : ((args.get "mode").bind Value.asStr).any
      fun m => m ∉ DISPLAY_MODES
  · rw [if_pos badMode]
    exact .refused (Nat.le_refl 400)
  rw [if_neg badMode]
  have known : ∀ m ∈ (args.get "mode").bind Value.asStr,
      m ∈ DISPLAY_MODES := by
    intro m given
    simpa [Option.mem_def.mp given] using badMode
  by_cases empty : ((args.get "mode").bind Value.asStr).isNone ∧
      ((args.get "dim").bind Value.asBool).isNone ∧
      ((args.get "flip").bind Value.asBool).isNone
  · rw [if_pos empty]
    apply Outcome.answered rfl
    simp only [Option.isNone_iff_eq_none] at empty
    simp [LogsEvent, empty.1, empty.2.1, empty.2.2]
  · rw [if_neg empty]
    refine .showed rfl (Or.inr (Or.inl ⟨rfl, ?_⟩)) known
    simp only [← Option.not_isSome, Bool.not_eq_true'] at empty
    simp only [← Bool.not_eq_true] at empty
    tauto

theorem outcome_ripperdoc :
    Outcome cx ⟨"ripperdoc", args, token⟩ (dispatchRipperdoc cx args) := by
  unfold dispatchRipperdoc Cortex.ripperdoc
  by_cases badPage : ((args.get "page").bind Value.asStr).any
      fun p => p ∉ PAGES
  · rw [if_pos badPage]
    exact .refused (Nat.le_refl 400)
  rw [if_neg badPage]
  have known : ∀ p ∈ (args.get "page").bind Value.asStr, p ∈ PAGES := by
    intro p given
    simpa [Option.mem_def.mp given] using badPage
  cases given : (args.get "on").bind Value.asBool with
  | none =>
      apply Outcome.paged rfl _ known
      simp [LogsEvent, given]
  | some on =>
      exact .consoled rfl (Or.inr (Or.inr ⟨rfl, by simp [given]⟩)) known

end Outcomes

theorem outcome_command (v : Vault) (cx : Cortex) (command : Vault.Command)
    (host : Host) :
    Outcome cx command
      (Program.run serve (command.program v cx) host).1 := by
  obtain ⟨cmd, args, token⟩ := command
  unfold Vault.Command.program dispatch
  dsimp only
  by_cases feel : cmd = "feel"
  · subst feel
    exact outcome_feel cx args token
  by_cases display : cmd = "display"
  · subst display
    exact outcome_display cx args token
  by_cases ripperdoc : cmd = "ripperdoc"
  · subst ripperdoc
    exact outcome_ripperdoc cx args token
  rw [if_neg feel, if_neg display, if_neg ripperdoc]
  have quiet : ¬ LogsEvent ⟨cmd, args, token⟩ := by
    simp [LogsEvent, feel, display, ripperdoc]
  -- The seal answers or refuses; the cortex stays out of it.
  have sealedOutcome (reason : String) (answer : FileProgram Value) :
      Outcome cx ⟨cmd, args, token⟩
        (Program.run serve
          (sealedCommand v token reason answer >>= fun out =>
            pure (⟨out, none, cx⟩ : Dispatched)) host).1 := by
    rw [Program.run_bind]
    unfold sealedCommand
    rw [Program.run_bind]
    split
    · rw [Program.run_bind]
      exact .answered rfl quiet
    · rw [Program.run_bind]
      have status : (400 : Nat) ≤ Out.forbidden.status := by decide
      exact .refused status
  split
  · rw [Program.run_bind]
    exact .answered rfl quiet
  split
  · split
    · exact .refused (Nat.le_refl 400)
    · exact sealedOutcome _ _
  split
  · exact sealedOutcome _ _
  · exact .refused (Nat.le_refl 400)

theorem known_wear {cx : Cortex} {mood : Mood} (known : Known cx.st)
    (listed : mood ∈ MOODS) : Known (cx.wear mood).st := by
  have words : ∀ entry ∈ MOODS, entry.oledMode ∈ DISPLAY_MODES ∧
      (entry.oneShot = false → entry.ring ∈ RING_STATES) := by decide
  refine ⟨List.mem_map_of_mem listed, known.page, (words mood listed).1, ?_⟩
  unfold wear
  dsimp only
  split
  · exact known.ringState
  · rename_i sustained
    exact (words mood listed).2 (Bool.eq_false_iff.mpr sustained)

theorem known_shown {cx : Cortex} {mode text : Option String}
    {dim flip : Option Bool} (known : Known cx.st)
    (listed : ∀ m ∈ mode, m ∈ DISPLAY_MODES) :
    Known (cx.shown mode text dim flip).st := by
  refine ⟨known.mood, known.page, ?_, known.ringState⟩
  cases mode with
  | none => exact known.oledMode
  | some m => exact listed m rfl

theorem known_turned {cx : Cortex} {page : Option String}
    (known : Known cx.st) (listed : ∀ p ∈ page, p ∈ PAGES) :
    Known (cx.turned page).st := by
  refine ⟨known.mood, ?_, known.oledMode, known.ringState⟩
  cases page with
  | none => exact known.page
  | some p => exact listed p rfl

theorem known_consoled {cx : Cortex} (known : Known cx.st) (on : Bool) :
    Known (cx.consoled on).st := by
  refine ⟨known.mood, known.page, ?_, known.ringState⟩
  cases on <;> simp [consoled, DISPLAY_MODES]

theorem Outcome.known {cx : Cortex} {command : Vault.Command}
    {dispatched : Dispatched} (outcome : Outcome cx command dispatched)
    (known : Known cx.st) : Known dispatched.cx.st := by
  cases outcome with
  | refused => exact known
  | answered => exact known
  | felt _ _ listed => exact known_wear known listed
  | showed _ _ listed => exact known_shown known listed
  | consoled _ _ listed => exact known_consoled (known_turned known listed) _
  | paged _ _ listed => exact known_turned known listed

theorem Outcome.refusal {cx : Cortex} {command : Vault.Command}
    {dispatched : Dispatched} (outcome : Outcome cx command dispatched)
    (refused : 400 ≤ dispatched.out.status) :
    dispatched.cx = cx ∧ dispatched.event = none := by
  cases outcome with
  | refused => exact ⟨rfl, rfl⟩
  | answered => exact ⟨rfl, rfl⟩
  | felt good => simp [good] at refused
  | showed good => simp [good] at refused
  | consoled good => simp [good] at refused
  | paged good => simp [good] at refused

theorem Outcome.readings {cx : Cortex} {command : Vault.Command}
    {dispatched : Dispatched} (outcome : Outcome cx command dispatched) :
    dispatched.cx =
      { cx with st := withSettings cx.st dispatched.cx.st } := by
  cases outcome <;> rfl

theorem Outcome.event_iff {cx : Cortex} {command : Vault.Command}
    {dispatched : Dispatched} (outcome : Outcome cx command dispatched) :
    dispatched.event.isSome ↔
      dispatched.out.status < 400 ∧ LogsEvent command := by
  cases outcome with
  | refused bad => simp [Nat.not_lt.mpr bad]
  | answered good quiet => simp [quiet]
  | felt good logs => simp [good, logs]
  | showed good logs => simp [good, logs]
  | consoled good logs => simp [good, logs]
  | paged good quiet => simp [quiet]

/-- The states of the door: the default one, one adopted from the stored
settings of such a state, and what a command leaves of one. -/
inductive Booted (v : Vault) : Cortex × Host → Prop
  | fresh (host : Host) : Booted v ({}, host)
  | adopted {now : Cortex × Host} {rows : List (String × Value)} (host : Host)
      (reached : Booted v now) (stored : rows.Perm (settingsSnapshot now.1)) :
      Booted v (adoptSettings {} rows, host)
  | obeyed {now : Cortex × Host} (command : Vault.Command)
      (reached : Booted v now) : Booted v (v.obey now command)

theorem obey_eq (v : Vault) (now : Cortex × Host) (command : Vault.Command) :
    v.obey now command =
      ((Program.run serve (command.program v now.1) now.2).1.cx,
        (Program.run serve (command.program v now.1) now.2).2) :=
  rfl

theorem known_default : Known ({} : Cortex).st := by
  refine ⟨?_, ?_, ?_, ?_⟩ <;> decide

theorem Booted.known {v : Vault} {now : Cortex × Host}
    (reached : Booted v now) : Known now.1.st := by
  induction reached with
  | fresh => exact known_default
  | adopted host _ stored induction =>
      dsimp only
      rw [adoptSettings_perm stored]
      exact ⟨induction.mood, induction.page, induction.oledMode,
        induction.ringState⟩
  | obeyed command _ induction =>
      exact (outcome_command v _ command _).known induction

/-- A `feel` with `next`; `next` wins over whatever else is given. -/
def Next (command : Vault.Command) : Prop :=
  command.cmd = "feel" ∧
    (command.args.get "next").bind Value.asBool = some true

/-- The moods that a run of commands goes through, the first one left out. -/
def moodsAlong (v : Vault) (now : Cortex × Host) :
    List Vault.Command → List String
  | [] => []
  | command :: rest =>
      (v.obey now command).1.st.mood :: moodsAlong v (v.obey now command) rest

/-- The walk through the table from a mood. -/
def walk (mood : String) : Nat → List String
  | 0 => []
  | count + 1 => (nextFrom mood).name :: walk (nextFrom mood).name count

theorem mood_next (v : Vault) (now : Cortex × Host) {command : Vault.Command}
    (next : Next command) :
    (v.obey now command).1.st.mood = (nextFrom now.1.st.mood).name := by
  obtain ⟨cmd, args, token⟩ := command
  obtain ⟨isFeel, wanted⟩ := next
  dsimp only at isFeel wanted
  subst isFeel
  have ran : Program.run serve
      (Vault.Command.program v now.1 ⟨"feel", args, token⟩) now.2 =
      (dispatchFeel now.1 args, now.2) := rfl
  rw [obey_eq, ran]
  dsimp only
  unfold dispatchFeel Cortex.feel feelTarget
  rw [wanted]
  rfl

theorem moodsAlong_next (v : Vault) {now : Cortex × Host}
    {commands : List Vault.Command} (next : ∀ command ∈ commands, Next command) :
    moodsAlong v now commands = walk now.1.st.mood commands.length := by
  induction commands generalizing now with
  | nil => rfl
  | cons command rest induction =>
      have first := mood_next v now (next command List.mem_cons_self)
      rw [moodsAlong, induction fun later member =>
        next later (List.mem_cons_of_mem _ member), first]
      rfl

theorem walk_around {mood : String} (known : mood ∈ MOODS.map Mood.name) :
    (walk mood MOODS.length).Perm (MOODS.map Mood.name) := by
  have around : ∀ start ∈ MOODS.map Mood.name,
      (walk start MOODS.length).Perm (MOODS.map Mood.name) := by decide
  exact around mood known

/-- What a command leaves in this state: the answer, the event and the cortex. -/
def dispatched (v : Vault) (now : Cortex × Host) (command : Vault.Command) :
    Dispatched :=
  (Program.run serve (command.program v now.1) now.2).1

/-- The machine is closed at this state. -/
structure Closed (v : Vault) (now : Cortex × Host) : Prop where
  words : Known now.1.st
  refusal : ∀ command, 400 ≤ (dispatched v now command).out.status →
    (dispatched v now command).cx = now.1 ∧
      (dispatched v now command).event = none
  /-- No command moves anything but the nine settings. -/
  readings : ∀ command, (dispatched v now command).cx =
    { now.1 with
      st := withSettings now.1.st (dispatched v now command).cx.st }
  event : ∀ command, (dispatched v now command).event.isSome ↔
    (dispatched v now command).out.status < 400 ∧ LogsEvent command
  /-- Every mood comes before any comes twice. -/
  walk : ∀ commands : List Vault.Command, commands.length = MOODS.length →
    (∀ command ∈ commands, Next command) →
      (moodsAlong v now commands).Perm (MOODS.map Mood.name)

theorem door_closed {v : Vault} {now : Cortex × Host}
    (reached : Booted v now) : Closed v now where
  words := reached.known
  refusal command := (outcome_command v now.1 command now.2).refusal
  readings command := (outcome_command v now.1 command now.2).readings
  event command := (outcome_command v now.1 command now.2).event_iff
  walk commands sized next := by
    rw [moodsAlong_next v next, sized]
    exact walk_around reached.known.mood

namespace Trial

def raiseAlarm : Vault.Command :=
  ⟨"feel", .object [("feeling", .string "alarmed")], none⟩

/-- A boot from what was stored after an alarm. -/
theorem door_closed_rebooted :
    Closed vault
      (adoptSettings {}
          (settingsSnapshot (vault.obey ({}, host) raiseAlarm).1),
        host) :=
  door_closed
    (.adopted host (.obeyed raiseAlarm (.fresh host)) (List.Perm.refl _))

end Trial

end Cortex
