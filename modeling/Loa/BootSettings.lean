import Loa.SettingsFlush

/-!
# A boot that could not load the settings

When the store is down at boot the cortex starts from its defaults, and the
flusher's first snapshot writes them over what was stored.  The file follows one
setting that no verb has set through such a run.
-/

namespace Cortex

open FileDirectory Json Wire RustText TransitionRun

/-- The value of a setting. -/
def settingOf (cx : Cortex) (key : String) : Option Value :=
  (settingsSnapshot cx).lookup key

/-- The settings that an accepted verb sets. -/
def keysGiven (cx : Cortex) (cmd : String) (args : Value) : List String :=
  if cmd = "feel" then
    match felt cx args with
    | some mood =>
        ["mood", "oled_mode", "oled_text", "oled_dim"] ++
          if mood.oneShot then [] else ["ring_state"]
    | none => []
  else if cmd = "display" then
    (if ((args.get "mode").bind Value.asStr).isSome then
        ["oled_mode", "oled_text"] else []) ++
      (if ((args.get "dim").bind Value.asBool).isSome then ["oled_dim"]
        else []) ++
      if ((args.get "flip").bind Value.asBool).isSome then ["oled_flip"] else []
  else if cmd = "ripperdoc" then
    (if ((args.get "page").bind Value.asStr).isSome then ["page"] else []) ++
      if ((args.get "on").bind Value.asBool).isSome then
        ["ripperdoc", "oled_mode"] else []
  else []

/-- In this step an accepted verb sets the setting. -/
def SetsKey (env : Env) (key : String) (sys : Sys) (action : Action) : Prop :=
  ∃ request cmd args dispatched, action = .door request ∧
    commandOf env.vault.text request = some (cmd, args) ∧
    stateVerb sys.cx cmd args = some dispatched ∧
    dispatched.out.status = 200 ∧ key ∈ keysGiven sys.cx cmd args

/-- In this step the flusher upserts the setting and the store takes it. -/
def Upserts (key : String) (sys : Sys) (action : Action) : Prop :=
  action = .flush ∧ key ∈ PERSISTED ∧ ∃ value rest failed,
    sys.flusher = .saving ((key, value) :: rest) failed ∧
      sys.store.takes (.upsert key value) = true

theorem settingOf_of_mem {cx : Cortex} {key : String} {value : Value}
    (member : (key, value) ∈ settingsSnapshot cx) :
    settingOf cx key = some value := by
  simp only [settingsSnapshot, List.mem_cons, Prod.mk.injEq, List.not_mem_nil,
    or_false] at member
  rcases member with ⟨rfl, rfl⟩ | ⟨rfl, rfl⟩ | ⟨rfl, rfl⟩ | ⟨rfl, rfl⟩ |
    ⟨rfl, rfl⟩ | ⟨rfl, rfl⟩ | ⟨rfl, rfl⟩ | ⟨rfl, rfl⟩ | ⟨rfl, rfl⟩ <;> rfl

theorem settingOf_eq (cx : Cortex) (key : String) :
    settingOf cx key =
      if key = "mood" then some (.string cx.st.mood)
      else if key = "ring_state" then some (.string cx.st.ringState)
      else if key = "oled_mode" then some (.string cx.st.oledMode)
      else if key = "oled_text" then some (.ofText cx.st.oledText)
      else if key = "oled_dim" then some (.bool cx.st.oledDim)
      else if key = "oled_flip" then some (.bool cx.st.oledFlip)
      else if key = "ripperdoc" then some (.bool cx.st.ripperdoc)
      else if key = "page" then some (.string cx.st.page)
      else if key = "snr_on" then some (.bool cx.st.snrOn)
      else none := by
  have lookup_cons (name : String) (value : Value)
      (rest : List (String × Value)) :
      List.lookup key ((name, value) :: rest) =
        if key = name then some value else rest.lookup key := by
    rw [List.lookup_cons]
    by_cases same : key = name
    · simp [same]
    · rw [if_neg same, beq_eq_false_iff_ne.mpr same]
  simp only [settingOf, settingsSnapshot, lookup_cons, List.lookup_nil]

/-- A verb that does not set a setting leaves it. -/
theorem settingOf_of_verbed {cx : Cortex} {cmd : String} {args : Value}
    {dispatched : Dispatched} (verbed : Verbed cx cmd args dispatched)
    {key : String}
    (unset : dispatched.out.status = 200 → key ∉ keysGiven cx cmd args) :
    settingOf dispatched.cx key = settingOf cx key := by
  cases verbed with
  | refused => rfl
  | idle => rfl
  | felt args out mood note target good =>
      have other := unset good
      cases oneShot : mood.oneShot with
      | false =>
          simp [keysGiven, target, oneShot] at other
          simp [settingOf_eq, wear, other]
      | true =>
          simp [keysGiven, target, oneShot] at other
          simp [settingOf_eq, wear, oneShot, other]
  | showed args out mode text dim flip modeGiven dimGiven flipGiven good =>
      have other := unset good
      simp only [keysGiven, ← modeGiven, ← dimGiven, ← flipGiven] at other
      cases mode <;> cases dim <;> cases flip <;> simp at other <;>
        simp [settingOf_eq, shown, other]
  | consoled args out on page onGiven pageGiven good =>
      have other := unset good
      simp only [keysGiven, ← pageGiven, onGiven] at other
      cases page <;> simp at other <;>
        simp [settingOf_eq, consoled, turned, other]
  | paged args out page noOn pageGiven known good =>
      have other := unset good
      simp only [keysGiven, ← pageGiven, noOn] at other
      cases page <;> simp at other <;> simp [settingOf_eq, turned, other]

section Steps

variable {env : Env} {key : String} {sys after : Sys} {action : Action}

/-- The rows that the flusher still has to write. -/
def FlusherPhase.rows : FlusherPhase → List (String × Value)
  | .writing _ snapshot _ => snapshot
  | .saving rest _ => rest
  | _ => []

/-- The cortex and the flusher know the setting as it was at boot. -/
structure Untouched (key : String) (sys : Sys) : Prop where
  held : settingOf sys.cx key = settingOf {} key
  rows : ∀ value, (key, value) ∈ sys.flusher.rows →
    settingOf {} key = some value

theorem settingOf_of_snapshot {first second : Cortex}
    (same : settingsSnapshot first = settingsSnapshot second) (key : String) :
    settingOf first key = settingOf second key := by
  rw [settingOf, settingOf, same]

theorem untouched_of_effect (untouched : Untouched key sys)
    (effect : Effect env sys action after)
    (unset : ¬ SetsKey env key sys action) : Untouched key after := by
  by_cases flush : action = .flush
  · subst flush
    cases effect with
    | flushed flushes =>
        -- The statements only take rows away, but for the snapshot.
        have fewer (cx : after.cx = sys.cx)
            (rows : after.flusher.rows ⊆ sys.flusher.rows) :
            Untouched key after := by
          refine ⟨cx ▸ untouched.held, fun value member => ?_⟩
          exact untouched.rows value (rows member)
        cases flushes with
        | snapped phase =>
            refine ⟨untouched.held, fun value member => ?_⟩
            rw [← untouched.held]
            exact settingOf_of_mem member
        | took phase some => exact fewer rfl (by simp [FlusherPhase.rows])
        | wrote phase => exact fewer rfl (by simp [FlusherPhase.rows, phase])
        | lost phase => exact fewer rfl (by simp [FlusherPhase.rows, phase])
        | turned phase => exact fewer rfl (by simp [FlusherPhase.rows, phase])
        | saved phase => exact fewer rfl (by simp [FlusherPhase.rows, phase])
        | unsaved phase => exact fewer rfl (by simp [FlusherPhase.rows])
        | skipped phase => exact fewer rfl (by simp [FlusherPhase.rows, phase])
        | settled phase => exact fewer rfl (by simp [FlusherPhase.rows])
  obtain ⟨records, queues⟩ := queues_of_effect effect flush
  have held : settingOf after.cx key = settingOf sys.cx key := by
    by_cases door : ∃ request, action = .door request
    · obtain ⟨request, rfl⟩ := door
      cases effect with
      | verbed command verb =>
          exact settingOf_of_verbed (verbed_of_stateVerb verb) fun good set =>
            unset ⟨request, _, _, _, rfl, command, verb, good, set⟩
      | answered => rfl
    · rw [not_exists] at door
      exact settingOf_of_snapshot (quiet_of_effect effect door).1 key
  refine ⟨held.trans untouched.held, ?_⟩
  rw [queues.flusher]
  exact untouched.rows

/-- What a step does to the stored setting. -/
theorem stored_of_effect (untouched : Untouched key sys)
    (effect : Effect env sys action after) :
    (Upserts key sys action ∧
        after.store.server.settings.lookup key = settingOf {} key) ∨
      (¬ Upserts key sys action ∧
        after.store.server.settings.lookup key =
          sys.store.server.settings.lookup key) := by
  by_cases flush : action = .flush
  · subst flush
    -- Any other statement than the upsert of this setting leaves it.
    have left (notNow : ∀ value rest failed,
          sys.flusher = .saving ((key, value) :: rest) failed →
            sys.store.takes (.upsert key value) = true → key ∉ PERSISTED)
        (same : after.store.server.settings.lookup key =
          sys.store.server.settings.lookup key) :
        (Upserts key sys .flush ∧
            after.store.server.settings.lookup key = settingOf {} key) ∨
          (¬ Upserts key sys .flush ∧
            after.store.server.settings.lookup key =
              sys.store.server.settings.lookup key) := by
      right
      refine ⟨?_, same⟩
      rintro ⟨-, persisted, value, rest, failed, phase, takes⟩
      exact notNow value rest failed phase takes persisted
    cases effect with
    | flushed flushes =>
        cases flushes with
        | took phase some => exact left (by simp [phase]) rfl
        | snapped phase => exact left (by simp [phase]) rfl
        | wrote phase => exact left (by simp [phase]) (by simp)
        | lost phase => exact left (by simp [phase]) rfl
        | turned phase => exact left (by simp [phase]) rfl
        | @saved other value rest failed phase kept takes =>
            by_cases same : other = key
            · subst same
              left
              refine ⟨⟨rfl, kept, value, rest, failed, phase, takes⟩, ?_⟩
              have row := untouched.rows value
                (by simp [FlusherPhase.rows, phase])
              rw [row]
              exact AList.lookup_insert _
            · apply left
              · simp [phase, same]
              · exact AList.lookup_insert_ne (Ne.symm same)
        | unsaved phase kept refuses =>
            apply left _ rfl
            intro _ _ _ now takes
            rw [phase] at now
            cases now
            rw [takes] at refuses
            cases refuses
        | @skipped other value rest failed phase foreign =>
            apply left _ rfl
            intro _ _ _ now _
            rw [phase] at now
            cases now
            exact foreign
        | settled phase => exact left (by simp [phase]) rfl
  · obtain ⟨records, queues⟩ := queues_of_effect effect flush
    right
    refine ⟨fun upserts => flush upserts.1, ?_⟩
    rw [queues.settings]

end Steps

/-- The flusher has upserted the setting in this run. -/
def Upserted (key : String) (trace : List (Sys × Action)) : Prop :=
  ∃ entry ∈ trace, Upserts key entry.1 entry.2

theorem upserted_concat {key : String} {trace : List (Sys × Action)}
    {sys : Sys} {action : Action} :
    Upserted key (trace ++ [(sys, action)]) ↔
      Upserted key trace ∨ Upserts key sys action := by
  simp [Upserted, or_and_right, exists_or]

theorem boot_of_down (env : Env) (host : Host) {server : Server}
    (down : server.up = false) :
    (boot env true host server).cx = {} ∧
      (boot env true host server).flusher = .waiting := by
  have unreachable : (⟨none, server, 0⟩ : Store).reachable = false := by
    simp [Store.reachable, down]
  unfold boot Store.loadSettings
  dsimp only
  rw [if_pos rfl,
    Store.withConn_of_refuses (Store.refuses_of_unreachable unreachable _)]
  exact ⟨rfl, rfl⟩

section Run

variable {env : Env} {host : Host} {server : Server}
  {trace : List (Sys × Action)} {sys : Sys} {key : String}

/-- A setting that no verb has set is stored as it was at boot, or with the
cortex's default once the flusher has upserted it. -/
theorem stored_of_run
    (run : Run (Sys.step env) (boot env true host server) trace sys)
    (down : server.up = false)
    (unset : Along (fun before action => ¬ SetsKey env key before action)
      trace) :
    Untouched key sys ∧
      ((Upserted key trace ∧
          sys.store.server.settings.lookup key = settingOf {} key) ∨
        (¬ Upserted key trace ∧
          sys.store.server.settings.lookup key =
            server.settings.lookup key)) := by
  induction run with
  | stay =>
      obtain ⟨fresh, waiting⟩ := boot_of_down env host down
      refine ⟨⟨by rw [fresh], ?_⟩, Or.inr ⟨?_, ?_⟩⟩
      · rw [waiting]
        simp [FlusherPhase.rows]
      · simp [Upserted]
      · rw [(boot_store env true host server).1]
  | move run stepped induction =>
      obtain ⟨earlier, now⟩ := along_concat.mp unset
      obtain ⟨untouched, before⟩ := induction earlier
      have effect := effect_of_step stepped
      refine ⟨untouched_of_effect untouched effect now, ?_⟩
      rw [upserted_concat]
      rcases stored_of_effect untouched effect with
        ⟨upserts, value⟩ | ⟨none, same⟩
      · exact Or.inl ⟨Or.inr upserts, value⟩
      · rw [same]
        simpa [none] using before

/-- After a boot that could not load the settings, one that no verb has set
keeps its stored value exactly when that value is the cortex's default or the
flusher has not got to upserting it. -/
theorem unset_kept_iff
    (run : Run (Sys.step env) (boot env true host server) trace sys)
    (down : server.up = false)
    (unset : Along (fun before action => ¬ SetsKey env key before action)
      trace) :
    sys.store.server.settings.lookup key = server.settings.lookup key ↔
      server.settings.lookup key = settingOf {} key ∨ ¬ Upserted key trace := by
  obtain ⟨-, ⟨upserted, value⟩ | ⟨never, same⟩⟩ := stored_of_run run down unset
  · rw [value]
    simp [upserted, eq_comm]
  · simp [same, never]

end Run

namespace Trial

/-- A database out of reach with a setting of its own. -/
def remembered : Server :=
  { server (AList.singleton "mood" (.string "busy")) with up := false }

theorem unset_of_doorless {actions : List Action}
    {trace : List (Sys × Action)} (taken : trace.map Prod.snd = actions)
    (doorless : ∀ request, Action.door request ∉ actions) (key : String) :
    Along (fun before action => ¬ SetsKey env key before action) trace := by
  rintro entry member ⟨request, cmd, args, dispatched, posted, -⟩
  apply doorless request
  rw [← taken, ← posted]
  exact List.mem_map_of_mem member

/-- The store comes back, one sample wakes the flusher, and the stored mood is
the default. -/
theorem mood_clobbered :
    ∃ trace sys, Run (Sys.step env) (boot env true host remembered) trace sys ∧
      trace.map Prod.snd = asks ++ [.recovery, pressure] ++ flushes ∧
      Along (fun before action => ¬ SetsKey env "mood" before action) trace ∧
      remembered.settings.lookup "mood" = some (.string "busy") ∧
      sys.store.server.settings.lookup "mood" = some (.string "calm") := by
  have followed : follow (Sys.step env) (boot env true host remembered)
      (asks ++ [.recovery, pressure] ++ flushes) = some (_, _) := rfl
  have actions := actions_of_follow followed
  refine ⟨_, _, run_of_follow followed, actions, unset_of_doorless actions ?_ _,
    rfl, rfl⟩
  simp [asks, flushes, pressure, push]

theorem unset_kept_iff_trial :
    ∃ trace sys, Run (Sys.step env) (boot env true host remembered) trace sys ∧
      trace.map Prod.snd = asks ++ [.recovery, pressure] ++ flushes ∧
      (sys.store.server.settings.lookup "mood" =
          remembered.settings.lookup "mood" ↔
        remembered.settings.lookup "mood" = settingOf {} "mood" ∨
          ¬ Upserted "mood" trace) := by
  have followed : follow (Sys.step env) (boot env true host remembered)
      (asks ++ [.recovery, pressure] ++ flushes) = some (_, _) := rfl
  have actions := actions_of_follow followed
  refine ⟨_, _, run_of_follow followed, actions,
    unset_kept_iff (run_of_follow followed) rfl
      (unset_of_doorless actions ?_ "mood")⟩
  simp [asks, flushes, pressure, push]

end Trial

end Cortex
