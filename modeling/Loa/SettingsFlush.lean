import Loa.CortexEffects
import Loa.StoreOutage

/-!
# The settings on their way to the store

The flusher writes the settings behind the records that wake it, as they were
when it took its snapshot.  The file says in which runs the store ends up with
the settings that the cortex has.
-/

namespace Cortex

open FileDirectory Json Wire RustText TransitionRun

/-- The nine settings in the store are those of the cortex. -/
def Holds (server : Server) (cx : Cortex) : Prop :=
  ∀ row ∈ settingsSnapshot cx, server.settings.lookup row.1 = some row.2

/-- An accepted `ripperdoc` with a page alone, and another one than before. -/
def TurnsPage (env : Env) (sys : Sys) (action : Action) : Prop :=
  ∃ request args page, action = .door request ∧
    commandOf env.vault.text request = some ("ripperdoc", args) ∧
    (args.get "on").bind Value.asBool = none ∧
    (args.get "page").bind Value.asStr = some page ∧
    page ∈ PAGES ∧ page ≠ sys.cx.st.page

/-- When a setting is about to be upserted, the store takes it: it gets to the
database, which accepts it. -/
def Saveable (sys : Sys) (action : Action) : Prop :=
  ∀ key value rest failed, action = .flush →
    sys.flusher = .saving ((key, value) :: rest) failed →
    sys.store.takes (.upsert key value) = true

/-- Nobody has anything left to do. -/
def Drained (sys : Sys) : Prop :=
  sys.news = [] ∧ sys.writes = [] ∧ sys.flusher = .waiting

theorem keys_settingsSnapshot (cx : Cortex) :
    (settingsSnapshot cx).map Prod.fst =
      ["mood", "ring_state", "oled_mode", "oled_text", "oled_dim", "oled_flip",
        "ripperdoc", "page", "snr_on"] :=
  rfl

theorem persisted_of_mem {cx : Cortex} {row : String × Value}
    (member : row ∈ settingsSnapshot cx) : row.1 ∈ PERSISTED := by
  have key : row.1 ∈ (settingsSnapshot cx).map Prod.fst :=
    List.mem_map_of_mem member
  rw [keys_settingsSnapshot] at key
  revert key
  generalize row.1 = name
  intro key
  simp only [List.mem_cons, List.not_mem_nil, or_false] at key
  rcases key with rfl | rfl | rfl | rfl | rfl | rfl | rfl | rfl | rfl <;> decide

theorem nodup_keys (cx : Cortex) :
    ((settingsSnapshot cx).map Prod.fst).Nodup := by
  rw [keys_settingsSnapshot]
  decide

/-- The rows in front of a row have other keys. -/
theorem key_ne_of_done {cx : Cortex} {done rest : List (String × Value)}
    {key : String} {value : Value}
    (split : settingsSnapshot cx = done ++ (key, value) :: rest)
    {row : String × Value} (member : row ∈ done) : row.1 ≠ key := by
  have nodup := nodup_keys cx
  rw [split, List.map_append, List.map_cons, List.nodup_append] at nodup
  exact nodup.2.2 row.1 (List.mem_map_of_mem member) key List.mem_cons_self

@[simp]
theorem settings_record (server : Server) (write : Write) :
    (server.record write).settings = server.settings := by
  cases write <;> rfl

/-- The flusher is on its way to the settings the cortex has, or has been
there. -/
def Arriving (sys : Sys) : Prop :=
  match sys.flusher with
  | .gone | .waiting => Holds sys.store.server sys.cx
  | .taken _ => True
  | .writing _ snapshot _ => snapshot = settingsSnapshot sys.cx
  | .saving rest _ =>
      ∃ done, settingsSnapshot sys.cx = done ++ rest ∧
        ∀ row ∈ done, sys.store.server.settings.lookup row.1 = some row.2

/-- The settings will be in the store when the queues have drained: an event is
yet to be heard, a record is yet to be taken, or the flusher is on its way. -/
def Destined (sys : Sys) : Prop :=
  (∃ kind detail, News.event kind detail ∈ sys.news) ∨ sys.writes ≠ [] ∨
    Arriving sys

theorem holds_of_destined {sys : Sys} (destined : Destined sys)
    (drained : Drained sys) : Holds sys.store.server sys.cx := by
  obtain ⟨news, writes, flusher⟩ := drained
  rcases destined with ⟨kind, detail, member⟩ | pending | arriving
  · rw [news] at member
    cases member
  · exact absurd writes pending
  · unfold Arriving at arriving
    rw [flusher] at arriving
    exact arriving

section Steps

variable {env : Env} {sys after : Sys} {action : Action}

/-- A step beside the flusher's that leaves the settings of the cortex alone and
hears no event without queueing its record. -/
theorem Destined.of_queues (destined : Destined sys) {records : List Write}
    (queues : Queues sys after records)
    (snapshot : settingsSnapshot after.cx = settingsSnapshot sys.cx)
    (news : after.writes ≠ [] ∨ ∀ kind detail,
      News.event kind detail ∈ sys.news →
        News.event kind detail ∈ after.news) :
    Destined after := by
  rcases news with queued | kept
  · exact Or.inr (Or.inl queued)
  rcases destined with ⟨kind, detail, member⟩ | pending | arriving
  · exact Or.inl ⟨kind, detail, kept kind detail member⟩
  · right
    left
    rw [queues.writes]
    simp [pending]
  · right
    right
    unfold Arriving Holds at arriving ⊢
    rw [queues.flusher, snapshot, queues.settings]
    exact arriving

/-- Beside the door nothing moves a setting, and an event that is heard leaves a
record. -/
theorem quiet_of_effect (effect : Effect env sys action after)
    (notDoor : ∀ request, action ≠ .door request) :
    settingsSnapshot after.cx = settingsSnapshot sys.cx ∧
      (after.writes ≠ [] ∨ ∀ kind detail,
        News.event kind detail ∈ sys.news →
          News.event kind detail ∈ after.news) := by
  cases effect with
  | merged ticks main decoded =>
      exact ⟨settingsSnapshot_merge .., Or.inr fun _ _ member => member⟩
  | verbed | answered => exact absurd rfl (notDoor _)
  | logged main news => exact ⟨rfl, Or.inl (by simp)⟩
  | republish main news =>
      refine ⟨rfl, Or.inr fun kind detail member => ?_⟩
      rw [news] at member
      simpa using member
  | flushed flushes =>
      cases flushes <;> exact ⟨rfl, Or.inr fun _ _ member => member⟩
  | _ => exact ⟨rfl, Or.inr fun _ _ member => member⟩

/-- A verb that moves a setting has an event to log, unless it only turns the
page. -/
theorem destined_of_verb (destined : Destined sys) {request : Request}
    {cmd : String} {args : Value} {dispatched : Dispatched}
    (command : commandOf env.vault.text request = some (cmd, args))
    (verb : stateVerb sys.cx cmd args = some dispatched)
    (noTurn : ¬ TurnsPage env sys (.door request)) :
    Destined
      { sys with
        cx := dispatched.cx
        news := sys.news ++ newsOf cmd dispatched } := by
  have logged (kind : String) (detail : Value)
      (event : dispatched.event = some (kind, detail)) :
      Destined
        { sys with
          cx := dispatched.cx
          news := sys.news ++ newsOf cmd dispatched } :=
    Or.inl ⟨kind, detail, by simp [newsOf, event]⟩
  have unmoved
      (same : settingsSnapshot dispatched.cx = settingsSnapshot sys.cx) :
      Destined
        { sys with
          cx := dispatched.cx
          news := sys.news ++ newsOf cmd dispatched } := by
    obtain ⟨records, queues⟩ :=
      queues_of_effect (.verbed command verb : Effect env sys _ _) (by simp)
    exact destined.of_queues queues same
      (Or.inr fun kind detail member => List.mem_append_left _ member)
  cases verbed_of_stateVerb verb with
  | refused => exact unmoved rfl
  | felt => exact logged _ _ rfl
  | idle => exact unmoved rfl
  | showed => exact logged _ _ rfl
  | consoled => exact logged _ _ rfl
  | paged args out page noOn pageGiven known good =>
      apply unmoved
      cases page with
      | none => rfl
      | some page =>
          have same : page = sys.cx.st.page := by
            by_contra differ
            exact noTurn ⟨request, args, page, rfl, command, noOn,
              pageGiven.symm, known page rfl, differ⟩
          subst same
          rfl

theorem destined_of_flushes (destined : Destined sys)
    (flushes : Flushes sys after) (saveable : Saveable sys .flush) :
    Destined after := by
  -- Only the flusher's own part of the invariant moves, but for the take.
  have step (news : after.news = sys.news)
      (writes : after.writes = sys.writes)
      (onward : Arriving sys → Arriving after) : Destined after := by
    unfold Destined
    rw [news, writes]
    exact destined.imp_right (Or.imp_right onward)
  cases flushes with
  | took phase some => exact Or.inr (Or.inr trivial)
  | snapped phase =>
      apply step rfl rfl
      intro _
      rfl
  | wrote phase =>
      apply step rfl rfl
      unfold Arriving
      rw [phase]
      exact id
  | lost phase =>
      apply step rfl rfl
      unfold Arriving
      rw [phase]
      exact id
  | turned phase =>
      apply step rfl rfl
      unfold Arriving
      rw [phase]
      intro snapshot
      exact ⟨[], snapshot.symm, by simp⟩
  | @saved key value rest failed phase kept =>
      apply step rfl rfl
      unfold Arriving
      rw [phase]
      rintro ⟨done, split, saved⟩
      refine ⟨done ++ [(key, value)], by simpa using split, ?_⟩
      intro row member
      dsimp only [Store.took, Server.execute, Server.upsert]
      rcases List.mem_append.mp member with old | new
      · rw [AList.lookup_insert_ne (key_ne_of_done split old)]
        exact saved row old
      · rw [List.mem_singleton.mp new, AList.lookup_insert]
  | unsaved phase kept refuses =>
      rw [saveable _ _ _ _ rfl phase] at refuses
      cases refuses
  | @skipped key value rest failed phase foreign =>
      apply step rfl rfl
      unfold Arriving
      rw [phase]
      rintro ⟨done, split, -⟩
      have member : (key, value) ∈ settingsSnapshot sys.cx := by
        rw [split]
        simp
      exact absurd (persisted_of_mem member) foreign
  | settled phase =>
      apply step rfl rfl
      unfold Arriving
      rw [phase]
      rintro ⟨done, split, saved⟩
      rw [List.append_nil] at split
      intro row member
      rw [split] at member
      exact saved row member

theorem destined_of_effect (destined : Destined sys)
    (effect : Effect env sys action after)
    (saveable : Saveable sys action)
    (noTurn : ¬ TurnsPage env sys action) : Destined after := by
  by_cases flush : action = .flush
  · subst flush
    cases effect with
    | flushed flushes => exact destined_of_flushes destined flushes saveable
  obtain ⟨records, queues⟩ := queues_of_effect effect flush
  by_cases door : ∃ request, action = .door request
  · obtain ⟨request, rfl⟩ := door
    cases effect with
    | verbed command verb => exact destined_of_verb destined command verb noTurn
    | answered =>
        exact destined.of_queues queues rfl (Or.inr fun _ _ member => member)
  · rw [not_exists] at door
    obtain ⟨snapshot, news⟩ := quiet_of_effect effect door
    exact destined.of_queues queues snapshot news

end Steps

/-- No record has been handed over yet, or the settings are on their way. -/
def Covered (sys : Sys) : Prop :=
  sys.sent = [] ∨ Destined sys

theorem covered_of_effect {env : Env} {sys after : Sys} {action : Action}
    (covered : Covered sys) (effect : Effect env sys action after)
    (saveable : Saveable sys action)
    (noTurn : ¬ TurnsPage env sys action) : Covered after := by
  rcases covered with unsent | destined
  · by_cases flush : action = .flush
    · subst flush
      left
      cases effect with
      | flushed flushes => cases flushes <;> exact unsent
    · obtain ⟨records, queues⟩ := queues_of_effect effect flush
      cases records with
      | nil =>
          left
          rw [queues.sent, unsent, List.append_nil]
      | cons record rest =>
          right
          right
          left
          rw [queues.writes]
          simp
  · exact Or.inr (destined_of_effect destined effect saveable noTurn)

theorem destined_boot {env : Env} {dsn : Bool} {host : Host} {server : Server}
    (holds : Holds server (boot env dsn host server).cx) :
    Destined (boot env dsn host server) := by
  right
  right
  obtain ⟨stored, idle⟩ := boot_store env dsn host server
  unfold Arriving
  rcases idle with gone | waiting
  · rw [gone, stored]
    exact holds
  · rw [waiting, stored]
    exact holds

/-- With every upsert of a setting taken and no page turned on its own, the store
has the settings of the cortex when the queues have drained, if it had them at
the start or the flusher has been woken since. -/
theorem settings_durable (env : Env) (dsn : Bool) (host : Host)
    (server : Server) {trace : List (Sys × Action)} {sys : Sys}
    (run : Run (Sys.step env) (boot env dsn host server) trace sys)
    (saveable : Along Saveable trace)
    (noTurn : Along (fun before action => ¬ TurnsPage env before action) trace)
    (start : Holds server (boot env dsn host server).cx ∨ sys.sent ≠ [])
    (drained : Drained sys) :
    Holds sys.store.server sys.cx := by
  have good : Along (fun before action => Saveable before action ∧
      ¬ TurnsPage env before action) trace :=
    fun entry member => ⟨saveable entry member, noTurn entry member⟩
  rcases start with holds | sent
  · have destined : Destined sys :=
      run.invariant good (destined_boot holds)
        fun _ _ _ condition stepped destined =>
          destined_of_effect destined (effect_of_step stepped) condition.1
            condition.2
    exact holds_of_destined destined drained
  · have unsent : (boot env dsn host server).sent = [] :=
      (boot_fields env dsn host server).2.2.2.2.1
    have covered : Covered sys :=
      run.invariant good (Or.inl unsent)
        fun _ _ _ condition stepped covered =>
          covered_of_effect covered (effect_of_step stepped) condition.1
            condition.2
    exact holds_of_destined (covered.resolve_left sent) drained

theorem not_holds_of_page {server : Server} {cx : Cortex} (page : String)
    (stored : server.settings.lookup "page" = some (.string page))
    (differ : page ≠ cx.st.page) : ¬ Holds server cx := by
  intro holds
  have current := holds ("page", .string cx.st.page)
    (by simp [settingsSnapshot])
  rw [stored, Option.some.injEq, Value.string.injEq] at current
  exact differ current

namespace Trial

/-- The settings of a fresh cortex. -/
def saved : Dict Value :=
  (settingsSnapshot {}).foldl (fun table row => table.insert row.1 row.2) ∅

theorem holds_saved :
    Holds (server saved) (boot env true host (server saved)).cx := by
  intro row member
  simp only [settingsSnapshot, List.mem_cons, List.not_mem_nil,
    or_false] at member
  rcases member with rfl | rfl | rfl | rfl | rfl | rfl | rfl | rfl | rfl <;> rfl

/-- The page is turned, nobody is left with anything to do, and the store has
the old page. -/
theorem page_not_saved :
    ∃ trace sys,
      Run (Sys.step env) (boot env true host (server saved)) trace sys ∧
        trace.map Prod.snd = asks ++ [post turnPage, .hearNews] ∧
        Along (fun before _ => before.store.reachable = true) trace ∧
        Holds (server saved) (boot env true host (server saved)).cx ∧
        Drained sys ∧ ¬ Holds sys.store.server sys.cx := by
  have followed : follow (Sys.step env) (boot env true host (server saved))
      (asks ++ [post turnPage, .hearNews]) = some (_, _) := rfl
  refine ⟨_, _, run_of_follow followed, actions_of_follow followed, ?_,
    holds_saved, ⟨rfl, rfl, rfl⟩, ?_⟩
  · unfold Along
    decide
  · exact not_holds_of_page "sensors" rfl (by decide)

/-- A mood is logged, so that its settings are saved. -/
theorem settings_durable_trial :
    ∃ trace sys,
      Run (Sys.step env) (boot env true host (server saved)) trace sys ∧
        trace.map Prod.snd =
          asks ++ [post feelPleased, .hearNews, .hearNews] ++ flushes ∧
        sys.cx.st.mood = "pleased" ∧ Holds sys.store.server sys.cx := by
  have followed : follow (Sys.step env) (boot env true host (server saved))
      (asks ++ [post feelPleased, .hearNews, .hearNews] ++ flushes) =
      some (_, _) := rfl
  have run := run_of_follow followed
  have actions := actions_of_follow followed
  refine ⟨_, _, run, actions, rfl,
    settings_durable env true host (server saved) run ?_ ?_
      (Or.inl holds_saved) ⟨rfl, rfl, rfl⟩⟩
  · intro entry member key value rest failed _ _
    refine takes_of_reachable run rfl ?_ entry member (.upsert key value)
    unfold Along
    decide
  · rintro entry member ⟨request, args, page, posted, command, -⟩
    have listed := List.mem_map_of_mem (f := Prod.snd) member
    rw [actions, posted] at listed
    simp only [asks, flushes, post, List.mem_append, List.mem_replicate,
      List.mem_cons, List.not_mem_nil, reduceCtorEq, and_false, or_false,
      false_or, Action.door.injEq] at listed
    subst listed
    have feel : commandOf env.vault.text
        ⟨"/api", "POST", some feelPleased, none⟩ =
          some ("feel", .object [("feeling", .string "pleased")]) := rfl
    rw [feel] at command
    simp at command

end Trial

end Cortex
