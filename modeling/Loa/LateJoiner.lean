import Loa.CortexEffects
import Loa.OledFeedBatching
import Loa.TransitionRun

/-!
# A late joiner at the face

A face that has been there all along holds every message that the cortex builds;
a face that joins late holds the newest message of each topic.  Each slot of the
held view belongs to one topic, and the messages of a topic speak for all of its
slots or for none, save two: a distance once measured is in every message that
follows, and the throttle bits are in the rails or not.
-/

namespace Oled

open FileDirectory Wire PartialUpdate TransitionRun

/-- The messages that the cortex builds for the face. -/
inductive Build
  | state
  | pir
  | sonar
  | weather
  | fault (dbDown : Bool)
  | power (rails : Dict F64) (status : List (String × Json.Value))

namespace Build

def topic : Build → String
  | .state => "state"
  | .pir => "pir"
  | .sonar => "sonar"
  | .weather => "weather"
  | .fault _ => "fault"
  | .power _ _ => "power"

def body (text : Json.Text) (cx : Cortex) (now : F64) : Build → Body
  | .state => Cortex.buildState cx.st now
  | .pir => Cortex.buildPir cx.st now
  | .sonar => Cortex.buildSonar cx.st now
  | .weather => cx.buildWeather now
  | .fault dbDown => cx.buildFault dbDown now
  | .power rails status => Cortex.buildPower text rails status now

def msg (text : Json.Text) (cx : Cortex) (now : F64) (build : Build) : Msg :=
  ⟨build.topic, envelope (build.body text cx now)⟩

end Build

/-- A run of the cortex, and the messages built from its states so far. -/
structure Assembly where
  sys : Cortex.Sys
  said : List Msg

inductive Assembling
  | move (action : Cortex.Action)
  | build (now : F64) (build : Build)

def Assembly.step (env : Cortex.Env) (assembly : Assembly) :
    Assembling → Option Assembly
  | .move action =>
      (assembly.sys.step env action).map fun sys => { assembly with sys := sys }
  | .build now build =>
      some
        { assembly with
          said := assembly.said ++
            [build.msg env.vault.text assembly.sys.cx now] }

def assembling (env : Cortex.Env) (dsn : Bool) (host : Host)
    (server : Cortex.Server) : Assembly :=
  ⟨Cortex.boot env dsn host server, []⟩

/-- Hold messages in order, each with the wall clock's reading at the time. -/
def holdAll (held : RenderState) (msgs : List (F64 × Msg)) : RenderState :=
  msgs.foldl (fun held entry => held.hold entry.1 entry.2.topic entry.2.env)
    held

/-- What a message carries, under its own topic. -/
def speaks (msg : Msg) : Patch Slot.Value :=
  carries msg.topic msg.env

theorem view_holdAll (held : RenderState) (msgs : List (F64 × Msg)) :
    view (holdAll held msgs) =
      (Patch.merged ((msgs.map Prod.snd).map speaks)).apply (view held) := by
  rw [← Patch.foldl_apply, List.foldl_map, List.foldl_map]
  unfold holdAll
  induction msgs generalizing held with
  | nil => rfl
  | cons entry rest induction =>
      rw [List.foldl_cons, List.foldl_cons, induction, view_hold]
      rfl

/-- The topic that a slot belongs to. -/
def owner : Slot → String
  | .pir => "pir"
  | .sonar => "sonar"
  | .weather => "weather"
  | .fault => "fault"
  | .power | .throttled => "power"
  | _ => "state"

theorem owner_subscribed (slot : Slot) : owner slot ∈ TOPICS := by
  cases slot <;> decide

theorem carries_of_owner_ne {topic : String} {slot : Slot}
    (foreign : owner slot ≠ topic) (env : Envelope) :
    carries topic env slot = none := by
  have other {spoken : String} {carried : Patch Slot.Value}
      (quiet : owner slot ≠ spoken → carried slot = none) :
      (if topic = spoken then carried else Patch.silent) slot = none := by
    by_cases here : topic = spoken
    · rw [if_pos here]
      exact quiet (here ▸ foreign)
    · rw [if_neg here]
      rfl
  unfold carries
  cases env.body with
  | none => rfl
  | some body =>
      cases body with
      | ring | event | init => rfl
      | _ =>
          refine other fun foreign => ?_
          cases slot <;> first | rfl | exact absurd rfl foreign

theorem owned (msgs : List Msg) : Patch.Owned owner Msg.topic speaks msgs :=
  fun msg _ _ foreign => carries_of_owner_ne foreign msg.env

/-- A message speaks for every slot of its topic, save for a distance and the
throttle bits. -/
theorem speaks_of_owner {text : Json.Text} {cx : Cortex} {now : F64}
    {build : Build} {slot : Slot} (own : build.topic = owner slot)
    (notSonar : slot ≠ .sonar) (notThrottled : slot ≠ .throttled) :
    speaks (build.msg text cx now) slot ≠ none := by
  cases build <;> cases slot <;>
    first
    | exact Option.some_ne_none _
    | contradiction
    | exact absurd own (by simp [Build.topic, owner])

theorem speaks_sonar_eq_none {text : Json.Text} {cx : Cortex} {now : F64}
    {build : Build} (own : build.topic = "sonar") :
    speaks (build.msg text cx now) .sonar = none ↔ cx.st.snrCm = none := by
  cases build with
  | sonar => exact Option.map_eq_none_iff
  | _ => exact absurd own (by simp [Build.topic])

/-- The throttle bits in a message. -/
def throttleIn (msg : Msg) : Option UInt32 :=
  match msg.env.body with
  | some (.power m) => (m.rails.lookup "throttled").map RustFloat.asU32
  | _ => none

theorem speaks_throttled (text : Json.Text) (cx : Cortex) (now : F64)
    (build : Build) :
    speaks (build.msg text cx now) .throttled =
      (throttleIn (build.msg text cx now)).map some := by
  cases build with
  | power rails status => exact (Option.map_map ..).symm
  | _ => rfl

/-- Every message said was built, and what is said of a distance is said by
every message of the sonar from then on. -/
structure Lasting (text : Json.Text) (assembly : Assembly) : Prop where
  built : ∀ msg ∈ assembly.said,
    ∃ cx now build, msg = Build.msg text cx now build
  lasting : (assembly.said.filter fun msg => msg.topic = "sonar").Pairwise
    fun earlier later =>
      speaks later .sonar = none → speaks earlier .sonar = none
  unmeasured : assembly.sys.cx.st.snrCm = none →
    ∀ msg ∈ assembly.said, msg.topic = "sonar" → speaks msg .sonar = none

theorem snrCm_merge {now : F64} {cx : Cortex} {msg : Msg}
    (unmeasured : (cx.merge now msg).st.snrCm = none) :
    cx.st.snrCm = none := by
  unfold Cortex.merge at unmeasured
  cases carried : msg.env.body with
  | none => rwa [carried] at unmeasured
  | some body =>
      rw [carried] at unmeasured
      cases body with
      | sonar s => exact (Option.or_eq_none_iff.mp unmeasured).2
      | weather w =>
          dsimp only at unmeasured
          unfold Cortex.mergeWeather at unmeasured
          cases pressure : w.pressureHpa <;>
            simpa [pressure, Cortex.pushBaro] using unmeasured
      | _ => exact unmeasured

/-- A distance once measured stays. -/
theorem snrCm_of_effect {env : Cortex.Env} {sys after : Cortex.Sys}
    {action : Cortex.Action} (effect : Cortex.Effect env sys action after)
    (unmeasured : after.cx.st.snrCm = none) : sys.cx.st.snrCm = none := by
  cases effect with
  | merged => exact snrCm_merge unmeasured
  | verbed command verb =>
      cases Cortex.verbed_of_stateVerb verb <;> exact unmeasured
  | flushed flushes => cases flushes <;> exact unmeasured
  | _ => exact unmeasured

theorem lasting_of_step {env : Cortex.Env} {assembly after : Assembly}
    {action : Assembling} (lasting : Lasting env.vault.text assembly)
    (stepped : assembly.step env action = some after) :
    Lasting env.vault.text after := by
  cases action with
  | move action =>
      obtain ⟨sys, moved, rfl⟩ := Option.map_eq_some_iff.mp stepped
      exact
        { built := lasting.built
          lasting := lasting.lasting
          unmeasured := fun none =>
            lasting.unmeasured
              (snrCm_of_effect (Cortex.effect_of_step moved) none) }
  | build now build =>
      cases stepped
      refine ⟨?_, ?_, ?_⟩
      · intro msg member
        rcases List.mem_append.mp member with earlier | new
        · exact lasting.built msg earlier
        · exact ⟨_, _, _, List.mem_singleton.mp new⟩
      · rw [List.filter_append, List.pairwise_append]
        refine ⟨lasting.lasting, (List.pairwise_singleton ..).filter _, ?_⟩
        intro earlier isEarlier later isLater silent
        obtain ⟨said, ofSonar⟩ := List.mem_filter.mp isEarlier
        obtain ⟨isNew, laterOfSonar⟩ := List.mem_filter.mp isLater
        cases List.mem_singleton.mp isNew
        exact lasting.unmeasured
          ((speaks_sonar_eq_none (of_decide_eq_true laterOfSonar)).mp silent)
          earlier said (of_decide_eq_true ofSonar)
      · intro unmeasured msg member ofSonar
        rcases List.mem_append.mp member with earlier | new
        · exact lasting.unmeasured unmeasured msg earlier ofSonar
        · cases List.mem_singleton.mp new
          exact (speaks_sonar_eq_none ofSonar).mpr unmeasured

theorem lasting_of_run {env : Cortex.Env} {dsn : Bool} {host : Host}
    {server : Cortex.Server} {trace : List (Assembly × Assembling)}
    {assembly : Assembly}
    (run : Run (Assembly.step env) (assembling env dsn host server) trace
      assembly) :
    Lasting env.vault.text assembly := by
  have initially :
      Lasting env.vault.text (assembling env dsn host server) :=
    { built := fun _ member => absurd member List.not_mem_nil
      lasting := .nil
      unmeasured := fun _ _ member => absurd member List.not_mem_nil }
  exact run.kept initially fun _ _ _ stepped lasting =>
    lasting_of_step lasting stepped

/-- If the newest message of the rails has no throttle bits, those said last, if
any, are the ones that were held at the start. -/
def ThrottleCurrent (held : RenderState) (said : List Msg) : Prop :=
  (Patch.newest Msg.topic said "power").bind throttleIn = none →
    ∀ bits ∈ (said.filterMap throttleIn).getLast?,
      held.powerThrottled = some bits

/-- Apart from the throttle bits, the newest message of its topic has the last
word on a slot. -/
theorem merged_said {text : Json.Text} {assembly : Assembly}
    (lasting : Lasting text assembly) {slot : Slot}
    (notThrottled : slot ≠ .throttled) :
    Patch.merged (assembly.said.map speaks) slot =
      (Patch.newest Msg.topic assembly.said (owner slot)).bind fun msg =>
        speaks msg slot := by
  rw [Patch.merged_of_owned owner Msg.topic speaks (owned assembly.said)]
  apply Patch.getLast?_filterMap_of_pairwise
  -- A sonar message may be silent; all others of the topic speak for the slot.
  by_cases sonar : slot = .sonar
  · subst sonar
    exact lasting.lasting
  · refine List.Pairwise.imp_of_mem ?_
      (List.pairwise_of_forall fun _ _ => trivial)
    intro earlier later _ member _ silent
    obtain ⟨said, own⟩ := List.mem_filter.mp member
    obtain ⟨cx, now, build, rfl⟩ := lasting.built later said
    exact absurd silent
      (speaks_of_owner (of_decide_eq_true own) sonar notThrottled)

theorem merged_throttled {text : Json.Text} {assembly : Assembly}
    (lasting : Lasting text assembly) :
    Patch.merged (assembly.said.map speaks) .throttled =
      (assembly.said.filterMap throttleIn).getLast?.map some := by
  rw [Patch.merged_eq_getLast?, List.filterMap_map, ← List.getLast?_map,
    List.map_filterMap]
  congr 1
  refine List.filterMap_congr fun msg member => ?_
  obtain ⟨cx, now, build, rfl⟩ := lasting.built msg member
  exact speaks_throttled text cx now build

theorem newest_throttled {text : Json.Text} {assembly : Assembly}
    (lasting : Lasting text assembly) :
    ((Patch.newest Msg.topic assembly.said (owner .throttled)).bind fun msg =>
        speaks msg .throttled) =
      ((Patch.newest Msg.topic assembly.said "power").bind throttleIn).map
        some := by
  unfold owner
  cases isNewest : Patch.newest Msg.topic assembly.said "power" with
  | none => rfl
  | some msg =>
      obtain ⟨member, -⟩ := Patch.tag_of_newest Msg.topic isNewest
      obtain ⟨cx, now, build, rfl⟩ := lasting.built msg member
      exact speaks_throttled text cx now build

/-- Whatever the order of the topics, a late joiner sees what a long listener
sees exactly when the throttle bits last said are in the newest message of the
rails or held from the start. -/
theorem late_joiner_iff (env : Cortex.Env) (dsn : Bool) (host : Host)
    (server : Cortex.Server) {trace : List (Assembly × Assembling)}
    {assembly : Assembly}
    (run : Run (Assembly.step env) (assembling env dsn host server) trace
      assembly)
    (held : RenderState) {all late : List (F64 × Msg)}
    (everything : all.map Prod.snd = assembly.said)
    (newestOnly : (late.map Prod.snd).Perm
      (TOPICS.filterMap (Patch.newest Msg.topic assembly.said))) :
    SameApartFromClock (holdAll held all) (holdAll held late) ↔
      ThrottleCurrent held assembly.said := by
  have lasting := lasting_of_run run
  have slotwise (slot : Slot) :
      view (holdAll held all) slot = view (holdAll held late) slot ↔
        (((Patch.newest Msg.topic assembly.said (owner slot)).bind fun msg =>
            speaks msg slot) = none →
          ∀ value ∈ Patch.merged (assembly.said.map speaks) slot,
            view held slot = value) := by
    have newestSays := Patch.merged_of_newest owner Msg.topic speaks (by decide)
      newestOnly (owned assembly.said) (owner_subscribed slot)
    rw [view_holdAll, view_holdAll, everything,
      ← Patch.apply_merged_eq_newest_iff owner Msg.topic speaks
        (owned assembly.said), ← newestSays]
    rfl
  have throttled : view (holdAll held all) .throttled =
        view (holdAll held late) .throttled ↔
      ThrottleCurrent held assembly.said := by
    rw [slotwise, newest_throttled lasting, merged_throttled lasting,
      Option.map_eq_none_iff]
    exact imp_congr_right fun _ => Option.forall_mem_map
  rw [sameApartFromClock_iff, ← throttled]
  constructor
  · intro same
    exact congrFun same .throttled
  · intro same
    funext slot
    by_cases isThrottled : slot = .throttled
    · subst isThrottled
      exact same
    · rw [slotwise, merged_said lasting isThrottled]
      intro silent value spoken
      rw [silent] at spoken
      cases spoken

namespace Trial

/-- Nothing built yet, the cortex just started. -/
def started : Assembly :=
  assembling Cortex.Trial.env true Cortex.Trial.host (Cortex.Trial.server ∅)

/-- Rails with throttle bits among them. -/
def throttledRails (bits : F64) : Dict F64 :=
  AList.singleton "throttled" bits

/-- The bits are read once, and then only a voltage is. -/
def bitsLost : List Assembling :=
  [.build 1 (.power (throttledRails 5) []),
    .build 2 (.power (AList.singleton "EXT5V_V" 5) [])]

/-- The long listener keeps the bits; the late joiner never sees them. -/
theorem throttle_remembered :
    ∃ trace assembly,
      Run (Assembly.step Cortex.Trial.env) started trace assembly ∧
      trace.map Prod.snd = bitsLost ∧
      ∃ first second, assembly.said = [first, second] ∧
        TOPICS.filterMap (Patch.newest Msg.topic assembly.said) = [second] ∧
        ¬ SameApartFromClock
          (holdAll { clockNow := 0 } [(1, first), (2, second)])
          (holdAll { clockNow := 0 } [(2, second)]) := by
  have followed : follow (Assembly.step Cortex.Trial.env) started bitsLost =
      some (_, _) := rfl
  refine ⟨_, _, run_of_follow followed, actions_of_follow followed, _, _, rfl,
    rfl, ?_⟩
  intro same
  have bits := congrArg RenderState.powerThrottled same
  exact absurd bits (by decide +kernel)

/-- A run in which every topic is built, some of them twice. -/
def bitsKept : List Assembling :=
  Cortex.Trial.asks.map .move ++
    [.build 1 .state, .build 2 (.power (throttledRails 5) []),
      .move (Cortex.Trial.push "sonar"
        (.sonar { cm := some 40, ts := some 3 })),
      .build 3 .sonar, .build 4 .pir, .build 5 .weather,
      .build 6 (.fault true),
      .move (Cortex.Trial.post Cortex.Trial.feelPleased), .build 7 .state,
      .build 8 (.power (throttledRails 0) [])]

/-- With the bits in the newest message, joining late makes no difference. -/
theorem late_joiner_iff_bits :
    ∃ trace assembly,
      Run (Assembly.step Cortex.Trial.env) started trace assembly ∧
      trace.map Prod.snd = bitsKept ∧
      SameApartFromClock
        (holdAll { clockNow := 0 } (assembly.said.map fun msg => (9, msg)))
        (holdAll { clockNow := 0 }
          ((TOPICS.filterMap (Patch.newest Msg.topic assembly.said)).reverse.map
            fun msg => (9, msg))) := by
  obtain ⟨trace, assembly, followed, spoken⟩ :
      ∃ trace assembly,
        follow (Assembly.step Cortex.Trial.env) started bitsKept =
          some (trace, assembly) ∧
        (Patch.newest Msg.topic assembly.said "power").bind throttleIn ≠ none :=
    ⟨_, _, rfl, by decide +kernel⟩
  refine ⟨trace, assembly, run_of_follow followed, actions_of_follow followed,
    (late_joiner_iff Cortex.Trial.env true Cortex.Trial.host
      (Cortex.Trial.server ∅) (run_of_follow followed) { clockNow := 0 }
      (by simp) ?_).mpr fun silent => absurd silent spoken⟩
  simp only [List.map_map, Function.comp_def, List.map_id']
  exact List.reverse_perm _

end Trial

end Oled
