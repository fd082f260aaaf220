import Loa.CortexFeed
import Loa.InboundEvents
import Loa.RingDaemon

/-!
# A mood on its way to the ring

A sustained mood travels to the ring as the state of the ring, in the next
state message; a one-shot mood would have to travel as a record.  The file
follows what a ring hears from the command to the end of its news.
-/

namespace Cortex

open FileDirectory Json Wire RustText TransitionRun

/-- The state of the ring that a body tells. -/
def readRingState : Body → Option String
  | .ripperdoc m => some (m.ringState.getD "")
  | _ => none

def ringStatesOn (prost : Prost) (feed : List Parts) : List String :=
  saidUnder prost "state" readRingState feed

@[simp]
theorem ringStatesOn_append (prost : Prost) (feed said : List Parts) :
    ringStatesOn prost (feed ++ said) =
      ringStatesOn prost feed ++ ringStatesOn prost said :=
  saidUnder_append ..

/-- A ring that was there before goes on through messages delivered in order,
each at its own time. -/
def ringAfter (prost : Prost) (ring : RingDaemon.Daemon)
    (delivered : List (F64 × Parts)) : RingDaemon.Daemon :=
  delivered.foldl
    (fun ring next => RingDaemon.receive prost next.1 ring next.2) ring

theorem hold_ringState (t : F64) (ring : RingDaemon.Daemon) (msg : Msg) :
    (RingDaemon.hold t ring msg).held.ringState =
      (if msg.topic = "state" then msg.env.body.bind readRingState
        else none).getD ring.held.ringState := by
  unfold RingDaemon.hold
  cases msg.env.body with
  | none => simp
  | some body =>
      cases body with
      | ripperdoc m =>
          by_cases state : msg.topic = "state" <;> simp [state, readRingState]
      | event e =>
          simp only [Option.bind_some, readRingState, ite_self,
            Option.getD_none]
          split
          · split <;> rfl
          · rfl
      | _ => simp [readRingState]

theorem hold_renderer (t : F64) (ring : RingDaemon.Daemon) {msg : Msg}
    (other : ∀ e, msg.env.body = some (.event e) → e.kind ≠ "ring") :
    (RingDaemon.hold t ring msg).renderer = ring.renderer := by
  unfold RingDaemon.hold
  cases carries : msg.env.body with
  | none => rfl
  | some body =>
      cases body with
      | event e => simp [other e carries]
      | ripperdoc m =>
          dsimp only
          split <;> rfl
      | _ => rfl

/-- One message off the feed: the state it tells, and no one-shot unless it
tells of a record of the ring's kind. -/
theorem receive_spec (prost : Prost) (t : F64) (ring : RingDaemon.Daemon)
    {parts : Parts} (named : Named parts) :
    (RingDaemon.receive prost t ring parts).held.ringState =
        (under prost "state" readRingState parts).getD ring.held.ringState ∧
      ((∀ e, under prost "event" readEvent parts = some e →
          e.kind ≠ "ring") →
        (RingDaemon.receive prost t ring parts).renderer = ring.renderer) := by
  obtain ⟨bytes, payload⟩ := parts
  obtain ⟨topic, known, rfl⟩ := named
  unfold RingDaemon.receive under
  cases decoded : decode prost ⟨asBytes topic, payload⟩ with
  | error error => simp
  | ok msg =>
      obtain ⟨rfl, name, bodyNamed, allowed⟩ := decode_named decoded
      dsimp only
      constructor
      · split
        · exact hold_ringState t ring msg
        -- A message that a ring does not subscribe to is no state message.
        · rename_i unheard
          have notState : msg.topic ≠ "state" := by
            intro state
            have onRing : msg.topic ∈ RingDaemon.TOPICS := by
              rw [state]
              decide
            exact unheard (subscribed_of_mem onRing payload)
          simp [notState]
      · intro other
        split
        · apply hold_renderer
          intro e carries
          rw [bodyName, carries] at bodyNamed
          cases bodyNamed
          have event : msg.topic = "event" := by
            simpa [bodyAllowed, ALIASES] using allowed
          exact other e (by simp [event, carries, readEvent])
        · rfl

/-- Over a whole feed the last state message counts, and no record of the
ring's kind means no change in the one-shots. -/
theorem ringAfter_spec (prost : Prost) (ring : RingDaemon.Daemon)
    {delivered : List (F64 × Parts)} {said : List Parts}
    (whole : delivered.map Prod.snd = said)
    (named : ∀ parts ∈ said, Named parts) :
    (ringAfter prost ring delivered).held.ringState =
        (ringStatesOn prost said).getLast?.getD ring.held.ringState ∧
      ((∀ e ∈ eventsOn prost said, e.kind ≠ "ring") →
        (ringAfter prost ring delivered).renderer = ring.renderer) := by
  subst whole
  induction delivered using List.reverseRecOn with
  | nil => exact ⟨rfl, fun _ => rfl⟩
  | append_singleton delivered last induction =>
      rw [List.map_append] at named ⊢
      obtain ⟨state, renderer⟩ := induction fun parts member =>
        named parts (List.mem_append_left _ member)
      have step : ringAfter prost ring (delivered ++ [last]) =
          RingDaemon.receive prost last.1 (ringAfter prost ring delivered)
            last.2 := by
        simp [ringAfter, List.foldl_append]
      obtain ⟨lastState, lastRenderer⟩ := receive_spec prost last.1
        (ringAfter prost ring delivered) (named last.2 (by simp))
      rw [step]
      constructor
      · rw [lastState, state]
        cases told : under prost "state" readRingState last.2 with
        | none => simp [ringStatesOn, saidUnder, told]
        | some word => simp [ringStatesOn, saidUnder, told]
      · intro other
        rw [eventsOn_append] at other
        rw [lastRenderer]
        · exact renderer fun e member =>
            other e (List.mem_append_left _ member)
        · intro e found
          apply other e
          simp [eventsOn, saidUnder, found]

theorem ringStatesOn_published_other (prost : Prost) {topic : String}
    (other : topic ≠ "state") (body : Body) :
    ringStatesOn prost (published topic body) = [] :=
  saidUnder_published_other prost readRingState other body

theorem ringStatesOn_relayed (prost : Prost) (parts : Parts) :
    ringStatesOn prost (relayed parts) = [] :=
  saidUnder_relayed prost readRingState (by decide) parts

theorem ringStatesOn_rebuilt (prost : Prost) (cx : Cortex) (dbDown : Bool)
    (now : F64) (msg : Msg) :
    ringStatesOn prost (rebuilt cx dbDown now msg) = [] :=
  saidUnder_rebuilt prost readRingState (by decide) cx dbDown now msg

theorem ringStatesOn_republished (env : Env) (sys : Sys) :
    ringStatesOn env.prost (republished env sys) = [sys.cx.st.ringState] :=
  saidUnder_republished env.prost readRingState "state" env sys

/-- No reading moves the ring's state. -/
theorem merge_ringState (now : F64) (cx : Cortex) (msg : Msg) :
    (cx.merge now msg).st.ringState = cx.st.ringState := by
  have same := settingsSnapshot_merge now cx msg
  simp only [settingsSnapshot, List.cons.injEq, Prod.mk.injEq,
    Value.string.injEq] at same
  exact same.2.1.2

/-- In this step a mood is accepted. -/
def Feels (env : Env) (sys : Sys) (action : Action) : Prop :=
  ∃ request args mood, action = .door request ∧
    commandOf env.vault.text request = some ("feel", args) ∧
    felt sys.cx args = some mood

/-- What a step that accepts no mood says and leaves of the ring's state:
nothing and the news that are to say it, or the state. -/
structure Beside (env : Env) (sys after : Sys) : Prop where
  ringState : after.cx.st.ringState = sys.cx.st.ringState
  said :
    (ringStatesOn env.prost after.feed = ringStatesOn env.prost sys.feed ∧
      (News.stateChanged ∈ sys.news → News.stateChanged ∈ after.news)) ∨
    ringStatesOn env.prost after.feed =
      ringStatesOn env.prost sys.feed ++ [sys.cx.st.ringState]

theorem Beside.of_same {env : Env} {sys after : Sys}
    (ringState : after.cx.st.ringState = sys.cx.st.ringState)
    (news : after.news = sys.news)
    (feed : ringStatesOn env.prost after.feed =
      ringStatesOn env.prost sys.feed) :
    Beside env sys after := by
  refine ⟨ringState, Or.inl ⟨feed, ?_⟩⟩
  rw [news]
  exact id

/-- Of the state verbs, only a mood moves the ring's state. -/
theorem ringState_of_verb {env : Env} {sys : Sys} {request : Request}
    {cmd : String} {args : Value} {dispatched : Dispatched}
    (command : commandOf env.vault.text request = some (cmd, args))
    (verb : stateVerb sys.cx cmd args = some dispatched)
    (noMood : ¬ Feels env sys (.door request)) :
    dispatched.cx.st.ringState = sys.cx.st.ringState := by
  cases verbed_of_stateVerb verb with
  | felt args out mood note target good =>
      exact absurd ⟨request, args, mood, rfl, command, target⟩ noMood
  | _ => rfl

theorem beside_of_effect {env : Env} {sys after : Sys} {action : Action}
    (effect : Effect env sys action after)
    (noMood : ¬ Feels env sys action) : Beside env sys after := by
  cases effect with
  | asked main =>
      apply Beside.of_same <;>
        simp [ringStatesOn_published_other env.prost
          (by decide : "init" ≠ "state")]
  | opened main =>
      refine ⟨rfl, Or.inr ?_⟩
      simp [ringStatesOn_republished]
  | relay main frame =>
      apply Beside.of_same <;> simp [ringStatesOn_relayed]
  | merged ticks main decoded =>
      apply Beside.of_same <;> simp [ringStatesOn_rebuilt, merge_ringState]
  | verbed command verb =>
      refine ⟨ringState_of_verb command verb noMood, Or.inl ⟨rfl, ?_⟩⟩
      exact List.mem_append_left _
  | logged main news =>
      refine ⟨rfl, Or.inl ⟨?_, ?_⟩⟩
      · simp [ringStatesOn_published_other env.prost
          (by decide : "event" ≠ "state")]
      · rw [news]
        simp
  | republish main news =>
      refine ⟨rfl, Or.inr ?_⟩
      simp [ringStatesOn_republished]
  | powered main news =>
      apply Beside.of_same <;>
        simp [ringStatesOn_published_other env.prost
          (by decide : "power" ≠ "state")]
  | flushed flushes => cases flushes <;> exact Beside.of_same rfl rfl rfl
  | dropped | answered | sampled | cut | restored =>
      exact Beside.of_same rfl rfl rfl

/-- No news of the door's is a record of the ring's kind. -/
def NoRecord (news : List News) : Prop :=
  ∀ kind detail, News.event kind detail ∈ news → kind ≠ "ring"

theorem noRecord_newsOf {cx : Cortex} {cmd : String} {args : Value}
    {dispatched : Dispatched}
    (verb : stateVerb cx cmd args = some dispatched) :
    NoRecord (newsOf cmd dispatched) := by
  have kinds (kind : String) (detail : Value)
      (event : dispatched.event = some (kind, detail)) : kind ≠ "ring" := by
    cases verbed_of_stateVerb verb with
    | felt =>
        cases event
        decide
    | showed =>
        cases event
        decide
    | consoled =>
        cases event
        decide
    | _ => cases event
  intro kind detail member
  unfold newsOf at member
  split at member
  · rename_i kind' detail' event
    simp only [List.mem_cons, News.event.injEq, reduceCtorEq,
      List.not_mem_nil, or_false] at member
    obtain ⟨rfl, rfl⟩ := member
    exact kinds _ _ event
  · split at member
    · simp at member
    · cases member

theorem noRecord_of_effect {env : Env} {sys after : Sys} {action : Action}
    (effect : Effect env sys action after) (noRecord : NoRecord sys.news) :
    NoRecord after.news := by
  cases effect with
  | verbed command verb =>
      intro kind detail member
      rcases List.mem_append.mp member with old | new
      · exact noRecord kind detail old
      · exact noRecord_newsOf verb kind detail new
  | logged main news | republish main news =>
      rw [news] at noRecord
      exact fun kind detail member =>
        noRecord kind detail (List.mem_cons_of_mem _ member)
  | flushed flushes => cases flushes <;> exact noRecord
  | _ => exact noRecord

theorem noRecord_of_run {env : Env} {dsn : Bool} {host : Host}
    {server : Server} {trace : List (Sys × Action)} {sys : Sys}
    (run : Run (Sys.step env) (boot env dsn host server) trace sys) :
    NoRecord sys.news := by
  induction run with
  | stay =>
      obtain ⟨-, -, news, -⟩ := boot_fields env dsn host server
      intro kind detail member
      rw [news] at member
      cases member
  | move _ stepped induction =>
      exact noRecord_of_effect (effect_of_step stepped) induction

theorem feed_grows_of_run {env : Env} {start sys : Sys}
    {trace : List (Sys × Action)} (run : Run (Sys.step env) start trace sys) :
    start.feed <+: sys.feed := by
  induction run with
  | stay => exact List.prefix_refl _
  | move _ stepped induction =>
      exact induction.trans (feed_grows (effect_of_step stepped))

/-- Between a command and the end of its news: the state of the ring stays,
nothing else is said of it, it is yet to be said or has been, and no record is
the ring's. -/
structure Underway (env : Env) (start sys : Sys) : Prop where
  ringState : sys.cx.st.ringState = start.cx.st.ringState
  noRecord : NoRecord sys.news
  told : ∃ words,
    ringStatesOn env.prost sys.feed =
        ringStatesOn env.prost start.feed ++ words ∧
      (∀ word ∈ words, word = start.cx.st.ringState) ∧
      (News.stateChanged ∈ sys.news ∨ words ≠ [])
  events : ∃ records,
    eventsOn env.prost sys.feed =
        eventsOn env.prost start.feed ++ records ∧
      ∀ e ∈ records, e.kind ≠ "ring"

theorem Underway.step {env : Env} {start sys after : Sys} {action : Action}
    (underway : Underway env start sys) (effect : Effect env sys action after)
    (noMood : ¬ Feels env sys action) : Underway env start after := by
  have beside := beside_of_effect effect noMood
  refine ⟨beside.ringState.trans underway.ringState,
    noRecord_of_effect effect underway.noRecord, ?_, ?_⟩
  · obtain ⟨words, said, same, pending⟩ := underway.told
    rcases beside.said with ⟨quiet, kept⟩ | restated
    · exact ⟨words, quiet.trans said, same, pending.imp_left kept⟩
    · refine ⟨words ++ [sys.cx.st.ringState], ?_, ?_, Or.inr (by simp)⟩
      · rw [restated, said, List.append_assoc]
      · intro word member
        rcases List.mem_append.mp member with old | new
        · exact same word old
        · rw [List.mem_singleton.mp new, underway.ringState]
  · obtain ⟨records, said, other⟩ := underway.events
    obtain ⟨published, -⟩ := events_of_effect effect
    refine ⟨records ++ (ownRows env [(sys, action)]).map (messageFor env), ?_,
      ?_⟩
    · rw [published, said, List.append_assoc]
    · intro e member
      rcases List.mem_append.mp member with old | new
      · exact other e old
      · obtain ⟨row, own, rfl⟩ := List.mem_map.mp new
        unfold ownRows at own
        obtain ⟨entry, only, found⟩ := List.mem_filterMap.mp own
        rw [List.mem_singleton] at only
        subst only
        dsimp only at found
        split at found
        · rename_i kind detail rest news
          cases found
          exact underway.noRecord kind detail (by rw [news]; simp)
        · cases found

/-- The tell of a record of the ring's kind. -/
def oneShotOf (ring : String) : Option RingDaemon.Tell :=
  if ring = "scan" then some .scan
  else if ring = "glitch" then some .glitch
  else none

/-- The mood's ring is held as the ring's state or pending as a one-shot. -/
def Reached (mood : Mood) (ring : RingDaemon.Daemon) : Prop :=
  (mood.ring ∈ ["home", "busy", "alarm"] ∧
      ring.held.ringState = mood.ring) ∨
    ∃ tell, oneShotOf mood.ring = some tell ∧
      ring.renderer.pendingOneshot = some tell

theorem mem_of_feelTarget {cx : Cortex} {feeling : Option String} {next : Bool}
    {mood : Mood} (target : cx.feelTarget feeling next = some mood) :
    mood ∈ MOODS := by
  unfold feelTarget at target
  split at target
  · cases target
    have listed : ∀ index < MOODS.length,
        MOODS.getD index Mood.calm ∈ MOODS := by decide
    unfold nextFrom
    split
    · exact listed _ (Nat.mod_lt _ (by decide))
    · exact listed 0 (by decide)
  · obtain ⟨name, -, found⟩ := Option.bind_eq_some_iff.mp target
    exact List.mem_of_find?_eq_some found

/-- The sustained moods are states of the ring and the others are records. -/
theorem ring_of_mem {mood : Mood} (listed : mood ∈ MOODS) :
    if mood.oneShot then
      mood.ring ∉ ["home", "busy", "alarm"] ∧ (oneShotOf mood.ring).isSome
    else
      mood.ring ∈ ["home", "busy", "alarm"] ∧ oneShotOf mood.ring = none := by
  revert listed
  revert mood
  decide

theorem serveRequest_felt {env : Env} {sys : Sys} {request : Request}
    {args : Value} {mood : Mood}
    (command : commandOf env.vault.text request = some ("feel", args))
    (target : felt sys.cx args = some mood) :
    ∃ detail, sys.serveRequest env request =
      { sys with
        cx := sys.cx.wear mood
        news := sys.news ++ [.event "mood" detail, .stateChanged] } := by
  have verb : stateVerb sys.cx "feel" args =
      some (dispatchFeel sys.cx args) := rfl
  rw [serveRequest_verb command verb]
  unfold felt at target
  unfold dispatchFeel Cortex.feel
  rw [target]
  exact ⟨_, rfl⟩

section Delivery

variable {env : Env} {dsn : Bool} {host : Host} {server : Server}
  {past : List (Sys × Action)} {sys : Sys} {request : Request} {args : Value}
  {mood : Mood} {later : List (Sys × Action)} {after : Sys}

theorem underway_of_run
    (run : Run (Sys.step env) (boot env dsn host server) past sys)
    (command : commandOf env.vault.text request = some ("feel", args))
    (target : felt sys.cx args = some mood)
    (heard : Run (Sys.step env) (sys.serveRequest env request) later after)
    (undisturbed : Along (fun before action => ¬ Feels env before action)
      later) :
    Underway env (sys.serveRequest env request) after := by
  have noRecord := noRecord_of_run run
  have effect := effect_of_serveRequest env sys request
  refine heard.invariant undisturbed ?_ ?_
  · refine ⟨rfl, noRecord_of_effect effect noRecord,
      ⟨[], by simp, by simp, Or.inl ?_⟩, ⟨[], by simp, by simp⟩⟩
    obtain ⟨detail, served⟩ := serveRequest_felt command target
    rw [served]
    simp
  · intro _ _ _ noMood stepped underway
    exact underway.step (effect_of_step stepped) noMood

/-- What a ring has after the news of a mood: the cortex's state of the ring,
and the one-shot that it had before. -/
theorem ringAfter_of_felt
    (run : Run (Sys.step env) (boot env dsn host server) past sys)
    (command : commandOf env.vault.text request = some ("feel", args))
    (target : felt sys.cx args = some mood)
    (heard : Run (Sys.step env) (sys.serveRequest env request) later after)
    (undisturbed : Along (fun before action => ¬ Feels env before action)
      later)
    (drained : after.news = []) (ring : RingDaemon.Daemon)
    {delivered : List (F64 × Parts)}
    (whole : after.feed = sys.feed ++ delivered.map Prod.snd) :
    (ringAfter env.prost ring delivered).held.ringState =
        (sys.cx.wear mood).st.ringState ∧
      (ringAfter env.prost ring delivered).renderer = ring.renderer := by
  have underway := underway_of_run run command target heard undisturbed
  obtain ⟨detail, served⟩ := serveRequest_felt command target
  have named : ∀ parts ∈ after.feed, Named parts := by
    have before : Telling env (fun _ => True) sys :=
      telling_of_run run fun _ _ => trivial
    have started : Telling env (fun _ => True) (sys.serveRequest env request) :=
      telling_of_allowed before trivial (effect_of_serveRequest env sys request)
    have kept : Telling env (fun _ => True) after :=
      heard.kept started fun _ _ _ stepped telling =>
        telling_of_allowed telling trivial (effect_of_step stepped)
    exact kept.named
  obtain ⟨state, renderer⟩ := ringAfter_spec env.prost ring rfl
    fun parts member => named parts (whole ▸ List.mem_append_right _ member)
  obtain ⟨words, said, same, pending⟩ := underway.told
  obtain ⟨records, spoken, other⟩ := underway.events
  rw [served, whole, ringStatesOn_append, List.append_cancel_left_eq] at said
  rw [served, whole, eventsOn_append, List.append_cancel_left_eq] at spoken
  constructor
  · rw [state, said]
    rw [drained] at pending
    have some : words ≠ [] := by simpa using pending
    rw [List.getLast?_eq_some_getLast some, Option.getD_some,
      same _ (List.getLast_mem some), served]
  · exact renderer (spoken ▸ other)

/-- A mood reaches the ring exactly when it is a sustained one, or when the
ring has that very one-shot pending from before. -/
theorem mood_reaches_iff
    (run : Run (Sys.step env) (boot env dsn host server) past sys)
    (command : commandOf env.vault.text request = some ("feel", args))
    (target : felt sys.cx args = some mood)
    (heard : Run (Sys.step env) (sys.serveRequest env request) later after)
    (undisturbed : Along (fun before action => ¬ Feels env before action)
      later)
    (drained : after.news = []) (ring : RingDaemon.Daemon)
    {delivered : List (F64 × Parts)}
    (whole : after.feed = sys.feed ++ delivered.map Prod.snd) :
    Reached mood (ringAfter env.prost ring delivered) ↔
      mood.oneShot = false ∨
        ring.renderer.pendingOneshot = oneShotOf mood.ring := by
  obtain ⟨state, renderer⟩ := ringAfter_of_felt run command target heard
    undisturbed drained ring whole
  have rings := ring_of_mem (mem_of_feelTarget target)
  unfold Reached
  rw [state, renderer]
  cases oneShot : mood.oneShot with
  | false =>
      rw [oneShot] at rings
      have worn : (sys.cx.wear mood).st.ringState = mood.ring := by
        simp [wear, oneShot]
      simp [worn, rings.1]
  | true =>
      rw [oneShot, if_pos rfl] at rings
      obtain ⟨tell, told⟩ := Option.isSome_iff_exists.mp rings.2
      simp [rings.1, told]

end Delivery

namespace Trial

def pleased : Mood :=
  ⟨"pleased", "scan", true, "ripple", none, false⟩

def feelRequest : Request :=
  ⟨"/api", "POST", some feelPleased, none⟩

def feelArgs : Value :=
  .object [("feeling", .string "pleased")]

/-- The process after its asks. -/
def asked : Sys :=
  (follow (Sys.step env) (boot env true host (server ∅)) asks).elim
    (boot env true host (server ∅)) Prod.snd

/-- And after the news of a `feel`. -/
def told : Sys :=
  (follow (Sys.step env) (asked.serveRequest env feelRequest)
    [.hearNews, .hearNews]).elim asked Prod.snd

/-- What was said for the `feel`, delivered. -/
def delivered : List (F64 × Parts) :=
  (told.feed.drop asked.feed.length).map fun parts => (0, parts)

theorem run_asked :
    ∃ past, Run (Sys.step env) (boot env true host (server ∅)) past asked :=
  ⟨_, run_of_follow (rfl : follow _ _ asks = some (_, asked))⟩

theorem run_told :
    ∃ later,
      Run (Sys.step env) (asked.serveRequest env feelRequest) later told ∧
        Along (fun before action => ¬ Feels env before action) later := by
  refine ⟨_, run_of_follow
    (rfl : follow _ _ [.hearNews, .hearNews] = some (_, told)), ?_⟩
  unfold Along Feels
  simp

theorem whole_delivered :
    told.feed = asked.feed ++ delivered.map Prod.snd := by
  obtain ⟨later, heard, -⟩ := run_told
  have grown : (asked.serveRequest env feelRequest).feed <+: told.feed :=
    feed_grows_of_run heard
  obtain ⟨said, whole⟩ := grown
  have start : (asked.serveRequest env feelRequest).feed = asked.feed := rfl
  rw [start] at whole
  simp [delivered, ← whole, Function.comp_def]

/-- A ring without a one-shot hears a one-shot mood and has none. -/
theorem pleased_not_reached :
    felt asked.cx feelArgs = some pleased ∧
      told.feed = asked.feed ++ delivered.map Prod.snd ∧
      ¬ Reached pleased (ringAfter env.prost {} delivered) := by
  obtain ⟨past, run⟩ := run_asked
  obtain ⟨later, heard, undisturbed⟩ := run_told
  have command : commandOf env.vault.text feelRequest =
      some ("feel", feelArgs) := rfl
  have target : felt asked.cx feelArgs = some pleased := rfl
  obtain ⟨-, renderer⟩ := ringAfter_of_felt run command target heard undisturbed
    rfl {} whole_delivered
  refine ⟨target, whole_delivered, ?_⟩
  unfold Reached
  rw [renderer]
  rintro (⟨sustained, -⟩ | ⟨tell, -, pending⟩)
  · exact absurd sustained (by decide)
  · cases pending

theorem mood_reaches_iff_trial :
    Reached pleased (ringAfter env.prost {} delivered) ↔
      pleased.oneShot = false ∨
        ({} : RingDaemon.Daemon).renderer.pendingOneshot =
          oneShotOf pleased.ring := by
  obtain ⟨past, run⟩ := run_asked
  obtain ⟨later, heard, undisturbed⟩ := run_told
  have command : commandOf env.vault.text feelRequest =
      some ("feel", feelArgs) := rfl
  exact mood_reaches_iff run command rfl heard undisturbed rfl {}
    whole_delivered

end Trial

end Cortex
