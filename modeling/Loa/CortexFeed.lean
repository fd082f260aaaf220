import Loa.CortexEffects
import Loa.OledRenderState
import Loa.RingDaemon
import Loa.TransitionRun
import Loa.WireExactness
import Mathlib.Data.List.Induction

/-!
# What the feed tells its listeners

The face and the ring hear the cortex through the feed alone.  Of everything on
it, three things decide the condition they act on: the word of the last state
message and the last fault message.  The file reads them off the feed, connects
them with the two daemons' held views, and follows them through every step of
the cortex.
-/

namespace Cortex

open FileDirectory Wire RustText TransitionRun

/-- A message under one of the contract's topics. -/
def Named (parts : Parts) : Prop :=
  ∃ topic ∈ TOPICS, parts.topic = asBytes topic

/-- What has been heard of the condition. -/
structure Heard where
  faceWord : String := ""
  stateCond : Option String := none
  fault : Option Fault := none

/-- Hear one message. -/
def Heard.add (heard : Heard) (topic : String) (body : Body) : Heard :=
  match body with
  | .ripperdoc m =>
      if topic = "state" then
        { heard with
          faceWord := m.condition.getD heard.faceWord
          stateCond := m.condition }
      else heard
  | .fault m => { heard with fault := some m }
  | _ => heard

def hear (prost : Prost) (heard : Heard) (parts : Parts) : Heard :=
  match decode prost parts with
  | .ok msg =>
      match msg.env.body with
      | some body => heard.add msg.topic body
      | none => heard
  | .error _ => heard

def heardOn (prost : Prost) (feed : List Parts) : Heard :=
  feed.foldl (hear prost) {}

/-- A face after messages delivered in order, each at its own time on the wall;
`boot` is when the face started. -/
def faceOn (prost : Prost) (boot : F64) (delivered : List (F64 × Parts)) :
    Oled.RenderState :=
  delivered.foldl (fun face next => Oled.receive prost next.1 face next.2)
    { clockNow := boot }

/-- A ring after messages delivered in order, each at its own time. -/
def ringOn (prost : Prost) (delivered : List (F64 × Parts)) :
    RingDaemon.Daemon :=
  delivered.foldl
    (fun ring next => RingDaemon.receive prost next.1 ring next.2) {}

/-- A listener that is in step with what has been heard. -/
structure InStep (face : Oled.RenderState) (ring : RingDaemon.Held)
    (heard : Heard) : Prop where
  faceWord : face.condition = heard.faceWord
  faceSeen : face.faultSeen = heard.fault.isSome
  ringState : ring.stateCond = heard.stateCond
  ringSeen : ring.faultSeen = heard.fault.isSome
  ringFault : ring.faultCond = heard.fault.bind Fault.condition

theorem subscribed_of_mem {topics : List String} {topic : String}
    (member : topic ∈ topics) (payload : Frame) :
    subscribed topics ⟨asBytes topic, payload⟩ = true := by
  unfold subscribed
  rw [List.any_eq_true]
  exact ⟨topic, member, by simp⟩

theorem topic_of_fault {topic : String}
    (allowed : bodyAllowed topic "fault" = true) : topic = "fault" := by
  simpa [bodyAllowed, ALIASES] using allowed

/-- What a message does to the face's word and its mute gate. -/
theorem face_hold (wall : F64) (face : Oled.RenderState) (topic : String)
    {env : Envelope} {body : Body} (carries : env.body = some body)
    (named : topic = "fault" ∨ ∀ m, body ≠ .fault m) (heard : Heard)
    (word : face.condition = heard.faceWord)
    (seen : face.faultSeen = heard.fault.isSome) :
    (face.hold wall topic env).condition = (heard.add topic body).faceWord ∧
      (face.hold wall topic env).faultSeen =
        (heard.add topic body).fault.isSome := by
  unfold Oled.RenderState.hold Heard.add
  rw [carries]
  cases body with
  | fault m =>
      rcases named with rfl | other
      · exact ⟨word, rfl⟩
      · exact absurd rfl (other m)
  | ripperdoc m =>
      by_cases state : topic = "state"
      · simp [state, Oled.RenderState.holdState, word, seen]
      · simp [state, word, seen]
  | pir m =>
      dsimp only
      split <;> exact ⟨word, seen⟩
  | sonar m =>
      dsimp only
      split
      · unfold Oled.RenderState.holdSonar
        split <;> exact ⟨word, seen⟩
      · exact ⟨word, seen⟩
  | weather m =>
      dsimp only
      split <;> exact ⟨word, seen⟩
  | power m =>
      dsimp only
      split <;> exact ⟨word, seen⟩
  | ring m => exact ⟨word, seen⟩
  | event m => exact ⟨word, seen⟩
  | init m => exact ⟨word, seen⟩

theorem ring_hold (t : F64) (daemon : RingDaemon.Daemon) {msg : Msg}
    {body : Body} (carries : msg.env.body = some body) (heard : Heard)
    (state : daemon.held.stateCond = heard.stateCond)
    (seen : daemon.held.faultSeen = heard.fault.isSome)
    (fault : daemon.held.faultCond = heard.fault.bind Fault.condition) :
    (RingDaemon.hold t daemon msg).held.stateCond =
        (heard.add msg.topic body).stateCond ∧
      (RingDaemon.hold t daemon msg).held.faultSeen =
        (heard.add msg.topic body).fault.isSome ∧
      (RingDaemon.hold t daemon msg).held.faultCond =
        (heard.add msg.topic body).fault.bind Fault.condition := by
  unfold RingDaemon.hold Heard.add
  rw [carries]
  cases body with
  | fault m => exact ⟨state, rfl, rfl⟩
  | ripperdoc m =>
      dsimp only
      split
      · exact ⟨rfl, seen, fault⟩
      · exact ⟨state, seen, fault⟩
  | event e =>
      dsimp only
      split
      · split <;> exact ⟨state, seen, fault⟩
      · exact ⟨state, seen, fault⟩
  | _ => exact ⟨state, seen, fault⟩

theorem inStep_receive (prost : Prost) (wall t : F64)
    {face : Oled.RenderState} {daemon : RingDaemon.Daemon} {heard : Heard}
    (inStep : InStep face daemon.held heard) {parts : Parts}
    (named : Named parts) :
    InStep (Oled.receive prost wall face parts)
      (RingDaemon.receive prost t daemon parts).held
      (hear prost heard parts) := by
  obtain ⟨bytes, payload⟩ := parts
  obtain ⟨topic, published, rfl⟩ := named
  unfold Oled.receive RingDaemon.receive hear
  cases decoded : decode prost ⟨asBytes topic, payload⟩ with
  | error error =>
      dsimp only
      rw [ite_self, ite_self]
      exact inStep
  | ok msg =>
      obtain ⟨rfl, name, bodyNamed, allowed⟩ := decode_named decoded
      obtain ⟨body, carries, rfl⟩ := Option.map_eq_some_iff.mp bodyNamed
      have faultTopic : msg.topic = "fault" ∨ ∀ m, body ≠ .fault m := by
        cases body with
        | fault m => exact Or.inl (topic_of_fault allowed)
        | _ => exact Or.inr fun m impossible => by cases impossible
      obtain ⟨faceWord, faceSeen⟩ := face_hold wall face msg.topic carries
        faultTopic heard inStep.faceWord inStep.faceSeen
      obtain ⟨ringState, ringSeen, ringFault⟩ := ring_hold t daemon carries
        heard inStep.ringState inStep.ringSeen inStep.ringFault
      dsimp only
      rw [carries]
      dsimp only
      by_cases told : msg.topic = "state" ∨ msg.topic = "fault"
      · have onFace : msg.topic ∈ Oled.TOPICS := by
          rcases told with same | same <;> rw [same] <;> decide
        have onRing : msg.topic ∈ RingDaemon.TOPICS := by
          rcases told with same | same <;> rw [same] <;> decide
        rw [if_pos (subscribed_of_mem onFace payload),
          if_pos (subscribed_of_mem onRing payload)]
        exact ⟨faceWord, faceSeen, ringState, ringSeen, ringFault⟩
      -- Any other message says nothing of the condition, heard or not.
      · rw [not_or] at told
        have silent : heard.add msg.topic body = heard := by
          cases body with
          | fault m =>
              rcases faultTopic with same | other
              · exact absurd same told.2
              · exact absurd rfl (other m)
          | ripperdoc m => simp [Heard.add, told.1]
          | _ => rfl
        rw [silent] at faceWord faceSeen ringState ringSeen ringFault ⊢
        split <;> split
        · exact ⟨faceWord, faceSeen, ringState, ringSeen, ringFault⟩
        · exact ⟨faceWord, faceSeen, inStep.ringState, inStep.ringSeen,
            inStep.ringFault⟩
        · exact ⟨inStep.faceWord, inStep.faceSeen, ringState, ringSeen,
            ringFault⟩
        · exact inStep

/-- Both daemons are in step with what has been heard on a feed of named
messages. -/
theorem inStep_on (prost : Prost) (boot : F64)
    {delivered : List (F64 × Parts)} {feed : List Parts}
    (whole : delivered.map Prod.snd = feed)
    (named : ∀ parts ∈ feed, Named parts) :
    InStep (faceOn prost boot delivered) (ringOn prost delivered).held
      (heardOn prost feed) := by
  subst whole
  induction delivered using List.reverseRecOn with
  | nil => exact ⟨rfl, rfl, rfl, rfl, rfl⟩
  | append_singleton delivered last induction =>
      rw [List.map_append] at named ⊢
      have earlier := induction fun parts member =>
        named parts (List.mem_append_left _ member)
      have later := inStep_receive prost last.1 last.1 earlier
        (named last.2 (by simp))
      simpa [faceOn, ringOn, heardOn, List.foldl_append] using later

/-- A message that is named and says nothing of the condition. -/
structure Silent (prost : Prost) (parts : Parts) : Prop where
  named : Named parts
  unheard : ∀ heard, hear prost heard parts = heard

/-- Only the state and fault topics speak of the condition. -/
theorem silent_of_topic (prost : Prost) {topic : String}
    (known : topic ∈ TOPICS) (notState : topic ≠ "state")
    (notFault : topic ≠ "fault") (payload : Frame) :
    Silent prost ⟨asBytes topic, payload⟩ := by
  refine ⟨⟨topic, known, rfl⟩, fun heard => ?_⟩
  unfold hear
  cases decoded : decode prost ⟨asBytes topic, payload⟩ with
  | error error => rfl
  | ok msg =>
      obtain ⟨sameTopic, name, named, allowed⟩ := decode_named decoded
      obtain ⟨body, carries, rfl⟩ := Option.map_eq_some_iff.mp named
      dsimp only
      rw [carries, sameTopic]
      cases body with
      | ripperdoc m => simp [Heard.add, notState]
      | fault m => exact absurd (topic_of_fault allowed) notFault
      | _ => rfl

theorem mem_published {topic : String} {body : Body} {parts : Parts}
    (member : parts ∈ published topic body) :
    encode topic (envelope body) = .ok parts := by
  unfold published at member
  split at member
  · rename_i sent encoded
    rw [List.mem_singleton] at member
    rw [member, encoded]
  · cases member

theorem named_published {topic : String} (known : topic ∈ TOPICS)
    (body : Body) : ∀ parts ∈ published topic body, Named parts :=
  fun _ member => ⟨topic, known, topic_of_encode (mem_published member)⟩

theorem silent_published (prost : Prost) {topic : String}
    (known : topic ∈ TOPICS) (notState : topic ≠ "state")
    (notFault : topic ≠ "fault") (body : Body) :
    ∀ parts ∈ published topic body, Silent prost parts := by
  rintro ⟨bytes, payload⟩ member
  have sent : bytes = asBytes topic := topic_of_encode (mem_published member)
  subst sent
  exact silent_of_topic prost known notState notFault payload

theorem silent_relayed (prost : Prost) (parts : Parts) :
    ∀ said ∈ relayed parts, Silent prost said := by
  intro said member
  unfold relayed at member
  split at member
  · rename_i relay routed
    obtain ⟨route, listed, rfl⟩ := route_of_routeParts routed
    rw [List.mem_singleton.mp member]
    have consumer : ∀ route ∈ ROUTES, route.2 ∈ TOPICS ∧ route.2 ≠ "state" ∧
        route.2 ≠ "fault" := by decide
    obtain ⟨known, notState, notFault⟩ := consumer route listed
    exact silent_of_topic prost known notState notFault _
  · cases member

/-- A reading that is no sweep is rebuilt without a word on the condition. -/
theorem silent_rebuilt (prost : Prost) (cx : Cortex) (dbDown : Bool)
    (now : F64) {msg : Msg} (other : ∀ f, msg.env.body ≠ some (.fault f)) :
    ∀ parts ∈ rebuilt cx dbDown now msg, Silent prost parts := by
  unfold rebuilt
  split
  · exact silent_published prost (by decide) (by decide) (by decide) _
  · exact silent_published prost (by decide) (by decide) (by decide) _
  · exact silent_published prost (by decide) (by decide) (by decide) _
  · rename_i f carries
    exact absurd carries (other f)
  · simp

theorem heardOn_silent {prost : Prost} (feed : List Parts) {said : List Parts}
    (silent : ∀ parts ∈ said, Silent prost parts) :
    heardOn prost (feed ++ said) = heardOn prost feed := by
  induction said generalizing feed with
  | nil => rw [List.append_nil]
  | cons parts said induction =>
      have rest := induction (feed ++ [parts]) fun other member =>
        silent other (List.mem_cons_of_mem _ member)
      rw [List.append_assoc, List.singleton_append] at rest
      rw [rest, heardOn, List.foldl_append]
      exact (silent parts List.mem_cons_self).unheard _

/-- A published message is heard, unless the contract stopped it. -/
theorem heardOn_published (prost : Prost) (feed : List Parts)
    {topic : String} (known : topic ∈ TOPICS) (body : Body) :
    heardOn prost (feed ++ published topic body) =
      match encode topic (envelope body) with
      | .ok _ => (heardOn prost feed).add topic body
      | .error _ => heardOn prost feed := by
  unfold published
  cases encoded : encode topic (envelope body) with
  | error error => simp
  | ok parts =>
      have decoded := decode_encode prost known encoded
      simp [heardOn, List.foldl_append, hear, decoded, envelope]

theorem heardOn_state (prost : Prost) (feed : List Parts) (m : Ripperdoc) :
    heardOn prost (feed ++ published "state" (.ripperdoc m)) =
      { heardOn prost feed with
        faceWord := m.condition.getD (heardOn prost feed).faceWord
        stateCond := m.condition } := by
  rw [heardOn_published prost feed (by decide)]
  rfl

theorem heardOn_fault (prost : Prost) (feed : List Parts) (m : Fault) :
    heardOn prost (feed ++ published "fault" (.fault m)) =
      { heardOn prost feed with fault := some m } := by
  rw [heardOn_published prost feed (by decide)]
  rfl

/-- What holds of the feed: it is named; nothing of the condition is on it
before the first republish; and from then on the last fault message shows the
rows the cortex has, under a flag that `flags` allows. -/
structure Telling (env : Env) (flags : Bool → Prop) (sys : Sys) : Prop where
  named : ∀ parts ∈ sys.feed, Named parts
  silent : sys.main ≠ .running →
    heardOn env.prost sys.feed = {} ∧ sys.cx.st.faultTs = none
  told : sys.main = .running → ∃ dbDown now, flags dbDown ∧
    (heardOn env.prost sys.feed).fault =
      some (sys.cx.faultMessage dbDown now)

variable {env : Env} {flags : Bool → Prop} {sys : Sys}

/-- A step that says nothing of the condition and leaves the rows and the main
task alone. -/
theorem Telling.of_silent {after : Sys} (telling : Telling env flags sys)
    {said : List Parts} (silent : ∀ parts ∈ said, Silent env.prost parts)
    (feed : after.feed = sys.feed ++ said)
    (main : after.main = .running ↔ sys.main = .running)
    (faults : after.cx.st.faults = sys.cx.st.faults)
    (faultTs : after.cx.st.faultTs = sys.cx.st.faultTs) :
    Telling env flags after := by
  have heard := heardOn_silent sys.feed silent
  rw [← feed] at heard
  have sameMessage (dbDown : Bool) (now : F64) :
      after.cx.faultMessage dbDown now = sys.cx.faultMessage dbDown now := by
    simp only [faultMessage, faultRows, faults]
  refine ⟨?_, ?_, ?_⟩
  · intro parts member
    rw [feed] at member
    rcases List.mem_append.mp member with old | new
    · exact telling.named parts old
    · exact (silent parts new).named
  · intro asking
    rw [heard, faultTs]
    exact telling.silent fun running => asking (main.mpr running)
  · intro running
    obtain ⟨dbDown, now, allowed, last⟩ := telling.told (main.mp running)
    refine ⟨dbDown, now, allowed, ?_⟩
    rw [heard, last, sameMessage]

/-- A step that leaves the feed, the rows and the main task alone. -/
theorem Telling.of_same {after : Sys} (telling : Telling env flags sys)
    (feed : after.feed = sys.feed) (main : after.main = sys.main)
    (faults : after.cx.st.faults = sys.cx.st.faults)
    (faultTs : after.cx.st.faultTs = sys.cx.st.faultTs) :
    Telling env flags after := by
  refine telling.of_silent (List.forall_mem_nil _) ?_ ?_ faults faultTs
  · rw [feed, List.append_nil]
  · rw [main]

theorem heardOn_republish (env : Env) (sys : Sys) :
    heardOn env.prost (sys.feed ++ republished env sys) =
      { faceWord := sys.cx.st.condition
        stateCond := some sys.cx.st.condition
        fault := some (sys.cx.faultMessage sys.dbDown
          (env.clock (sys.ticks + 3))) } := by
  unfold republished
  rw [← List.append_assoc, ← List.append_assoc, ← List.append_assoc]
  unfold buildFault
  rw [heardOn_fault,
    heardOn_silent _ (silent_published _ (by decide) (by decide) (by decide) _),
    heardOn_silent _ (silent_published _ (by decide) (by decide) (by decide) _)]
  unfold buildState
  rw [heardOn_state]
  rfl

theorem named_republished (env : Env) (sys : Sys) :
    ∀ parts ∈ republished env sys, Named parts := by
  intro parts member
  simp only [republished, List.mem_append] at member
  rcases member with state | ripperdoc | ring | fault
  · exact named_published (by decide) _ parts state
  · exact named_published (by decide) _ parts ripperdoc
  · exact named_published (by decide) _ parts ring
  · exact named_published (by decide) _ parts fault

/-- A republish tells the faults under the flag of the moment. -/
theorem Telling.republish (telling : Telling env flags sys) {after : Sys}
    (feed : after.feed = sys.feed ++ republished env sys)
    (cx : after.cx = sys.cx) (running : after.main = .running) :
    Telling env (fun down => down = sys.dbDown) after := by
  refine ⟨?_, fun asking => absurd running asking, fun _ => ?_⟩
  · intro parts member
    rw [feed] at member
    rcases List.mem_append.mp member with old | new
    · exact telling.named parts old
    · exact named_republished env sys parts new
  · rw [feed, cx, heardOn_republish]
    exact ⟨_, _, rfl, rfl⟩

/-- A sweep in shows at once, under the flag of the moment. -/
theorem Telling.swept (telling : Telling env flags sys)
    (running : sys.main = .running) {msg : Msg} {f : Fault}
    (carries : msg.env.body = some (.fault f)) {clock : F64} {after : Sys}
    (feed : after.feed = sys.feed ++ rebuilt after.cx sys.dbDown clock msg)
    (main : after.main = sys.main) :
    Telling env (fun down => down = sys.dbDown) after := by
  have said : rebuilt after.cx sys.dbDown clock msg = published "fault"
      (.fault (after.cx.faultMessage sys.dbDown clock)) := by
    unfold rebuilt
    rw [carries]
    rfl
  rw [said] at feed
  refine ⟨?_, fun asking => absurd (main.trans running) asking,
    fun _ => ⟨sys.dbDown, clock, rfl, ?_⟩⟩
  · intro other member
    rw [feed] at member
    rcases List.mem_append.mp member with old | new
    · exact telling.named other old
    · exact named_published (by decide) _ other new
  · rw [feed, heardOn_fault]

/-- Any other reading in says nothing of the condition. -/
theorem Telling.read (telling : Telling env flags sys) {msg : Msg}
    (other : ∀ f, msg.env.body ≠ some (.fault f)) {merge clock : F64}
    {after : Sys} (cx : after.cx = sys.cx.merge merge msg)
    (feed : after.feed = sys.feed ++ rebuilt after.cx sys.dbDown clock msg)
    (main : after.main = sys.main) : Telling env flags after := by
  obtain ⟨faults, faultTs, -⟩ := merge_readings merge sys.cx other
  rw [← cx] at faults faultTs
  exact telling.of_silent (silent_rebuilt _ _ _ _ other) feed (by rw [main])
    faults faultTs

/-- A message in is a sweep. -/
def isSweep (prost : Prost) (parts : Parts) : Bool :=
  match decode prost parts with
  | .ok msg =>
      match msg.env.body with
      | some (.fault _) => true
      | _ => false
  | .error _ => false

/-- The step says what the cortex has for faults: a republish, or a sweep that
comes in. -/
def tells (env : Env) (sys : Sys) : Action → Bool
  | .inbound parts => isSweep env.prost parts
  | action => republishes sys action

theorem isSweep_iff {prost : Prost} {parts : Parts} :
    isSweep prost parts = true ↔
      ∃ msg f, decode prost parts = .ok msg ∧
        msg.env.body = some (.fault f) := by
  unfold isSweep
  cases decoded : decode prost parts with
  | error error => simp
  | ok msg =>
      cases carries : msg.env.body with
      | none => simp [carries]
      | some body => cases body <;> simp [carries]

/-- No sweep takes the relay. -/
theorem not_isSweep_of_isFrame {prost : Prost} {parts : Parts}
    (frame : isFrame parts.topic = true) : isSweep prost parts = false := by
  by_contra sweep
  obtain ⟨msg, f, decoded, carries⟩ :=
    isSweep_iff.mp (Bool.not_eq_false _ ▸ sweep)
  obtain ⟨-, named, -, -, name, body, allowed⟩ := decode_eq_ok_iff.mp decoded
  rw [bodyName, carries] at body
  cases body
  rw [named, topic_of_fault allowed] at frame
  exact absurd frame (by decide)

/-- Every step keeps what the feed tells; one that tells the faults tells them
under the flag of the moment. -/
theorem telling_of_effect (telling : Telling env flags sys) {action : Action}
    {after : Sys} (effect : Effect env sys action after) :
    Telling env
      (if tells env sys action then fun down => down = sys.dbDown else flags)
      after := by
  have unsaid {topic : String} (known : topic ∈ TOPICS)
      (notState : topic ≠ "state") (notFault : topic ≠ "fault") (body : Body) :=
    silent_published env.prost known notState notFault body
  cases effect with
  | asked main =>
      rw [if_neg (by simp [tells, republishes, main])]
      exact telling.of_silent (unsaid (by decide) (by decide) (by decide) _) rfl
        (by simp [main]) rfl rfl
  | opened main =>
      rw [if_pos (by simp [tells, republishes, main])]
      exact telling.republish rfl rfl rfl
  | relay main frame =>
      rw [if_neg (by simp [tells, not_isSweep_of_isFrame frame])]
      exact telling.of_silent (silent_relayed env.prost _) rfl Iff.rfl rfl rfl
  | dropped main refused =>
      rw [if_neg (by simp [tells, isSweep, refused])]
      exact telling
  | @merged parts msg ticks main decoded =>
      by_cases sweep : ∃ f, msg.env.body = some (.fault f)
      · obtain ⟨f, carries⟩ := sweep
        rw [tells, if_pos (isSweep_iff.mpr ⟨msg, f, decoded, carries⟩)]
        exact telling.swept main carries rfl rfl
      · rw [not_exists] at sweep
        have quiet : ¬ isSweep env.prost parts = true := by
          intro other
          obtain ⟨found, f, same, carries⟩ := isSweep_iff.mp other
          cases decoded.symm.trans same
          exact sweep f carries
        rw [tells, if_neg quiet]
        exact telling.read sweep rfl rfl rfl
  | verbed command verb =>
      obtain ⟨faults, faultTs, -⟩ := stateVerb_readings verb
      exact telling.of_same rfl rfl faults faultTs
  | logged main news =>
      rw [if_neg (by simp [tells, republishes, main, news])]
      exact telling.of_silent (unsaid (by decide) (by decide) (by decide) _) rfl
        Iff.rfl rfl rfl
  | republish main news =>
      rw [if_pos (by simp [tells, republishes, main, news])]
      exact telling.republish rfl rfl main
  | powered main news =>
      exact telling.of_silent (unsaid (by decide) (by decide) (by decide) _) rfl
        Iff.rfl rfl rfl
  | flushed flushes =>
      cases flushes <;> exact telling.of_same rfl rfl rfl rfl
  | answered | sampled | cut | restored =>
      exact telling.of_same rfl rfl rfl rfl

theorem Telling.mono (telling : Telling env flags sys) {wider : Bool → Prop}
    (weaken : ∀ down, flags down → wider down) : Telling env wider sys := by
  refine ⟨telling.named, telling.silent, fun running => ?_⟩
  obtain ⟨dbDown, now, allowed, last⟩ := telling.told running
  exact ⟨dbDown, now, weaken dbDown allowed, last⟩

/-- With a flag that is allowed, a step keeps to the allowed flags. -/
theorem telling_of_allowed (telling : Telling env flags sys)
    (allowed : flags sys.dbDown) {action : Action} {after : Sys}
    (effect : Effect env sys action after) : Telling env flags after := by
  refine (telling_of_effect telling effect).mono fun down current => ?_
  split at current
  · rw [current]
    exact allowed
  · exact current

theorem telling_boot (env : Env) (flags : Bool → Prop) (dsn : Bool)
    (host : Host) (server : Server) :
    Telling env flags (boot env dsn host server) := by
  obtain ⟨main, feed, -, -, -, faultTs⟩ := boot_fields env dsn host server
  refine ⟨?_, fun _ => ⟨?_, faultTs⟩, ?_⟩
  · simp [feed]
  · rw [feed]
    rfl
  · simp [main]

theorem telling_of_run {dsn : Bool} {host : Host} {server : Server}
    {trace : List (Sys × Action)}
    (run : Run (Sys.step env) (boot env dsn host server) trace sys)
    (along : Along (fun before _ => flags before.dbDown) trace) :
    Telling env flags sys :=
  run.invariant along (telling_boot env flags dsn host server)
    fun _ _ _ allowed stepped telling =>
      telling_of_allowed telling allowed (effect_of_step stepped)

end Cortex
