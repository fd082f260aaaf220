import Loa.OledRenderState
import Loa.PartialUpdate

/-!
# Batches of the feed at the face

Messages that queue up between two wakeups of the face's loop reach `hold` as
one message, the newest.  Here `hold` is read as a partial update of the fields
of the held view, and the batches that lose nothing are characterized: those in
which everything that a dropped message says is said again by the newest one or
held already.
-/

namespace Oled

open Wire PartialUpdate

/-- The groups of fields that move together. -/
inductive Slot
  | mode
  | text
  | dim
  | flip
  | page
  | mood
  | ringState
  | ripperdoc
  | snrOn
  | condition
  | pir
  | sonar
  | weather
  | fault
  | power
  | throttled
  deriving DecidableEq, Repr

/-- What a slot holds. -/
abbrev Slot.Value : Slot → Type
  | .mode | .page | .mood | .ringState | .condition => String
  | .text => Option String
  | .dim | .flip | .ripperdoc | .snrOn => Bool
  | .pir => Bool × Int × Option F64 × Option F64 × F64
  | .sonar => Option F64 × Int × Option F64
  | .weather => Option F64 × Option F64 × Option F64 × String
  | .fault => Bool × Option FaultMsg
  | .power => Option F64 × Dict F64 × Dict Json.Value
  | .throttled => Option UInt32

/-- The held view by slots; the wall clock of the last merge is left out. -/
def view (st : RenderState) : ∀ slot : Slot, slot.Value
  | .mode => st.mode
  | .text => st.text
  | .dim => st.dim
  | .flip => st.flip
  | .page => st.page
  | .mood => st.mood
  | .ringState => st.ringState
  | .ripperdoc => st.ripperdoc
  | .snrOn => st.snrOn
  | .condition => st.condition
  | .pir =>
      (st.pirHigh, st.pirCount, st.pirLastTs, st.pirOnTs, st.pirLastHold)
  | .sonar => (st.snrCm, st.snrCount, st.snrTs)
  | .weather => (st.tempC, st.humPct, st.pressureHpa, st.baroTrend)
  | .fault => (st.faultSeen, st.fault)
  | .power => (st.powerTs, st.rails, st.sealMap)
  | .throttled => st.powerThrottled

/-- The held view with the given slots and wall clock. -/
def ofView (clock : F64) (slots : ∀ slot : Slot, slot.Value) : RenderState where
  mode := slots .mode
  text := slots .text
  dim := slots .dim
  flip := slots .flip
  page := slots .page
  mood := slots .mood
  ringState := slots .ringState
  ripperdoc := slots .ripperdoc
  snrOn := slots .snrOn
  condition := slots .condition
  pirHigh := (slots .pir).1
  pirCount := (slots .pir).2.1
  pirLastTs := (slots .pir).2.2.1
  pirOnTs := (slots .pir).2.2.2.1
  pirLastHold := (slots .pir).2.2.2.2
  snrCm := (slots .sonar).1
  snrCount := (slots .sonar).2.1
  snrTs := (slots .sonar).2.2
  tempC := (slots .weather).1
  humPct := (slots .weather).2.1
  pressureHpa := (slots .weather).2.2.1
  baroTrend := (slots .weather).2.2.2
  fault := (slots .fault).2
  faultSeen := (slots .fault).1
  sealMap := (slots .power).2.2
  rails := (slots .power).2.1
  powerTs := (slots .power).1
  powerThrottled := slots .throttled
  clockNow := clock

/-- Two held views agree in every field but the wall clock. -/
def SameApartFromClock (first second : RenderState) : Prop :=
  { first with clockNow := second.clockNow } = second

theorem sameApartFromClock_iff (first second : RenderState) :
    SameApartFromClock first second ↔ view first = view second := by
  constructor
  · intro same
    rw [← same]
    funext slot
    cases slot <;> rfl
  · intro same
    calc
      { first with clockNow := second.clockNow } =
          ofView second.clockNow (view first) := rfl
      _ = ofView second.clockNow (view second) := by rw [same]
      _ = second := rfl

def stateCarries (m : Ripperdoc) : Patch Slot.Value
  | .mode => m.oledMode
  | .text => some m.oledText
  | .dim => m.oledDim
  | .flip => m.oledFlip
  | .page => m.page
  | .mood => m.mood
  | .ringState => m.ringState
  | .ripperdoc => m.ripperdoc
  | .snrOn => m.snrOn
  | .condition => m.condition
  | _ => none

def pirCarries (m : Pir) : Patch Slot.Value
  | .pir =>
      some (m.high.getD false, (m.count.getD 0).toNat, m.lastTs, m.onTs,
        m.lastHold.getD 0)
  | _ => none

def sonarCarries (m : Sonar) : Patch Slot.Value
  | .sonar => m.cm.map fun cm => (some cm, (m.count.getD 0).toNat, m.ts)
  | _ => none

def weatherCarries (m : Weather) : Patch Slot.Value
  | .weather => some (m.tempC, m.humPct, m.pressureHpa, m.trend.getD "")
  | _ => none

def faultCarries (m : Fault) : Patch Slot.Value
  | .fault =>
      some (true, some {
        rows := m.rows.map fun row =>
          { level := row.level, code := row.code, text := row.text,
            face := row.face.getD "" }
        condition := m.condition
        ts := m.ts.getD 0 })
  | _ => none

def powerCarries (m : Power) : Patch Slot.Value
  | .power => some (m.ts, m.rails.erase "throttled", m.frag.mapVal sealValue)
  | .throttled => (m.rails.lookup "throttled").map (some ∘ RustFloat.asU32)
  | _ => none

/-- What a message carries for each slot. -/
def carries (topic : String) (env : Envelope) : Patch Slot.Value :=
  match env.body with
  | some (.ripperdoc m) =>
      if topic = "state" then stateCarries m else Patch.silent
  | some (.pir m) => if topic = "pir" then pirCarries m else Patch.silent
  | some (.sonar m) => if topic = "sonar" then sonarCarries m else Patch.silent
  | some (.weather m) =>
      if topic = "weather" then weatherCarries m else Patch.silent
  | some (.fault m) => if topic = "fault" then faultCarries m else Patch.silent
  | some (.power m) => if topic = "power" then powerCarries m else Patch.silent
  | _ => Patch.silent

theorem view_clockNow (st : RenderState) (wall : F64) :
    view { st with clockNow := wall } = view st := by
  funext slot
  cases slot <;> rfl

theorem view_holdState (st : RenderState) (m : Ripperdoc) :
    view (st.holdState m) = (stateCarries m).apply (view st) := by
  funext slot
  cases slot <;> rfl

theorem view_holdPir (st : RenderState) (m : Pir) :
    view (st.holdPir m) = (pirCarries m).apply (view st) := by
  funext slot
  cases slot <;> rfl

theorem view_holdSonar (st : RenderState) (m : Sonar) :
    view (st.holdSonar m) = (sonarCarries m).apply (view st) := by
  -- A ping without a distance carries nothing.
  obtain ⟨cm, count, ts⟩ := m
  funext slot
  cases cm with
  | none => cases slot <;> rfl
  | some cm => cases slot <;> rfl

theorem view_holdWeather (st : RenderState) (m : Weather) :
    view (st.holdWeather m) = (weatherCarries m).apply (view st) := by
  funext slot
  cases slot <;> rfl

theorem view_holdFault (st : RenderState) (m : Fault) :
    view (st.holdFault m) = (faultCarries m).apply (view st) := by
  funext slot
  cases slot <;> rfl

theorem view_holdPower (st : RenderState) (m : Power) :
    view (st.holdPower m) = (powerCarries m).apply (view st) := by
  funext slot
  cases slot with
  | throttled =>
      cases found : m.rails.lookup "throttled" with
      | none =>
          simp [view, RenderState.holdPower, powerCarries, Patch.apply, found]
      | some bits =>
          simp [view, RenderState.holdPower, powerCarries, Patch.apply, found]
  | _ => rfl

/-- Holding a message updates exactly the slots that the message carries. -/
theorem view_hold (wall : F64) (topic : String) (env : Envelope)
    (st : RenderState) :
    view (st.hold wall topic env) = (carries topic env).apply (view st) := by
  unfold RenderState.hold carries
  rw [← view_clockNow st wall]
  generalize { st with clockNow := wall } = held
  rcases env.body with
    _ | ⟨m⟩ | ⟨m⟩ | ⟨m⟩ | ⟨m⟩ | ⟨m⟩ | ⟨m⟩ | ⟨m⟩ | ⟨m⟩ | ⟨m⟩ <;> dsimp only
  case some.ripperdoc =>
    split
    · exact view_holdState held m
    · rfl
  case some.pir =>
    split
    · exact view_holdPir held m
    · rfl
  case some.sonar =>
    split
    · exact view_holdSonar held m
    · rfl
  case some.weather =>
    split
    · exact view_holdWeather held m
    · rfl
  case some.fault =>
    split
    · exact view_holdFault held m
    · rfl
  case some.power =>
    split
    · exact view_holdPower held m
    · rfl
  all_goals rfl

/-- A message on the subscribed topics that passes the contract. -/
structure Arrival (prost : Prost) where
  parts : Parts
  msg : Msg
  decoded : decode prost parts = .ok msg
  subscribed : msg.topic ∈ TOPICS

variable {prost : Prost}

def Arrival.carried (arrival : Arrival prost) : Patch Slot.Value :=
  carries arrival.msg.topic arrival.msg.env

theorem published_of_subscribed {topic : String}
    (subscribed : topic ∈ TOPICS) : topic ∈ Wire.TOPICS := by
  revert topic
  decide

/-- A message that the publisher's contract let through. -/
def Arrival.ofEncode (prost : Prost) (topic : String) (env : Envelope)
    (subscribed : topic ∈ TOPICS)
    (encoded : encode topic env = .ok ⟨RustText.asBytes topic, .encoded env⟩) :
    Arrival prost where
  parts := ⟨RustText.asBytes topic, .encoded env⟩
  msg := ⟨topic, env⟩
  decoded := decode_encode prost (published_of_subscribed subscribed) encoded
  subscribed := subscribed

/-- A wakeup of the face's loop: the wall clock, and the batch that has queued
up since the one before. -/
structure Wakeup (prost : Prost) where
  wall : F64
  batch : List (Arrival prost)

/-- The face's loop. -/
def consume (held : RenderState) (wakeups : List (Wakeup prost)) :
    RenderState :=
  wakeups.foldl
    (fun held wakeup =>
      wake prost wakeup.wall (framesOf (wakeup.batch.map Arrival.parts)) held)
    held

/-- Every message held, one at a time. -/
def holdEach (wall : F64) (held : RenderState)
    (arrivals : List (Arrival prost)) : RenderState :=
  arrivals.foldl
    (fun held arrival => held.hold wall arrival.msg.topic arrival.msg.env)
    held

/-- What the messages in front of the newest one say is said again by the
newest one or held already. -/
def NothingBuried (held : RenderState) (batch : List (Arrival prost)) : Prop :=
  ∀ earlier last, batch = earlier ++ [last] →
    (Patch.merged (earlier.map Arrival.carried)).CoveredBy last.carried
      (view held)

theorem view_holdEach (wall : F64) (held : RenderState)
    (arrivals : List (Arrival prost)) :
    view (holdEach wall held arrivals) =
      (Patch.merged (arrivals.map Arrival.carried)).apply (view held) := by
  rw [← Patch.foldl_apply, List.foldl_map]
  unfold holdEach
  induction arrivals generalizing held with
  | nil => rfl
  | cons arrival rest induction =>
      rw [List.foldl_cons, induction, view_hold]
      rfl

/-- A wakeup takes the newest message of the batch alone. -/
theorem wake_concat (wall : F64) (held : RenderState)
    (earlier : List (Arrival prost)) (last : Arrival prost) :
    wake prost wall (framesOf ((earlier ++ [last]).map Arrival.parts)) held =
      held.hold wall last.msg.topic last.msg.env := by
  rw [List.map_append, List.map_singleton]
  simp [wake, nextState_framesOf_concat, last.decoded]

/-- One wakeup agrees with holding every message of its batch exactly when no
news is buried in the batch. -/
theorem view_wake_eq_iff (wall : F64) (held : RenderState)
    (batch : List (Arrival prost)) :
    view (wake prost wall (framesOf (batch.map Arrival.parts)) held) =
        view (holdEach wall held batch) ↔
      NothingBuried held batch := by
  cases batch using List.reverseRecOn with
  | nil =>
      constructor
      · intro _ earlier last impossible
        simp at impossible
      · intro _
        rfl
  | append_singleton earlier last _ =>
      rw [wake_concat, view_hold, view_holdEach, List.map_append,
        List.map_singleton, Patch.merged_concat]
      constructor
      · intro same earlier' last' split
        obtain ⟨rfl, sameLast⟩ := List.append_inj' split rfl
        obtain rfl : last = last' := by simpa using sameLast
        exact (Patch.apply_andThen_eq_apply_iff _ _ _).mp same.symm
      · intro nothing
        exact ((Patch.apply_andThen_eq_apply_iff _ _ _).mpr
          (nothing earlier last rfl)).symm

theorem holdEach_append (wall : F64) (held : RenderState)
    (first second : List (Arrival prost)) :
    holdEach wall held (first ++ second) =
      holdEach wall (holdEach wall held first) second :=
  List.foldl_append ..

/-- The face's loop, however the feed is cut into batches, keeps agreeing with
a face that holds every message one at a time exactly when no batch buries
news. -/
theorem consume_same_iff (wall : F64) (start : RenderState)
    (wakeups : List (Wakeup prost)) :
    (∀ done left, wakeups = done ++ left →
        SameApartFromClock (consume start done)
          (holdEach wall start (done.flatMap Wakeup.batch))) ↔
      ∀ done wakeup left, wakeups = done ++ wakeup :: left →
        NothingBuried (consume start done) wakeup.batch := by
  simp only [sameApartFromClock_iff]
  have afterOne (done : List (Wakeup prost)) (wakeup : Wakeup prost)
      (agreed : view (consume start done) =
        view (holdEach wall start (done.flatMap Wakeup.batch))) :
      view (consume start (done ++ [wakeup])) =
          view (holdEach wall start
            ((done ++ [wakeup]).flatMap Wakeup.batch)) ↔
        NothingBuried (consume start done) wakeup.batch := by
    have byLoop : view (consume start (done ++ [wakeup])) =
        view (wake prost wakeup.wall
          (framesOf (wakeup.batch.map Arrival.parts)) (consume start done)) := by
      simp [consume]
    have oneByOne :
        view (holdEach wall start ((done ++ [wakeup]).flatMap Wakeup.batch)) =
          view (holdEach wakeup.wall (consume start done) wakeup.batch) := by
      rw [List.flatMap_append, List.flatMap_singleton, holdEach_append,
        view_holdEach, ← agreed, view_holdEach]
    rw [byLoop, oneByOne]
    exact view_wake_eq_iff wakeup.wall (consume start done) wakeup.batch
  constructor
  · intro agree done wakeup left split
    refine (afterOne done wakeup (agree done (wakeup :: left) split)).mp ?_
    exact agree (done ++ [wakeup]) left (by simp [split])
  · intro nothing done
    induction done using List.reverseRecOn with
    | nil =>
        intro left _
        rfl
    | append_singleton done wakeup induction =>
        intro left split
        have before : wakeups = done ++ wakeup :: left := by simp [split]
        exact (afterOne done wakeup (induction (wakeup :: left) before)).mpr
          (nothing done wakeup left before)

/-- A protobuf library whose foreign bytes play no part. -/
def noForeignBytes : Prost where
  encodeToVec := fun _ => []
  decode := fun _ => .error "failed to decode Protobuf message"

/-- The presentation that a republish sends first. -/
def stateNews : Arrival noForeignBytes :=
  .ofEncode noForeignBytes "state"
    (envelope (.ripperdoc { oledMode := some "scope" })) (by decide) rfl

/-- The sweep that a republish sends right behind. -/
def faultNews : Arrival noForeignBytes :=
  .ofEncode noForeignBytes "fault"
    (envelope (.fault { condition := some "well" })) (by decide) rfl

/-- Once both are queued when the face wakes, the presentation is never
held. -/
theorem consume_buries_state :
    ¬ SameApartFromClock
      (consume { clockNow := 0 } [⟨1, [stateNews, faultNews]⟩])
      (holdEach 1 { clockNow := 0 } [stateNews, faultNews]) := by
  rw [sameApartFromClock_iff]
  intro same
  have held : consume { clockNow := 0 } [⟨1, [stateNews, faultNews]⟩] =
      RenderState.hold 1 "fault" faultNews.msg.env { clockNow := 0 } :=
    wake_concat 1 { clockNow := 0 } [stateNews] faultNews
  rw [held, view_hold, view_holdEach] at same
  have modes := congrFun same .mode
  exact absurd modes (by decide)

end Oled
