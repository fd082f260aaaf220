import Loa.WireInbound

/-!
# The face daemon's held view

`RenderState` is what a frame is drawn from: the last message of each topic,
merged field by field.  The file has the merge (`hold`), the readings of the
held view that decide what the face says, and one round of the daemon's loop.
-/

namespace Oled

open Wire

/-- The topics the face draws from. -/
def TOPICS : List String :=
  ["state", "pir", "sonar", "weather", "fault", "power"]

/-- The age in seconds from which a sweep is stale. -/
def FAULTS_STALE_S : F64 := 300

/-- One row of the held sweep. -/
structure FaultRow where
  level : String
  code : String
  text : String
  face : String
  deriving DecidableEq

/-- The sweep, stored whole. -/
structure FaultMsg where
  rows : List FaultRow
  condition : Option String
  ts : F64
  deriving DecidableEq

/-- The merged view the renderer reads. -/
structure RenderState where
  mode : String := ""
  text : Option String := none
  dim : Bool := false
  flip : Bool := false
  page : String := "sensors"
  mood : String := "calm"
  ringState : String := "home"
  ripperdoc : Bool := false
  snrOn : Bool := true
  condition : String := ""
  pirHigh : Bool := false
  pirCount : Int := 0
  pirLastTs : Option F64 := none
  pirOnTs : Option F64 := none
  pirLastHold : F64 := 0
  snrCm : Option F64 := none
  snrCount : Int := 0
  snrTs : Option F64 := none
  tempC : Option F64 := none
  humPct : Option F64 := none
  pressureHpa : Option F64 := none
  baroTrend : String := ""
  fault : Option FaultMsg := none
  faultSeen : Bool := false
  sealMap : Dict Json.Value := ∅
  rails : Dict F64 := ∅
  powerTs : Option F64 := none
  powerThrottled : Option UInt32 := none
  clockNow : F64

/-- A word of the seal map as the typed value the page reads. -/
def sealValue (text : String) : Json.Value :=
  if text = "true" then .bool true
  else if text = "false" then .bool false
  else if text = "null" then .null
  else
    match RustFloat.parse text with
    | some (some value) => .number (.double value)
    | some none => .null
    | none => .string text

/-- `renderer_condition`: silence is mute, and a word never heard is well. -/
def rendererCondition (st : RenderState) : String :=
  if !st.faultSeen then "mute"
  else if st.condition = "" then "well"
  else st.condition

namespace RenderState

def holdState (st : RenderState) (m : Ripperdoc) : RenderState :=
  { st with
    mode := m.oledMode.getD st.mode
    text := m.oledText
    dim := m.oledDim.getD st.dim
    flip := m.oledFlip.getD st.flip
    page := m.page.getD st.page
    mood := m.mood.getD st.mood
    ringState := m.ringState.getD st.ringState
    ripperdoc := m.ripperdoc.getD st.ripperdoc
    snrOn := m.snrOn.getD st.snrOn
    condition := m.condition.getD st.condition }

def holdPir (st : RenderState) (m : Pir) : RenderState :=
  { st with
    pirHigh := m.high.getD false
    pirCount := (m.count.getD 0).toNat
    pirLastTs := m.lastTs
    pirOnTs := m.onTs
    pirLastHold := m.lastHold.getD 0 }

def holdSonar (st : RenderState) (m : Sonar) : RenderState :=
  match m.cm with
  | some cm =>
      { st with
        snrCm := some cm
        snrCount := (m.count.getD 0).toNat
        snrTs := m.ts }
  | none => st

def holdWeather (st : RenderState) (m : Weather) : RenderState :=
  { st with
    tempC := m.tempC
    humPct := m.humPct
    pressureHpa := m.pressureHpa
    baroTrend := m.trend.getD "" }

def holdFault (st : RenderState) (m : Fault) : RenderState :=
  { st with
    faultSeen := true
    fault := some {
      rows := m.rows.map fun row =>
        { level := row.level, code := row.code, text := row.text,
          face := row.face.getD "" }
      condition := m.condition
      ts := m.ts.getD 0 } }

/-- The throttle bits ride among the rails and are taken out of them. -/
def holdPower (st : RenderState) (m : Power) : RenderState :=
  { st with
    powerTs := m.ts
    rails := m.rails.erase "throttled"
    sealMap := m.frag.mapVal sealValue
    powerThrottled :=
      ((m.rails.lookup "throttled").map RustFloat.asU32).or
        st.powerThrottled }

/-- Merge one message into the held view; `wall` is the wall clock. -/
def hold (wall : F64) (topic : String) (env : Envelope) (st : RenderState) :
    RenderState :=
  let st := { st with clockNow := wall }
  match env.body with
  | some (.ripperdoc m) => if topic = "state" then st.holdState m else st
  | some (.pir m) => if topic = "pir" then st.holdPir m else st
  | some (.sonar m) => if topic = "sonar" then st.holdSonar m else st
  | some (.weather m) => if topic = "weather" then st.holdWeather m else st
  | some (.fault m) => if topic = "fault" then st.holdFault m else st
  | some (.power m) => if topic = "power" then st.holdPower m else st
  | _ => st

/-- `faults_view`: the report's time, the rows by level and the rows by
code. -/
def faultsView (st : RenderState) :
    Option (F64 × Nat × Nat × List FaultRow) :=
  st.fault.map fun f =>
    (f.ts, (f.rows.filter fun row => row.level == "fault").length,
      (f.rows.filter fun row => row.level == "warn").length,
      f.rows.mergeSort fun first second => first.code ≤ second.code)

end RenderState

/-- The head line of the fault page at draw time `t`. -/
def faultHead (t : F64) (st : RenderState) : String :=
  match st.faultsView with
  | none => "NO SWEEP"
  | some (reportTs, nFault, nWarn, _) =>
      let age := t - if reportTs = 0 then t else reportTs
      let heads :=
        if FAULTS_STALE_S < age then
          "SENSE DEAD " ++ toString (RustFloat.truncate (age / 60)) ++ "M"
        else if 0 < nFault then toString nFault ++ " HURTS"
        else if 0 < nWarn then toString nWarn ++ " NIGGLE"
        else "ALL QUIET"
      String.ofList (heads.toList.take 14)

/-- One message off the feed, held on its own; `wall` is the wall clock. -/
def receive (prost : Prost) (wall : F64) (held : RenderState)
    (parts : Parts) : RenderState :=
  if subscribed TOPICS parts then
    match decode prost parts with
    | .ok msg => held.hold wall msg.topic msg.env
    | .error _ => held
  else held

/-- One wakeup of the daemon's loop: take what `next_state` gives and hold
it. -/
def wake (prost : Prost) (wall : F64) (queue : List Wire.Frame)
    (held : RenderState) : RenderState :=
  match nextState prost queue with
  | some (.ok msg) => held.hold wall msg.topic msg.env
  | _ => held

end Oled
