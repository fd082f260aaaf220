import Loa.CortexState

/-!
# The assembler

What each message of the cortex carries.  The functions read the state and
return a body; the clock is an argument, read once for each message.
-/

namespace Cortex

open Wire

/-- The down leg: the presentation fields without pixels. -/
def stateMessage (st : State) (now : F64) : Ripperdoc where
  page := some st.page
  mood := some st.mood
  ringState := some st.ringState
  oledMode := some st.oledMode
  oledText := st.oledText
  oledDim := some st.oledDim
  oledFlip := some st.oledFlip
  ripperdoc := some st.ripperdoc
  snrOn := some st.snrOn
  condition := some st.condition
  face := none
  ts := some now

def buildState (st : State) (now : F64) : Body :=
  .ripperdoc (stateMessage st now)

/-- The state leg with whatever pixels the last relayed frame carried. -/
def buildRipperdoc (st : State) (face : Option Bytes) (now : F64) : Body :=
  .ripperdoc { stateMessage st now with face := face }

def buildRing (lastRing : Option Bytes) (now : F64) : Body :=
  .ring { ring := lastRing, ts := some now }

/-- The rows of the fault view: the injected ones lead. -/
def faultRows (cx : Cortex) (dbDown : Bool) : List FaultRow :=
  injectedFaults dbDown ++ cx.st.faults

/-- The fault view; its word is recomputed from the rows. -/
def faultMessage (cx : Cortex) (dbDown : Bool) (now : F64) : Fault where
  rows := (cx.faultRows dbDown).map FaultRow.toWire
  condition := some (conditionFrom (cx.faultRows dbDown))
  ts := some now

def buildFault (cx : Cortex) (dbDown : Bool) (now : F64) : Body :=
  .fault (cx.faultMessage dbDown now)

def buildPir (st : State) (now : F64) : Body :=
  .pir
    { high := some st.pirHigh
      count := some st.pirCount
      lastTs := st.pirLastTs
      lastHold := some st.pirLastHold
      onTs := st.pirOnTs
      ts := some now }

def buildSonar (st : State) (now : F64) : Body :=
  .sonar { cm := st.snrCm, count := some st.snrCount, ts := some now }

/-- The weather, with the trend of the cortex's own window. -/
def buildWeather (cx : Cortex) (now : F64) : Body :=
  let (direction, series) := cx.baroTrend
  .weather
    { tempC := cx.st.tempC
      humPct := cx.st.humPct
      count := some cx.st.tempCount
      pressureHpa := cx.st.pressureHpa
      trend := some direction
      series := series
      ts := some now }

def buildInit (now : F64) : Body :=
  .init { source := some "cortex", ts := some now }

/-- A value as one word: a text is itself. -/
def stringify (text : Json.Text) : Json.Value → String
  | .string word => word
  | other => text.display other

/-- The rails as numbers and the seal as words. -/
def buildPower (text : Json.Text) (rails : Dict F64)
    (status : List (String × Json.Value)) (now : F64) : Body :=
  .power
    { rails := rails
      frag := status.foldl
        (fun frag field => frag.insert field.1 (stringify text field.2)) ∅
      ts := some now }

/-- The detail of an event as words; a null member is left out. -/
def eventDetail (text : Json.Text) (detail : Json.Value) : Dict String :=
  (detail.asObject.getD []).foldl
    (fun words field =>
      match field.2 with
      | .null => words
      | value => words.insert field.1 (stringify text value)) ∅

def buildEvent (text : Json.Text) (kind : String) (detail : Json.Value)
    (ts : F64) : Body :=
  .event { ts := ts, kind := kind, detail := eventDetail text detail }

end Cortex
