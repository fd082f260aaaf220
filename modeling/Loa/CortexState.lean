import Loa.WireContract

/-!
# The cortex's state

The state of the body as the cortex holds it in memory, and the rules for
moving it by readings: a merge goes by presence, the barometer keeps a window of
samples, and a fault report is taken whole.
-/

namespace Cortex

open Wire

/-- One fault row, structured. -/
structure FaultRow where
  level : String
  code : String
  text : String
  face : Option String
  deriving DecidableEq

def FaultRow.ofWire (row : Wire.FaultRow) : FaultRow :=
  { level := row.level, code := row.code, text := row.text, face := row.face }

def FaultRow.toWire (row : FaultRow) : Wire.FaultRow :=
  { level := row.level, code := row.code, text := row.text, face := row.face }

/-- Settings first, then readings, then the sweep's latest report. -/
structure State where
  mood : String := "calm"
  page : String := "sensors"
  ringState : String := "home"
  oledMode : String := "scope"
  oledText : Option String := none
  oledDim : Bool := false
  oledFlip : Bool := true
  ripperdoc : Bool := false
  snrOn : Bool := true
  pirHigh : Bool := false
  pirCount : UInt32 := 0
  pirLastTs : Option F64 := none
  pirLastHold : F64 := 0
  pirOnTs : Option F64 := none
  snrCm : Option F64 := none
  snrCount : UInt32 := 0
  snrTs : Option F64 := none
  tempC : Option F64 := none
  humPct : Option F64 := none
  tempTs : Option F64 := none
  tempCount : UInt32 := 0
  pressureHpa : Option F64 := none
  baroTs : Option F64 := none
  baroCount : UInt32 := 0
  faults : List FaultRow := []
  faultTs : Option F64 := none
  condition : String := "well"
  deriving DecidableEq

def BARO_WINDOW_S : F64 := 3 * 3600

def BARO_SERIES_POINTS : Nat := 60

def BARO_DEADBAND_HPA_H : F64 := 3 / 10

end Cortex

/-- The cortex: the state, the window of pressure samples (oldest first), and
the last frame of each device. -/
structure Cortex where
  st : Cortex.State := {}
  baro : List (F64 × F64) := []
  lastFace : Option Bytes := none
  lastRing : Option Bytes := none
  deriving DecidableEq

namespace Cortex

open Wire

/-- Record a pressure sample; samples that the window has left behind go. -/
def pushBaro (cx : Cortex) (ts hpa : F64) : Cortex :=
  { cx with
    baro := (cx.baro ++ [(ts, hpa)]).dropWhile fun sample =>
      BARO_WINDOW_S < ts - sample.1 }

/-- The direction of the least-squares slope, and the newest samples. -/
def baroTrend (cx : Cortex) : String × List F64 :=
  let n : F64 := cx.baro.length
  if cx.baro.length < 2 then ("steady", [])
  else
    let sx := (cx.baro.map fun sample => sample.1).sum
    let sy := (cx.baro.map fun sample => sample.2).sum
    let sxx := (cx.baro.map fun sample => sample.1 * sample.1).sum
    let sxy := (cx.baro.map fun sample => sample.1 * sample.2).sum
    let denom := n * sxx - sx * sx
    let slopeH :=
      if denom ≠ 0 then (n * sxy - sx * sy) / denom * 3600 else 0
    let direction :=
      if BARO_DEADBAND_HPA_H < slopeH then "rising"
      else if slopeH < -BARO_DEADBAND_HPA_H then "falling"
      else "steady"
    let series := (cx.baro.reverse.take BARO_SERIES_POINTS).reverse
    (direction, series.map Prod.snd)

def mergePir (cx : Cortex) (p : Pir) : Cortex :=
  { cx with
    st := { cx.st with
      pirHigh := p.high.getD cx.st.pirHigh
      pirCount := p.count.getD cx.st.pirCount
      -- Both times are the last motion; `ts` is merged second.
      pirLastTs := p.ts.or (p.lastTs.or cx.st.pirLastTs)
      pirLastHold := p.lastHold.getD cx.st.pirLastHold
      pirOnTs := p.onTs.or cx.st.pirOnTs } }

def mergeSonar (cx : Cortex) (s : Sonar) : Cortex :=
  { cx with
    st := { cx.st with
      snrCm := s.cm.or cx.st.snrCm
      snrCount := s.count.getD cx.st.snrCount
      snrTs := s.ts.or cx.st.snrTs } }

/-- The air; a reading with pressure is also a sample for the window. -/
def mergeWeather (cx : Cortex) (w : Weather) : Cortex :=
  let cx :=
    { cx with
      st := { cx.st with
        tempC := w.tempC.or cx.st.tempC
        humPct := w.humPct.or cx.st.humPct
        tempTs := w.ts.or cx.st.tempTs
        tempCount := w.count.getD cx.st.tempCount } }
  match w.pressureHpa with
  | none => cx
  | some hpa =>
      pushBaro
        { cx with
          st := { cx.st with
            pressureHpa := some hpa
            baroTs := w.ts.or cx.st.baroTs
            baroCount := w.count.getD cx.st.baroCount } }
        (w.ts.getD 0) hpa

/-- The sweep's report, taken whole; its word only when it has one. -/
def mergeFault (now : F64) (cx : Cortex) (f : Fault) : Cortex :=
  { cx with
    st := { cx.st with
      faults := f.rows.map FaultRow.ofWire
      faultTs := some (f.ts.getD now)
      condition := f.condition.getD cx.st.condition } }

/-- Merge one decoded reading; `now` is the clock. -/
def merge (now : F64) (cx : Cortex) (msg : Msg) : Cortex :=
  match msg.env.body with
  | some (.pir p) => cx.mergePir p
  | some (.sonar s) => cx.mergeSonar s
  | some (.weather w) => cx.mergeWeather w
  | some (.fault f) => cx.mergeFault now f
  | _ => cx

/-- The condition word that rows stand for; never `mute`. -/
def conditionFrom (rows : List FaultRow) : String :=
  if rows.any fun row => row.level == "fault" then "hurts"
  else if rows.any fun row => row.level == "warn" then "niggle"
  else "well"

/-- What glass and ring draw: a body never swept is mute. -/
def rendererCondition (st : State) : String :=
  if st.faultTs.isNone then "mute" else st.condition

/-- The row for a store that cannot take a flush. -/
def injectedFaults (dbDown : Bool) : List FaultRow :=
  if dbDown then
    [{ level := "fault"
       code := "DB DOWN"
       text := "settings cannot be flushed to the store"
       face := some "STORE" }]
  else []

theorem conditionFrom_cases (rows : List FaultRow) :
    conditionFrom rows = "hurts" ∨ conditionFrom rows = "niggle" ∨
      conditionFrom rows = "well" := by
  unfold conditionFrom
  split
  · exact Or.inl rfl
  · split
    · exact Or.inr (Or.inl rfl)
    · exact Or.inr (Or.inr rfl)

end Cortex
