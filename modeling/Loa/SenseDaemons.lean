import Loa.WireMessages
import Mathlib.Algebra.Order.Ring.Abs

/-!
# The memories of the sense daemons

What the motion, the sonar and the weather daemon remember, when a reading is
news, and the full report that each gives when the cortex asks for it.
-/

namespace Sense

open Wire

/-- What the motion daemon has published so far. -/
structure Remembered where
  high : Bool := false
  count : UInt32 := 0
  lastTs : Option F64 := none
  lastHold : Option F64 := none
  onTs : Option F64 := none

def Remembered.full (remembered : Remembered) : Wire.Pir where
  high := some remembered.high
  count := some remembered.count
  lastTs := remembered.lastTs
  lastHold := remembered.lastHold
  onTs := remembered.onTs
  ts := none

/-- The state machine of the motion sensor. -/
structure Motion where
  cooldown : F64 := 5
  remembered : Remembered := {}
  last : Bool := false
  pending : UInt32 := 0
  lastFire : F64 := 0
  onTs : Option F64 := none

/-- What one poll can have to tell. -/
inductive MotionNews
  | state (message : Wire.Pir)
  | fire (message : Wire.Pir) (count : UInt32)

namespace Motion

def full (pir : Motion) : Wire.Pir :=
  pir.remembered.full

def resetPending (pir : Motion) : Motion :=
  { pir with pending := 0 }

/-- The level at boot, before any edge; the poll cursor is not set. -/
def seed (pir : Motion) (level : Bool) (now : F64) : Wire.Pir × Motion :=
  let risen := { pir.remembered with high := level }
  ({ high := some level, onTs := if level then some now else none },
    if level then
      { pir with onTs := some now, remembered := { risen with onTs := some now } }
    else { pir with remembered := risen })

/-- The edge that a poll sees, if it sees one. -/
def edge (pir : Motion) (level : Bool) (now : F64) :
    List MotionNews × Motion :=
  if level = pir.last then ([], pir)
  else if level then
    ([.state { high := some true, onTs := some now }],
      { pir with
        onTs := some now
        remembered :=
          { pir.remembered with high := true, onTs := some now } })
  else
    let hold := (pir.onTs.map fun t => now - t).getD 0
    ([.state { high := some false, lastHold := some hold }],
      { pir with
        onTs := none
        remembered :=
          { pir.remembered with
            high := false
            lastHold := some hold
            onTs := none } })

/-- One poll.  A level held for two polls fires, once in a cooldown. -/
def tick (pir : Motion) (level : Bool) (now : F64) :
    List MotionNews × Motion :=
  let (edges, seen) := pir.edge level now
  if level then
    let pending := if pir.last then seen.pending + 1 else 1
    if 2 ≤ pending ∧ seen.cooldown ≤ now - seen.lastFire then
      let count := seen.remembered.count + 1
      (edges ++ [.fire { count := some count, lastTs := some now } count],
        { seen with
          pending := pending
          lastFire := now
          remembered :=
            { seen.remembered with count := count, lastTs := some now }
          last := level })
    else (edges, { seen with pending := pending, last := level })
  else (edges, { seen with pending := 0, last := level })

end Motion

/-- The sonar daemon: what it measured, and what it last published. -/
structure Snr where
  count : UInt32 := 0
  cm : Option F64 := none
  ts : Option F64 := none
  lastPubCm : Option F64 := none
  lastPubTs : Option F64 := none

namespace Snr

def full (snr : Snr) : Wire.Sonar where
  cm := snr.cm
  count := some snr.count
  ts := snr.ts

/-- One measurement in, and a message out if it is news: the range moved, or
the daemon has been quiet for long. -/
def measured (snr : Snr) (cm ts moveCm quietS : F64) :
    Option Wire.Sonar × Snr :=
  let held := { snr with count := snr.count + 1, cm := some cm, ts := some ts }
  let moved :=
    match held.lastPubCm with
    | none => true
    | some last => moveCm ≤ 0 || moveCm ≤ |cm - last|
  let stale :=
    match held.lastPubTs with
    | none => true
    | some t => 0 < quietS && quietS ≤ ts - t
  if moved || stale then
    (some held.full, { held with lastPubCm := some cm, lastPubTs := some ts })
  else (none, held)

end Snr

/-- Half the step of the sensor: a real step moves, a repeat does not. -/
def moved (a b : F64) : Bool :=
  1 / 20 ≤ |a - b|

/-- A number is news if none was sent yet or it moved. -/
def isNews (value : F64) : Option F64 → Bool
  | none => true
  | some sent => moved value sent

/-- The weather daemon: what it measured, the time it last published under, the
count of decoded frames, and the numbers it last published. -/
structure Air where
  tempC : Option F64 := none
  humPct : Option F64 := none
  baroC : Option F64 := none
  pressureHpa : Option F64 := none
  ts : Option F64 := none
  count : UInt32 := 0
  pubSent : Option F64 := none
  humSent : Option F64 := none
  presSent : Option F64 := none

namespace Air

/-- A frame of the DHT was decoded. -/
def dht (air : Air) (tempC humPct ts : F64) : List Wire.Weather × Air :=
  let held : Air :=
    { air with
      count := air.count + 1
      tempC := some tempC
      humPct := some humPct }
  let tempNews := isNews tempC held.pubSent
  let humNews := isNews humPct held.humSent
  if tempNews || humNews then
    ([{ tempC := if tempNews then some tempC else none
        humPct := if humNews then some humPct else none
        ts := some ts
        count := some held.count }],
      { held with
        pubSent := if tempNews then some tempC else held.pubSent
        humSent := if humNews then some humPct else held.humSent
        ts := some ts })
  else ([], held)

/-- A reading of the barometer. -/
def baro (air : Air) (baroTempC pressureHpa ts : F64) :
    List Wire.Weather × Air :=
  let held : Air :=
    { air with baroC := some baroTempC, pressureHpa := some pressureHpa }
  if isNews pressureHpa held.presSent then
    ([{ pressureHpa := some pressureHpa
        ts := some ts
        count := if 0 < held.count then some held.count else none }],
      { held with presSent := some pressureHpa, ts := some ts })
  else ([], held)

/-- The answer to an ask: everything measured. -/
def full (air : Air) : Wire.Weather where
  tempC := air.tempC
  humPct := air.humPct
  ts := air.ts
  count := some air.count
  pressureHpa := air.pressureHpa

/-- A frame of the DHT is no word on the pressure. -/
theorem dht_pressure (air : Air) (tempC humPct ts : F64) :
    (air.dht tempC humPct ts).2.pressureHpa = air.pressureHpa ∧
      ∀ w ∈ (air.dht tempC humPct ts).1, w.pressureHpa = none := by
  unfold dht
  dsimp only
  split
  · refine ⟨rfl, fun w news => ?_⟩
    rw [List.mem_singleton.mp news]
  · exact ⟨rfl, fun w news => nomatch news⟩

/-- A reading of the barometer is no word on the temperature. -/
theorem baro_temp (air : Air) (baroTempC pressureHpa ts : F64) :
    (air.baro baroTempC pressureHpa ts).2.tempC = air.tempC ∧
      ∀ w ∈ (air.baro baroTempC pressureHpa ts).1, w.tempC = none := by
  unfold baro
  dsimp only
  split
  · refine ⟨rfl, fun w news => ?_⟩
    rw [List.mem_singleton.mp news]
  · exact ⟨rfl, fun w news => nomatch news⟩

end Air

/-- The full report of one of the daemons. -/
inductive Report
  | motion (pir : Motion)
  | sonar (snr : Snr)
  | weather (air : Air)

namespace Report

/-- The body that a daemon registers as its full payload. -/
def body : Report → Wire.Body
  | .motion pir => .pir pir.full
  | .sonar snr => .sonar snr.full
  | .weather air => .weather air.full

/-- The topic is the payload's own name. -/
def topic : Report → String
  | .motion _ => "pir"
  | .sonar _ => "sonar"
  | .weather _ => "weather"

def pressure : Report → Option F64
  | .weather air => air.pressureHpa
  | _ => none

end Report

end Sense
