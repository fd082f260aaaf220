import Loa.RustFloat
import Loa.WireContract

/-!
# The sweep's look at the sensors

The fault daemon keeps the last weather message of the feed.  A sweep takes the
values and their time from it and has a row for a value that nothing can age and
for a value that is too old.
-/

namespace FaultDaemon

open Wire RustText

def WARN : String := "warn"

/-- The age in seconds from which a number is no longer believed. -/
def SENSOR_STALE_S : F64 := 600

/-- The sensors that are sampled all the time: the label on the face, the key of
the value and the key of its time. -/
def SENSORS : List (String × String × String) :=
  [("TEMP", "temp_c", "temp_ts"), ("BARO", "pressure_hpa", "baro_ts")]

structure Row where
  level : String
  code : String
  text : String
  face : String
  deriving DecidableEq

/-- For each key the last value and its time. -/
abbrev SensorReadings := Dict (Option F64 × Option F64)

/-- The row for a sensor with this value and this time, if it has one. -/
def sensorRow (label valKey : String) (now : F64) :
    Option F64 × Option F64 → Option Row
  | (none, _) => none
  | (some _, none) =>
      some
        { level := WARN
          code := label ++ " NO TS"
          text := valKey ++
            " has a value but no timestamp — nothing can say how old it is"
          face := "" }
  | (some _, some ts) =>
      let age := now - ts
      if SENSOR_STALE_S < age then
        some
          { level := WARN
            code := label ++ " STALE"
            text := valKey ++ " last read " ++
              toString (RustFloat.rounded (age / 60)) ++
              " min ago — that number is a ghost, not a reading"
            face := label ++ " " ++ toString (RustFloat.asI64 (age / 60)) ++
              "M OLD" }
      else none

/-- The part of `evaluate` that looks at the sensors. -/
def sensorRows (sensors : SensorReadings) (now : F64) : List Row :=
  SENSORS.filterMap fun (label, valKey, _) =>
    sensorRow label valKey now ((sensors.lookup valKey).getD (none, none))

/-- The feed thread: the last weather, and how many asks it has passed on. -/
structure Listener where
  weather : Option Weather := none
  asks : Nat := 0

/-- One message off the feed.  An ask is counted without a look inside. -/
def Listener.hear (prost : Prost) (listener : Listener) (parts : Parts) :
    Listener :=
  let topic := fromUtf8Lossy parts.topic
  if topic = "init" then { listener with asks := listener.asks + 1 }
  else if topic = "weather" then
    match decode prost parts with
    | .ok msg =>
        match msg.env.body with
        | some (.weather w) => { listener with weather := some w }
        | _ => listener
    | .error _ => listener
  else listener

/-- A value with the time of the message it came in. -/
def stamped (value ts : Option F64) : Option F64 × Option F64 :=
  match value with
  | some value => (some value, ts)
  | none => (none, none)

/-- What `sweep` hands on of the last weather. -/
def Listener.sensors (listener : Listener) : SensorReadings :=
  match listener.weather with
  | some w =>
      ((∅ : SensorReadings).insert "temp_c" (stamped w.tempC w.ts)).insert
        "pressure_hpa" (stamped w.pressureHpa w.ts)
  | none => ∅

/-- The rows of a sweep at the time `now` that are about the sensors. -/
def Listener.sweep (listener : Listener) (now : F64) : List Row :=
  sensorRows listener.sensors now

/-- The value of a sensor in the last weather is older than is believed. -/
def Outdated (value : Weather → Option F64) (listener : Listener) (now : F64) :
    Prop :=
  ∃ w ts, listener.weather = some w ∧ (value w).isSome ∧ w.ts = some ts ∧
    SENSOR_STALE_S < now - ts

/-- The two rows that a sensor can have. -/
theorem sensorRow_cases {label valKey : String} {now : F64}
    {reading : Option F64 × Option F64} {row : Row}
    (found : sensorRow label valKey now reading = some row) :
    row.code = label ++ " NO TS" ∨
      row.code = label ++ " STALE" ∧
        ∃ number ts, reading = (some number, some ts) ∧
          SENSOR_STALE_S < now - ts := by
  match reading, found with
  | (none, _), found => cases found
  | (some _, none), found =>
      cases found
      exact .inl rfl
  | (some number, some ts), found =>
      by_cases old : SENSOR_STALE_S < now - ts
      · rw [sensorRow, if_pos old] at found
        cases found
        exact .inr ⟨rfl, number, ts, rfl, old⟩
      · rw [sensorRow, if_neg old] at found
        cases found

/-- A sensor has its stale row exactly when there is a value with an old
time. -/
theorem exists_stale_iff {label code : String} (valKey : String) (now : F64)
    (reading : Option F64 × Option F64) (isStale : label ++ " STALE" = code)
    (notUntimed : label ++ " NO TS" ≠ code) :
    (∃ row, sensorRow label valKey now reading = some row ∧ row.code = code) ↔
      ∃ number ts, reading = (some number, some ts) ∧
        SENSOR_STALE_S < now - ts := by
  constructor
  · rintro ⟨row, found, stale⟩
    rcases sensorRow_cases found with untimed | ⟨-, old⟩
    · exact absurd (untimed.symm.trans stale) notUntimed
    · exact old
  · rintro ⟨number, ts, rfl, old⟩
    exact ⟨_, if_pos old, isStale⟩

theorem no_row_of_other {label code : String} (valKey : String) (now : F64)
    (reading : Option F64 × Option F64) (notStale : label ++ " STALE" ≠ code)
    (notUntimed : label ++ " NO TS" ≠ code) :
    ¬ ∃ row, sensorRow label valKey now reading = some row ∧
      row.code = code := by
  rintro ⟨row, found, stale⟩
  rcases sensorRow_cases found with untimed | ⟨own, -⟩
  · exact notUntimed (untimed.symm.trans stale)
  · exact notStale (own.symm.trans stale)

theorem sensors_lookup (listener : Listener) :
    (listener.sensors.lookup "temp_c").getD (none, none) =
        (listener.weather.map fun w => stamped w.tempC w.ts).getD
          (none, none) ∧
      (listener.sensors.lookup "pressure_hpa").getD (none, none) =
        (listener.weather.map fun w => stamped w.pressureHpa w.ts).getD
          (none, none) := by
  unfold Listener.sensors
  cases listener.weather with
  | none => exact ⟨rfl, rfl⟩
  | some w =>
      rw [AList.lookup_insert_ne (by decide), AList.lookup_insert,
        AList.lookup_insert]
      exact ⟨rfl, rfl⟩

theorem mem_sweep {listener : Listener} {now : F64} {row : Row} :
    row ∈ listener.sweep now ↔
      sensorRow "TEMP" "temp_c" now
          ((listener.weather.map fun w => stamped w.tempC w.ts).getD
            (none, none)) = some row ∨
        sensorRow "BARO" "pressure_hpa" now
          ((listener.weather.map fun w => stamped w.pressureHpa w.ts).getD
            (none, none)) = some row := by
  obtain ⟨temp, baro⟩ := sensors_lookup listener
  simp [Listener.sweep, sensorRows, SENSORS, temp, baro]

/-- The reading that a sweep is about is outdated exactly when the value is
there with an old time. -/
theorem outdated_iff (value : Weather → Option F64) (listener : Listener)
    (now : F64) :
    Outdated value listener now ↔
      ∃ number ts,
        (listener.weather.map fun w => stamped (value w) w.ts).getD
            (none, none) = (some number, some ts) ∧
          SENSOR_STALE_S < now - ts := by
  unfold Outdated
  cases listener.weather with
  | none => simp
  | some w => cases found : value w <;> simp [stamped, found]

/-- A sweep has a row for a sensor exactly when its reading is outdated. -/
theorem stale_iff (listener : Listener) (now : F64) :
    ((∃ row ∈ listener.sweep now, row.code = "TEMP STALE") ↔
        Outdated Weather.tempC listener now) ∧
      ((∃ row ∈ listener.sweep now, row.code = "BARO STALE") ↔
        Outdated Weather.pressureHpa listener now) := by
  simp only [outdated_iff, mem_sweep, or_and_right, exists_or]
  constructor
  · refine (or_iff_left ?_).trans ?_
    · exact no_row_of_other _ now _ (by decide) (by decide)
    · exact exists_stale_iff _ now _ (by decide) (by decide)
  · refine (or_iff_right ?_).trans ?_
    · exact no_row_of_other _ now _ (by decide) (by decide)
    · exact exists_stale_iff _ now _ (by decide) (by decide)

end FaultDaemon
