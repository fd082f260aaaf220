import Loa.CortexState
import Loa.PartialUpdate

/-!
# What a merge speaks for

The readings of the cortex are registers here, and an inbound message is a
partial update of them.  `carried` is what a message has to say; `written` is
what a merge of it writes.  The two differ in one register: the time of the air
is taken from every weather message that has a time, also from one that has
nothing but a pressure.
-/

namespace Cortex

open Wire PartialUpdate

/-- The readings of the state. -/
inductive Reading
  | pirHigh
  | pirCount
  | pirLastTs
  | pirLastHold
  | pirOnTs
  | snrCm
  | snrCount
  | snrTs
  | tempC
  | humPct
  | tempTs
  | tempCount
  | pressureHpa
  | baroTs
  | baroCount
  | faults
  | faultTs
  | condition
  deriving DecidableEq, Repr

abbrev Reading.Value : Reading → Type
  | .pirHigh => Bool
  | .pirCount | .snrCount | .tempCount | .baroCount => UInt32
  | .pirLastHold => F64
  | .pirLastTs | .pirOnTs | .snrCm | .snrTs | .tempC | .humPct | .tempTs
  | .pressureHpa | .baroTs | .faultTs => Option F64
  | .faults => List FaultRow
  | .condition => String

def readings (st : State) : ∀ reading : Reading, reading.Value
  | .pirHigh => st.pirHigh
  | .pirCount => st.pirCount
  | .pirLastTs => st.pirLastTs
  | .pirLastHold => st.pirLastHold
  | .pirOnTs => st.pirOnTs
  | .snrCm => st.snrCm
  | .snrCount => st.snrCount
  | .snrTs => st.snrTs
  | .tempC => st.tempC
  | .humPct => st.humPct
  | .tempTs => st.tempTs
  | .tempCount => st.tempCount
  | .pressureHpa => st.pressureHpa
  | .baroTs => st.baroTs
  | .baroCount => st.baroCount
  | .faults => st.faults
  | .faultTs => st.faultTs
  | .condition => st.condition

/-- Two states with the same settings. -/
structure SameSettings (first second : State) : Prop where
  mood : first.mood = second.mood
  page : first.page = second.page
  ringState : first.ringState = second.ringState
  oledMode : first.oledMode = second.oledMode
  oledText : first.oledText = second.oledText
  oledDim : first.oledDim = second.oledDim
  oledFlip : first.oledFlip = second.oledFlip
  ripperdoc : first.ripperdoc = second.ripperdoc
  snrOn : first.snrOn = second.snrOn

/-- A state is its settings and its readings. -/
theorem eq_of_sameSettings {first second : State}
    (settings : SameSettings first second)
    (same : readings first = readings second) : first = second := by
  have each (reading : Reading) :
      readings first reading = readings second reading :=
    congrFun same reading
  obtain ⟨mood, page, ringState, oledMode, oledText, oledDim, oledFlip,
    ripperdoc, snrOn⟩ := settings
  calc
    first = { second with
        pirHigh := readings first .pirHigh
        pirCount := readings first .pirCount
        pirLastTs := readings first .pirLastTs
        pirLastHold := readings first .pirLastHold
        pirOnTs := readings first .pirOnTs
        snrCm := readings first .snrCm
        snrCount := readings first .snrCount
        snrTs := readings first .snrTs
        tempC := readings first .tempC
        humPct := readings first .humPct
        tempTs := readings first .tempTs
        tempCount := readings first .tempCount
        pressureHpa := readings first .pressureHpa
        baroTs := readings first .baroTs
        baroCount := readings first .baroCount
        faults := readings first .faults
        faultTs := readings first .faultTs
        condition := readings first .condition } := by
      rw [← mood, ← page, ← ringState, ← oledMode, ← oledText, ← oledDim,
        ← oledFlip, ← ripperdoc, ← snrOn]
      rfl
    _ = second := by
      simp only [each]
      rfl

def pirCarries (p : Pir) : Patch Reading.Value
  | .pirHigh => p.high
  | .pirCount => p.count
  -- Both times are the last motion, and `ts` goes before `last_ts`.
  | .pirLastTs => (p.ts.or p.lastTs).map some
  | .pirLastHold => p.lastHold
  | .pirOnTs => p.onTs.map some
  | _ => none

def sonarCarries (s : Sonar) : Patch Reading.Value
  | .snrCm => s.cm.map some
  | .snrCount => s.count
  | .snrTs => s.ts.map some
  | _ => none

/-- The message has a reading of the air in it. -/
def ofTheAir (w : Weather) : Bool :=
  w.tempC.isSome || w.humPct.isSome

/-- A time belongs to the readings it comes with. -/
def weatherCarries (w : Weather) : Patch Reading.Value
  | .tempC => w.tempC.map some
  | .humPct => w.humPct.map some
  | .tempTs => if ofTheAir w then w.ts.map some else none
  | .tempCount => w.count
  | .pressureHpa => w.pressureHpa.map some
  | .baroTs => if w.pressureHpa.isSome then w.ts.map some else none
  | .baroCount => if w.pressureHpa.isSome then w.count else none
  | _ => none

/-- A report is whole; without a time of its own it is of the moment it came. -/
def faultCarries (now : F64) (f : Fault) : Patch Reading.Value
  | .faults => some (f.rows.map FaultRow.ofWire)
  | .faultTs => some (some (f.ts.getD now))
  | .condition => f.condition
  | _ => none

def carried (now : F64) (msg : Msg) : Patch Reading.Value :=
  match msg.env.body with
  | some (.pir p) => pirCarries p
  | some (.sonar s) => sonarCarries s
  | some (.weather w) => weatherCarries w
  | some (.fault f) => faultCarries now f
  | _ => .silent

def weatherWrites (w : Weather) : Patch Reading.Value
  | .tempTs => w.ts.map some
  | reading => weatherCarries w reading

def written (now : F64) (msg : Msg) : Patch Reading.Value :=
  match msg.env.body with
  | some (.weather w) => weatherWrites w
  | _ => carried now msg

theorem readings_merge (now : F64) (cx : Cortex) (msg : Msg) :
    readings (cx.merge now msg).st =
      (written now msg).apply (readings cx.st) := by
  funext reading
  unfold written carried Cortex.merge
  cases msg.env.body with
  | none => rfl
  | some body =>
      cases body with
      | pir p =>
          cases reading <;>
            simp [readings, mergePir, pirCarries, Patch.apply] <;>
            cases p.ts <;> cases p.lastTs <;> cases p.onTs <;> rfl
      | sonar s =>
          cases reading <;>
            simp [readings, mergeSonar, sonarCarries, Patch.apply] <;>
            cases s.cm <;> cases s.ts <;> rfl
      | weather w =>
          cases pressure : w.pressureHpa <;> cases reading <;>
            simp [readings, mergeWeather, pushBaro, weatherWrites,
              weatherCarries, Patch.apply, pressure] <;>
            cases w.tempC <;> cases w.humPct <;> cases w.ts <;> rfl
      | fault f =>
          cases reading <;> simp [readings, mergeFault, faultCarries, Patch.apply]
      | _ => rfl

theorem sameSettings_merge (now : F64) (cx : Cortex) (msg : Msg) :
    SameSettings (cx.merge now msg).st cx.st := by
  unfold Cortex.merge
  cases msg.env.body with
  | none => exact ⟨rfl, rfl, rfl, rfl, rfl, rfl, rfl, rfl, rfl⟩
  | some body =>
      cases body with
      | weather w =>
          dsimp only
          unfold Cortex.mergeWeather
          cases w.pressureHpa <;>
            exact ⟨rfl, rfl, rfl, rfl, rfl, rfl, rfl, rfl, rfl⟩
      | _ => exact ⟨rfl, rfl, rfl, rfl, rfl, rfl, rfl, rfl, rfl⟩

/-- The window after one more pressure. -/
def windowed (window : List (F64 × F64)) (ts hpa : F64) : List (F64 × F64) :=
  (window ++ [(ts, hpa)]).dropWhile fun sample =>
    BARO_WINDOW_S < ts - sample.1

/-- The pressure in a message, with the time the window files it under. -/
def pressureOf (msg : Msg) : Option (F64 × F64) :=
  match msg.env.body with
  | some (.weather w) => w.pressureHpa.map fun hpa => (w.ts.getD 0, hpa)
  | _ => none

theorem baro_merge (now : F64) (cx : Cortex) (msg : Msg) :
    (cx.merge now msg).baro =
      match pressureOf msg with
      | none => cx.baro
      | some (ts, hpa) => windowed cx.baro ts hpa := by
  unfold Cortex.merge pressureOf
  cases msg.env.body with
  | none => rfl
  | some body =>
      cases body with
      | weather w =>
          dsimp only
          unfold Cortex.mergeWeather
          cases w.pressureHpa <;> rfl
      | _ => rfl

/-- Merge messages in order, each with the clock's reading at the time. -/
def mergeAll (cx : Cortex) (msgs : List (F64 × Msg)) : Cortex :=
  msgs.foldl (fun cx entry => cx.merge entry.1 entry.2) cx

/-- What the last message that has this reading says. -/
def lastCarried (msgs : List (F64 × Msg)) (reading : Reading) :
    Option reading.Value :=
  (msgs.filterMap fun entry => carried entry.1 entry.2 reading).getLast?

theorem readings_mergeAll (cx : Cortex) (msgs : List (F64 × Msg)) :
    readings (cx.mergeAll msgs).st =
      (Patch.merged (msgs.map fun entry => written entry.1 entry.2)).apply
        (readings cx.st) := by
  rw [← Patch.foldl_apply, List.foldl_map]
  unfold mergeAll
  induction msgs generalizing cx with
  | nil => rfl
  | cons entry rest induction =>
      rw [List.foldl_cons, List.foldl_cons, induction, readings_merge]

theorem sameSettings_mergeAll (cx : Cortex) (msgs : List (F64 × Msg)) :
    SameSettings (cx.mergeAll msgs).st cx.st := by
  unfold mergeAll
  induction msgs generalizing cx with
  | nil => exact ⟨rfl, rfl, rfl, rfl, rfl, rfl, rfl, rfl, rfl⟩
  | cons entry rest induction =>
      have later := induction (cx.merge entry.1 entry.2)
      have first := sameSettings_merge entry.1 cx entry.2
      exact
        ⟨later.mood.trans first.mood, later.page.trans first.page,
          later.ringState.trans first.ringState,
          later.oledMode.trans first.oledMode,
          later.oledText.trans first.oledText,
          later.oledDim.trans first.oledDim,
          later.oledFlip.trans first.oledFlip,
          later.ripperdoc.trans first.ripperdoc,
          later.snrOn.trans first.snrOn⟩

/-- The window is the work of the messages with a pressure alone. -/
theorem baro_mergeAll_filter (cx : Cortex) (msgs : List (F64 × Msg)) :
    (cx.mergeAll msgs).baro =
      (cx.mergeAll
        (msgs.filter fun entry => (pressureOf entry.2).isSome)).baro := by
  suffices equal : ∀ first second : Cortex, first.baro = second.baro →
      (first.mergeAll msgs).baro =
        (second.mergeAll
          (msgs.filter fun entry => (pressureOf entry.2).isSome)).baro from
    equal cx cx rfl
  induction msgs with
  | nil => exact fun first second same => same
  | cons entry rest induction =>
      intro first second same
      cases pressure : pressureOf entry.2 with
      | none =>
          rw [List.filter_cons_of_neg (by simp [pressure])]
          apply induction
          rw [baro_merge, pressure]
          exact same
      | some sample =>
          rw [List.filter_cons_of_pos (by simp [pressure])]
          apply induction
          rw [baro_merge, baro_merge, pressure, same]

theorem written_eq_carried (now : F64) (msg : Msg) {reading : Reading}
    (other : reading ≠ .tempTs) :
    written now msg reading = carried now msg reading := by
  unfold written carried
  cases msg.env.body with
  | none => rfl
  | some body =>
      cases body with
      | weather w => cases reading <;> first | rfl | exact absurd rfl other
      | _ => rfl

/-- The weather messages with a time, in order. -/
def stamped (msgs : List (F64 × Msg)) : List Weather :=
  msgs.filterMap fun entry =>
    match entry.2.env.body with
    | some (.weather w) => if w.ts.isSome then some w else none
    | _ => none

/-- The time that belongs to the air: of the last message with a reading of the
air, or the one held before. -/
def airTs (cx : Cortex) (msgs : List (F64 × Msg)) : Option F64 :=
  (((stamped msgs).filter ofTheAir).getLast?.map Weather.ts).getD cx.st.tempTs

/-- The newest time did not come with a pressure alone, or says nothing new. -/
def StampOfTheAir (cx : Cortex) (msgs : List (F64 × Msg)) : Prop :=
  ∀ w ∈ (stamped msgs).getLast?, ofTheAir w = true ∨ w.ts = airTs cx msgs

theorem filterMap_written_tempTs (msgs : List (F64 × Msg)) :
    (msgs.filterMap fun entry => written entry.1 entry.2 .tempTs) =
      (stamped msgs).map Weather.ts := by
  unfold stamped
  rw [List.map_filterMap]
  refine List.filterMap_congr fun entry _ => ?_
  unfold written carried
  cases entry.2.env.body with
  | none => rfl
  | some body =>
      cases body with
      | weather w => cases stamp : w.ts <;> simp [weatherWrites, stamp]
      | _ => rfl

theorem filterMap_carried_tempTs (msgs : List (F64 × Msg)) :
    (msgs.filterMap fun entry => carried entry.1 entry.2 .tempTs) =
      ((stamped msgs).filter ofTheAir).map Weather.ts := by
  unfold stamped
  rw [List.filter_filterMap, List.map_filterMap]
  refine List.filterMap_congr fun entry _ => ?_
  unfold carried
  cases entry.2.env.body with
  | none => rfl
  | some body =>
      cases body with
      | weather w =>
          cases stamp : w.ts <;> cases air : ofTheAir w <;>
            simp [weatherCarries, stamp, air]
      | _ => rfl

/-- After a sequence every reading is the last one written. -/
theorem readings_mergeAll_apply (cx : Cortex) (msgs : List (F64 × Msg))
    (reading : Reading) :
    readings (cx.mergeAll msgs).st reading =
      (msgs.filterMap fun entry =>
        written entry.1 entry.2 reading).getLast?.getD
          (readings cx.st reading) := by
  rw [readings_mergeAll, Patch.apply, Patch.merged_eq_getLast?,
    List.filterMap_map]
  rfl

theorem reading_carried_of_ne {cx : Cortex} {msgs : List (F64 × Msg)}
    {reading : Reading} (other : reading ≠ .tempTs) :
    readings (cx.mergeAll msgs).st reading =
      (lastCarried msgs reading).getD (readings cx.st reading) := by
  rw [readings_mergeAll_apply, lastCarried]
  simp only [written_eq_carried _ _ other]

theorem tempTs_carried_iff (cx : Cortex) (msgs : List (F64 × Msg)) :
    readings (cx.mergeAll msgs).st .tempTs =
        (lastCarried msgs .tempTs).getD (readings cx.st .tempTs) ↔
      StampOfTheAir cx msgs := by
  have shouldBe : (lastCarried msgs .tempTs).getD (readings cx.st .tempTs) =
      airTs cx msgs := by
    rw [lastCarried, filterMap_carried_tempTs, List.getLast?_map]
    rfl
  rw [shouldBe, readings_mergeAll_apply, filterMap_written_tempTs,
    List.getLast?_map]
  unfold StampOfTheAir
  cases newest : (stamped msgs).getLast? with
  | none =>
      have quiet : stamped msgs = [] := List.getLast?_eq_none_iff.mp newest
      simp [airTs, quiet, readings]
  | some w =>
      have same : ofTheAir w = true → w.ts = airTs cx msgs := by
        intro air
        obtain ⟨front, all⟩ := List.getLast?_eq_some_iff.mp newest
        simp [airTs, all, air]
      simp only [Option.map_some, Option.getD_some, Option.mem_def,
        Option.some.injEq, forall_eq']
      exact ⟨.inr, fun either => either.elim same id⟩

/-- After a sequence of messages every reading is the last one carried, every
setting is as before and the window has the pressures alone, exactly when the
newest time did not come with a pressure alone or says nothing new. -/
theorem mergeAll_carried_iff (cx : Cortex) (msgs : List (F64 × Msg)) :
    ((∀ reading, readings (cx.mergeAll msgs).st reading =
          (lastCarried msgs reading).getD (readings cx.st reading)) ∧
        SameSettings (cx.mergeAll msgs).st cx.st ∧
        (cx.mergeAll msgs).baro =
          (cx.mergeAll
            (msgs.filter fun entry => (pressureOf entry.2).isSome)).baro) ↔
      StampOfTheAir cx msgs := by
  rw [← tempTs_carried_iff]
  constructor
  · rintro ⟨every, -, -⟩
    exact every .tempTs
  · intro air
    refine ⟨fun reading => ?_, sameSettings_mergeAll cx msgs,
      baro_mergeAll_filter cx msgs⟩
    by_cases temp : reading = .tempTs
    · subst temp
      exact air
    · exact reading_carried_of_ne temp

/-- A pressure without a reading of the air moves the time of the air. -/
theorem pressure_moves_tempTs :
    let aired : Cortex := { st := { tempC := some 21, tempTs := some 100 } }
    let pressure : Msg :=
      { topic := "weather"
        env := envelope (.weather { pressureHpa := some 1013, ts := some 900 }) }
    readings (aired.mergeAll [(900, pressure)]).st .tempTs = some 900 ∧
      (lastCarried [(900, pressure)] .tempTs).getD (readings aired.st .tempTs) =
        some 100 := by
  decide

end Cortex
