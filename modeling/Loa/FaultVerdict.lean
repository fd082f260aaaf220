import Loa.CortexState
import Loa.FaultEvaluate

/-!
# The verdict of a sweep

Three functions of two crates fold the rows of a sweep to one word: the sweep
itself, the reader of its report, and the cortex over the rows that crossed the
wire.  They agree on every sweep, and a sweep has no row exactly when every
probe found its part of the body well.
-/

section Partition

variable {α : Type} {rank : α → Nat}

/-- A list in the order of two ranks has the lower rank in front. -/
theorem eq_filter_append_of_sorted {list : List α}
    (sorted : list.Pairwise fun first second => rank first ≤ rank second) :
    list = list.filter (fun entry => rank entry = 0) ++
      list.filter fun entry => rank entry ≠ 0 := by
  induction list with
  | nil => rfl
  | cons entry list induction =>
      obtain ⟨first, later⟩ := List.pairwise_cons.mp sorted
      by_cases low : rank entry = 0
      · simpa [low] using induction later
      · have high : ∀ other ∈ list, rank other ≠ 0 := fun other member zero =>
          low (Nat.le_zero.mp (zero ▸ first other member))
        have none : list.filter (fun entry => rank entry = 0) = [] := by
          simpa using high
        have all : list.filter (fun entry => rank entry ≠ 0) = list := by
          simpa using high
        simp only [ne_eq, decide_not] at all
        simp [low, none, all]

/-- A stable sort leaves the entries of one rank in their order. -/
theorem filter_mergeSort (list : List α) (level : Nat) :
    (list.mergeSort fun first second => rank first ≤ rank second).filter
        (fun entry => rank entry = level) =
      list.filter fun entry => rank entry = level := by
  have alike : (list.filter fun entry => rank entry = level).Pairwise
      fun first second => decide (rank first ≤ rank second) = true := by
    refine List.pairwise_of_forall_mem_list fun first one second other => ?_
    have firstLevel := of_decide_eq_true (List.mem_filter.mp one).2
    have secondLevel := of_decide_eq_true (List.mem_filter.mp other).2
    exact decide_eq_true (by omega)
  have kept := List.sublist_mergeSort
    (fun first second third one other => by
      simp only [decide_eq_true_eq] at one other ⊢
      omega)
    (fun first second => by simpa using Nat.le_total _ _)
    alike List.filter_sublist
  have inside := kept.filter fun entry => decide (rank entry = level)
  rw [List.filter_filter] at inside
  simp only [Bool.and_self] at inside
  refine (inside.eq_of_length ?_).symm
  exact ((List.mergeSort_perm list _).filter _).length_eq.symm

end Partition

namespace FaultDaemon

open Wire

/-- The age in seconds from which a report is dead. -/
def FAULTS_STALE_S : F64 := 300

/-- The sweep's report. -/
structure Report where
  ts : F64
  boot : Option String
  rows : List Row
  faults : Nat
  warns : Nat
  condition : String
  deriving DecidableEq

def Report.new (ts : F64) (boot : Option String) (rows : List Row) : Report where
  ts := ts
  boot := boot
  rows := rows
  faults := (rows.filter fun row => row.level == FAULT).length
  warns := (rows.filter fun row => row.level == WARN).length
  condition := sweepCondition rows

/-- How the body should carry itself, given a report. -/
def condition (report : Option Report) (now : F64) : String :=
  match report with
  | none => "mute"
  | some rep =>
      if FAULTS_STALE_S < now - rep.ts then "mute"
      else if 0 < rep.faults then "hurts"
      else if 0 < rep.warns then "niggle"
      else "well"

/-- The message that `publish` pushes; each row has a face, be it empty. -/
def Report.message (rep : Report) : Fault where
  rows := rep.rows.map fun row => ⟨row.level, row.code, row.text, some row.face⟩
  condition := some rep.condition
  ts := some rep.ts

/-- The rows that the cortex holds once the report was pushed to it. -/
def Report.crossed (prost : Prost) (now : F64) (cx : Cortex) (rep : Report) :
    List Cortex.FaultRow :=
  match encode "fault" (envelope (.fault rep.message)) with
  | .error _ => cx.st.faults
  | .ok parts =>
      match decode prost parts with
      | .error _ => cx.st.faults
      | .ok msg => (cx.merge now msg).st.faults

theorem crossed_eq (prost : Prost) (now : F64) (cx : Cortex) (rep : Report) :
    rep.crossed prost now cx =
      rep.rows.map fun row => ⟨row.level, row.code, row.text, some row.face⟩ := by
  have encoded : encode "fault" (envelope (.fault rep.message)) =
      .ok ⟨RustText.asBytes "fault", .encoded (envelope (.fault rep.message))⟩ :=
    rfl
  have decoded := decode_encode prost (by decide) encoded
  unfold Report.crossed
  rw [encoded]
  dsimp only
  rw [decoded]
  simp [Cortex.merge, Cortex.mergeFault, envelope, Report.message,
    Cortex.FaultRow.ofWire, Function.comp_def]

/-- The word of a report is the one its rows had when it was made. -/
theorem condition_new (rows : List Row) (boot : Option String) {ts now : F64}
    (fresh : now - ts ≤ FAULTS_STALE_S) :
    condition (some (Report.new ts boot rows)) now = sweepCondition rows := by
  unfold condition sweepCondition
  dsimp only [Report.new]
  rw [if_neg (not_lt.mpr fresh)]
  simp only [List.length_pos_iff, ne_eq, List.filter_eq_nil_iff, not_forall,
    not_not, List.any_eq_true, exists_prop]

/-- The cortex folds the rows that crossed the wire to the same word. -/
theorem conditionFrom_crossed (prost : Prost) (now : F64) (cx : Cortex)
    (rep : Report) :
    Cortex.conditionFrom (rep.crossed prost now cx) = sweepCondition rep.rows := by
  unfold Cortex.conditionFrom sweepCondition
  rw [crossed_eq, List.any_map, List.any_map]
  rfl

theorem busRow_level {bus expected : String} {reading : Bool × List String}
    {row : Row} (found : busRow bus expected reading = some row) :
    row.level = FAULT := by
  unfold busRow at found
  split at found
  · cases found
  · split_ifs at found <;> cases found <;> rfl

theorem unitRow_level {unit : String} {reading : SvcState × Bool} {row : Row}
    (found : unitRow unit reading = some row) :
    row.level = FAULT ∨ row.level = WARN := by
  unfold unitRow at found
  split at found
  · cases found
  · rw [← Option.some.inj found]
    exact .inl rfl
  · split at found
    · rw [← Option.some.inj found]
      exact .inr rfl
    · rw [← Option.some.inj found]
      exact .inl rfl

theorem railRow_level {display : F64 → String} {tempVal : Option F64}
    {throttled : Option UInt64} {row : Row}
    (found : railRow display tempVal throttled = some row) :
    row.level = FAULT := by
  unfold railRow at found
  split at found
  · cases found
  · dsimp only at found
    split at found
    · rw [← Option.some.inj found]
      rfl
    · split at found
      · rw [← Option.some.inj found]
        rfl
      · cases found

theorem sensorRow_level {label valKey : String} {now : F64}
    {reading : Option F64 × Option F64} {row : Row}
    (found : sensorRow label valKey now reading = some row) :
    row.level = WARN := by
  unfold sensorRow at found
  split at found
  · cases found
  · cases found
    rfl
  · dsimp only at found
    split_ifs at found
    cases found
    rfl

theorem diskRow_level {disk : Option (UInt64 × F64 × F64)} {row : Row}
    (found : diskRow disk = some row) : row.level = WARN := by
  unfold diskRow at found
  split at found
  · cases found
  · split_ifs at found
    cases found
    rfl

theorem apiRow_level {i : Inputs} {row : Row} (found : apiRow i = some row) :
    row.level = FAULT := by
  unfold apiRow at found
  split at found
  · rw [← Option.some.inj found]
    rfl
  · cases found

theorem i2cRow_level {i : Inputs} {row : Row} (found : i2cRow i = some row) :
    row.level = WARN := by
  unfold i2cRow at found
  split_ifs at found
  cases found
  rfl

/-- Which check a row comes from. -/
inductive Origin (display : F64 → String) (i : Inputs) (row : Row) : Prop
  | unit (unit : String) (listed : unit ∈ UNITS)
      (found : unitRow unit ((i.services.lookup unit).getD (.unknown, false)) =
        some row)
  | bus (owner : String × String) (listed : owner ∈ BUS_OWNERS)
      (found : busRow owner.1 owner.2
        ((i.bus.lookup owner.1).getD (false, [])) = some row)
  | rail (found : railRow display i.tempVal i.throttled = some row)
  | sensor (sensor : String × String × String) (listed : sensor ∈ SENSORS)
      (found : sensorRow sensor.1 sensor.2.1 i.now
        ((i.sensors.lookup sensor.2.1).getD (none, none)) = some row)
  | disk (found : diskRow i.disk = some row)
  | api (found : apiRow i = some row)
  | i2c (found : i2cRow i = some row)

theorem mem_checkRows {display : F64 → String} {i : Inputs} {row : Row} :
    row ∈ checkRows display i ↔ Origin display i row := by
  unfold checkRows unitRows busRows sensorRows
  simp only [List.mem_append, Option.mem_toList, List.mem_filterMap]
  constructor
  · rintro ((((((⟨unit, listed, found⟩ | ⟨owner, listed, found⟩) | found) |
      ⟨sensor, listed, found⟩) | found) | found) | found)
    · exact .unit unit listed found
    · exact .bus owner listed found
    · exact .rail found
    · exact .sensor sensor listed found
    · exact .disk found
    · exact .api found
    · exact .i2c found
  · intro origin
    cases origin with
    | unit unit listed found =>
        exact .inl (.inl (.inl (.inl (.inl (.inl ⟨unit, listed, found⟩)))))
    | bus owner listed found =>
        exact .inl (.inl (.inl (.inl (.inl (.inr ⟨owner, listed, found⟩)))))
    | rail found => exact .inl (.inl (.inl (.inl (.inr found))))
    | sensor sensor listed found =>
        exact .inl (.inl (.inl (.inr ⟨sensor, listed, found⟩)))
    | disk found => exact .inl (.inl (.inr found))
    | api found => exact .inl (.inr found)
    | i2c found => exact .inr found

theorem Origin.level {display : F64 → String} {i : Inputs} {row : Row}
    (origin : Origin display i row) : row.level = FAULT ∨ row.level = WARN := by
  cases origin with
  | unit _ _ found => exact unitRow_level found
  | bus _ _ found => exact .inl (busRow_level found)
  | rail found => exact .inl (railRow_level found)
  | sensor _ _ found => exact .inr (sensorRow_level found)
  | disk found => exact .inr (diskRow_level found)
  | api found => exact .inl (apiRow_level found)
  | i2c found => exact .inr (i2cRow_level found)

theorem order_ne_zero (level : String) : order level ≠ 0 ↔ order level = 1 := by
  unfold order
  split <;> decide

theorem order_of_level {level : String} (known : level = FAULT ∨ level = WARN) :
    (order level = 0 ↔ level = FAULT) ∧ (order level = 1 ↔ level = WARN) := by
  rcases known with rfl | rfl <;> decide

/-- The faults in the order of the checks, and then the warnings. -/
theorem evaluate_rows (display : F64 → String) (i : Inputs) :
    (evaluate display i).1 =
      (checkRows display i).filter (fun row => row.level = FAULT) ++
        (checkRows display i).filter fun row => row.level = WARN := by
  have known : ∀ row ∈ checkRows display i,
      (order row.level = 0 ↔ row.level = FAULT) ∧
        (order row.level = 1 ↔ row.level = WARN) := fun row member =>
    order_of_level (mem_checkRows.mp member).level
  have sorted : (evaluate display i).1.Pairwise fun first second =>
      order first.level ≤ order second.level := by
    have pairs := @List.pairwise_mergeSort Row
      (fun first second => decide (order first.level ≤ order second.level))
      (fun first second third one other => by
        simp only [decide_eq_true_eq] at one other ⊢
        omega)
      (fun first second => by simpa using Nat.le_total _ _)
      (checkRows display i)
    exact pairs.imp of_decide_eq_true
  have ofRank (level : Nat) :
      (evaluate display i).1.filter (fun row => order row.level = level) =
        (checkRows display i).filter fun row => order row.level = level :=
    @filter_mergeSort Row (fun row => order row.level) _ level
  calc (evaluate display i).1
      = (evaluate display i).1.filter (fun row => order row.level = 0) ++
          (evaluate display i).1.filter fun row => order row.level ≠ 0 :=
        eq_filter_append_of_sorted sorted
    _ = (evaluate display i).1.filter (fun row => order row.level = 0) ++
          (evaluate display i).1.filter fun row => order row.level = 1 := by
        simp only [order_ne_zero]
    _ = (checkRows display i).filter (fun row => order row.level = 0) ++
          (checkRows display i).filter fun row => order row.level = 1 := by
        rw [ofRank, ofRank]
    _ = _ := by
        congr 1
        · exact List.filter_congr fun row member =>
            decide_eq_decide.mpr (known row member).1
        · exact List.filter_congr fun row member =>
            decide_eq_decide.mpr (known row member).2

/-- Every probe found its part of the body well, or found nothing to blame. -/
structure Healthy (i : Inputs) : Prop where
  units : ∀ unit ∈ UNITS, ∃ unitFile,
    i.services.lookup unit = some (.active, unitFile)
  buses : ∀ owner ∈ BUS_OWNERS, ∀ holders,
    i.bus.lookup owner.1 = some (true, holders) →
      ∃ holder ∈ holders, Names owner.2 holder
  rails : ∀ bits, i.throttled = some bits → bits &&& 0xF = 0
  sensors : ∀ sensor ∈ SENSORS, ∀ value ts,
    i.sensors.lookup sensor.2.1 = some (some value, ts) →
      ∃ time, ts = some time ∧ i.now - time ≤ 600
  disk : ∀ used free total, i.disk = some (used, free, total) → used < 85
  door : i.cortexState = "active" ∧ i.apiListening
  i2c : i.i2cDoor ∨ ¬ i.deviceTree

theorem unitRow_eq_none {unit : String} {reading : SvcState × Bool} :
    unitRow unit reading = none ↔ reading.1 = .active := by
  rcases reading with ⟨state, unitFile⟩
  cases state <;> simp [unitRow]
  split <;> simp

theorem busRow_eq_none {bus expected : String}
    {reading : Bool × List String} :
    busRow bus expected reading = none ↔
      (reading.1 → ∃ holder ∈ reading.2, Names expected holder) := by
  rcases reading with ⟨node, holders⟩
  cases node with
  | false => simp [busRow]
  | true =>
      unfold busRow
      dsimp only
      split_ifs with named held <;> simpa using named

/-- The low four bits are the sagging input and the three answers to it. -/
theorem and_fifteen_eq_zero (bits : UInt64) :
    bits &&& 0xF = 0 ↔ bits &&& 0x1 = 0 ∧ bits &&& 0xE = 0 := by
  constructor
  · intro clear
    have narrowed (mask : UInt64) (part : 0xF &&& mask = mask) :
        bits &&& mask = 0 := by
      rw [← part, ← UInt64.and_assoc, clear, UInt64.zero_and]
    exact ⟨narrowed 0x1 rfl, narrowed 0xE rfl⟩
  · rintro ⟨low, high⟩
    refine UInt64.toNat_inj.mp ?_
    calc (bits &&& 0xF).toNat
        = bits.toNat &&& (0x1 ||| 0xE) := UInt64.toNat_and bits 0xF
      _ = (bits &&& 0x1).toNat ||| (bits &&& 0xE).toNat :=
          Nat.and_or_distrib_left ..
      _ = 0 := by
          rw [low, high]
          rfl

theorem railRow_eq_none {display : F64 → String} {tempVal : Option F64}
    {throttled : Option UInt64} :
    railRow display tempVal throttled = none ↔
      ∀ bits, throttled = some bits → bits &&& 0xF = 0 := by
  cases throttled with
  | none => simp [railRow]
  | some bits =>
      simp only [Option.some.injEq, forall_eq', and_fifteen_eq_zero]
      unfold railRow
      dsimp only
      split_ifs with low high <;> simp_all

theorem sensorRow_eq_none {label valKey : String} {now : F64}
    {reading : Option F64 × Option F64} :
    sensorRow label valKey now reading = none ↔
      (reading.1 ≠ none → ∃ time, reading.2 = some time ∧ now - time ≤ 600) := by
  rcases reading with ⟨_ | value, _ | time⟩
  · simp [sensorRow]
  · simp [sensorRow]
  · simp [sensorRow]
  · simp [sensorRow, SENSOR_STALE_S]

theorem evaluate_eq_nil (display : F64 → String) (i : Inputs) :
    (evaluate display i).1 = [] ↔ checkRows display i = [] := by
  simp only [List.eq_nil_iff_forall_not_mem, mem_evaluate]

theorem unitRows_eq_nil (services : Services) :
    unitRows services = [] ↔
      ∀ unit ∈ UNITS, ∃ unitFile,
        services.lookup unit = some (.active, unitFile) := by
  unfold unitRows
  simp only [List.filterMap_eq_nil_iff, unitRow_eq_none]
  refine forall₂_congr fun unit _ => ?_
  rcases services.lookup unit with _ | ⟨state, unitFile⟩
  · simp
  · simp

theorem busRows_eq_nil (bus : BusStatus) :
    busRows bus = [] ↔
      ∀ owner ∈ BUS_OWNERS, ∀ holders,
        bus.lookup owner.1 = some (true, holders) →
          ∃ holder ∈ holders, Names owner.2 holder := by
  unfold busRows
  simp only [List.filterMap_eq_nil_iff, busRow_eq_none]
  refine forall₂_congr fun owner _ => ?_
  rcases bus.lookup owner.1 with _ | ⟨_ | _, holders⟩
  · simp
  · simp
  · simp

theorem sensorRows_eq_nil (readings : SensorReadings) (now : F64) :
    sensorRows readings now = [] ↔
      ∀ sensor ∈ SENSORS, ∀ value ts,
        readings.lookup sensor.2.1 = some (some value, ts) →
          ∃ time, ts = some time ∧ now - time ≤ 600 := by
  unfold sensorRows
  simp only [List.filterMap_eq_nil_iff, sensorRow_eq_none]
  refine forall₂_congr fun sensor _ => ?_
  rcases readings.lookup sensor.2.1 with _ | ⟨_ | value, ts⟩
  · simp
  · simp
  · simp

theorem diskRow_eq_none {disk : Option (UInt64 × F64 × F64)} :
    diskRow disk = none ↔
      ∀ used free total, disk = some (used, free, total) → used < 85 := by
  rcases disk with _ | ⟨used, free, total⟩
  · simp [diskRow]
  · unfold diskRow DISK_WARN_PCT
    dsimp only
    split_ifs with full
    · simpa using full
    · simpa using full

theorem apiRow_eq_none {i : Inputs} :
    apiRow i = none ↔ i.cortexState = "active" ∧ i.apiListening := by
  unfold apiRow
  split_ifs with dead
  · simp only [false_iff, not_and_or]
    exact dead
  · simpa only [true_iff, not_or, not_not] using dead

theorem i2cRow_eq_none {i : Inputs} :
    i2cRow i = none ↔ i.i2cDoor ∨ ¬ i.deviceTree := by
  unfold i2cRow
  split_ifs with blind
  · simp [blind]
  · simp only [true_iff]
    tauto

/-- A sweep has nothing to say exactly when the body is well. -/
theorem evaluate_eq_nil_iff (display : F64 → String) (i : Inputs) :
    (evaluate display i).1 = [] ↔ Healthy i := by
  rw [evaluate_eq_nil]
  unfold checkRows
  simp only [List.append_eq_nil_iff, Option.toList_eq_nil_iff, unitRows_eq_nil,
    busRows_eq_nil, railRow_eq_none, sensorRows_eq_nil, diskRow_eq_none,
    apiRow_eq_none, i2cRow_eq_none]
  constructor
  · rintro ⟨⟨⟨⟨⟨⟨units, buses⟩, rails⟩, sensors⟩, disk⟩, door⟩, i2c⟩
    exact ⟨units, buses, rails, sensors, disk, door, i2c⟩
  · rintro ⟨units, buses, rails, sensors, disk, door, i2c⟩
    exact ⟨⟨⟨⟨⟨⟨units, buses⟩, rails⟩, sensors⟩, disk⟩, door⟩, i2c⟩

/-- What the three readers of a sweep make of it, and when it has no row. -/
theorem verdicts_agree (display : F64 → String) (i : Inputs) :
    (evaluate display i).1 =
        (checkRows display i).filter (fun row => row.level = FAULT) ++
          (checkRows display i).filter (fun row => row.level = WARN) ∧
      (∀ row ∈ (evaluate display i).1, row.level = FAULT ∨ row.level = WARN) ∧
      (∀ row, row ∈ (evaluate display i).1 ↔ row ∈ checkRows display i) ∧
      (∀ ts boot now, now - ts ≤ FAULTS_STALE_S →
        condition (some (Report.new ts boot (evaluate display i).1)) now =
          (evaluate display i).2) ∧
      (∀ ts boot (prost : Prost) now cx,
        Cortex.conditionFrom ((Report.new ts boot
          (evaluate display i).1).crossed prost now cx) =
            (evaluate display i).2) ∧
      ((evaluate display i).1 = [] ↔ Healthy i) := by
  refine ⟨evaluate_rows display i, ?_, fun row => mem_evaluate, ?_, ?_,
    evaluate_eq_nil_iff display i⟩
  · exact fun row member => (mem_checkRows.mp (mem_evaluate.mp member)).level
  · exact fun ts boot now fresh => condition_new _ boot fresh
  · exact fun ts boot prost now cx => conditionFrom_crossed prost now cx _

namespace Vectors

/-- Three hundred seconds after a wrong hand was found on the face's bus. -/
theorem verdicts_agree_stranger :
    condition (some (Report.new 0 none
      (evaluate (fun _ => "") (heldBy [stranger])).1)) 300 =
        (evaluate (fun _ => "") (heldBy [stranger])).2 :=
  (verdicts_agree (fun _ => "") (heldBy [stranger])).2.2.2.1 0 none 300
    (by norm_num [FAULTS_STALE_S])

end Vectors

end FaultDaemon
