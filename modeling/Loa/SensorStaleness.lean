import Loa.SensorChain

/-!
# The staleness of a sensor

A sweep ages what the fault daemon heard last by the time that the cortex put on
it.  The file follows the messages through the chain, says what a sweep makes of
them, and settles when the rows of a sweep agree with the ages of the two
sensors.
-/

namespace SensorChain

open FileDirectory Wire RustText TransitionRun

/-- One of the messages has the sensor in it. -/
def CarriedBy (sensor : Sensor) (came : List (Weather × F64)) : Prop :=
  ∃ entry ∈ came, (sensor.value entry.1).isSome

/-- Each message told has the time at which the cortex took the message behind
it, and the sensors in it are those of all messages so far. -/
inductive Told : List (Weather × F64) → List Weather → Prop
  | nothing : Told [] []
  | more {came : List (Weather × F64)} {said : List Weather} {w : Weather}
      {t : F64} {message : Weather} (earlier : Told came said)
      (stamp : message.ts = some t)
      (values : ∀ sensor : Sensor, (sensor.value message).isSome ↔
        CarriedBy sensor (came ++ [(w, t)])) :
      Told (came ++ [(w, t)]) (said ++ [message])

theorem Told.length_eq {came : List (Weather × F64)} {said : List Weather}
    (told : Told came said) : came.length = said.length := by
  induction told with
  | nothing => rfl
  | more earlier stamp values induction => simp [induction]

theorem Told.take {came : List (Weather × F64)} {said : List Weather}
    (told : Told came said) (count : Nat) :
    Told (came.take count) (said.take count) := by
  induction told with
  | nothing => simpa using Told.nothing
  | @more came said w t message earlier stamp values induction =>
      have same := earlier.length_eq
      by_cases within : count ≤ came.length
      · rw [List.take_append_of_le_length within,
          List.take_append_of_le_length (same ▸ within)]
        exact induction
      · rw [List.take_of_length_le (by simp; omega),
          List.take_of_length_le (by simp; omega)]
        exact .more earlier stamp values

/-- The newest message told answers the newest message taken. -/
theorem Told.last {came : List (Weather × F64)} {said : List Weather}
    (told : Told came said) {message : Weather}
    (newest : said.getLast? = some message) :
    ∃ entry, came.getLast? = some entry ∧ message.ts = some entry.2 ∧
      ∀ sensor : Sensor,
        (sensor.value message).isSome ↔ CarriedBy sensor came := by
  cases told with
  | nothing => cases newest
  | @more came said w t message' earlier stamp values =>
      obtain rfl : message' = message := by simpa using newest
      exact ⟨(w, t), by simp, stamp, values⟩

/-- What has come through to the fault daemon: the messages taken by the cortex
whose telling it has heard. -/
def through (prost : Prost) (chain : SensorChain) : List (Weather × F64) :=
  chain.came.take (weathersOn prost (chain.sys.feed.take chain.heard)).length

/-- What has come through begins the list of what was pushed. -/
theorem through_prefix {env : Cortex.Env} {dsn : Bool} {host : Host}
    {server : Cortex.Server} {now : F64}
    {trace : List (SensorChain × Happening)} {chain : SensorChain}
    (run : Run (step env) (start env dsn host server now) trace chain) :
    (through env.prost chain).map Prod.fst <+:
      ({} : Sense.Air).full ::
        trace.flatMap fun entry => pushes entry.1 entry.2 := by
  rw [← queue_of_run run, through, List.map_take]
  exact (List.take_prefix ..).trans (List.prefix_append ..)

/-- What every run of the chain keeps. -/
structure Sound (prost : Prost) (chain : SensorChain) : Prop where
  within : chain.heard ≤ chain.sys.feed.length
  told : Told chain.came (weathersOn prost chain.sys.feed)
  held : ∀ sensor : Sensor,
    (sensor.held chain.sys.cx.st).isSome ↔ CarriedBy sensor chain.came
  listener : chain.listener.weather =
    (weathersOn prost (chain.sys.feed.take chain.heard)).getLast?
  unread : ∀ sensor, chain.last sensor = none →
    sensor.measured chain.air = none ∧
      (∀ w ∈ chain.inbox, sensor.value w = none) ∧
      ¬ CarriedBy sensor chain.came

theorem carriedBy_concat {sensor : Sensor} {came : List (Weather × F64)}
    {w : Weather} {t : F64} :
    CarriedBy sensor (came ++ [(w, t)]) ↔
      CarriedBy sensor came ∨ (sensor.value w).isSome := by
  simp [CarriedBy, or_and_right, exists_or]

/-- Growing the feed does not change what was heard of it. -/
theorem take_heard {chain : SensorChain} {prost : Prost}
    (sound : Sound prost chain) {feed : List Parts}
    (grows : chain.sys.feed <+: feed) :
    feed.take chain.heard = chain.sys.feed.take chain.heard := by
  obtain ⟨more, rfl⟩ := grows
  exact List.take_append_of_le_length sound.within

theorem sound_take {env : Cortex.Env} {chain : SensorChain} {w : Weather}
    {rest : List Weather} {after : Cortex.Sys} (sound : Sound env.prost chain)
    (queued : chain.inbox = w :: rest)
    (stepped : chain.sys.step (clocked env chain.now)
      (.inbound (weatherParts w)) = some after) :
    Sound env.prost
      { chain with
        sys := after
        inbox := rest
        came := chain.came ++ [(w, chain.now)] } := by
  obtain ⟨held, message, said, stamp, values⟩ := sys_take stepped
  have grows := Cortex.feed_grows (Cortex.effect_of_step stepped)
  have heldNow (sensor : Sensor) : (sensor.held after.cx.st).isSome ↔
      CarriedBy sensor (chain.came ++ [(w, chain.now)]) := by
    rw [held, carriedBy_concat, ← sound.held sensor, Option.isSome_or,
      Bool.or_eq_true, or_comm]
  refine
    { within := sound.within.trans grows.length_le
      told := ?_
      held := heldNow
      listener := ?_
      unread := ?_ }
  · rw [said]
    refine .more sound.told stamp fun sensor => ?_
    rw [values]
    exact heldNow sensor
  · dsimp only
    rw [take_heard sound grows]
    exact sound.listener
  · intro sensor unread
    obtain ⟨measured, inbox, came⟩ := sound.unread sensor unread
    rw [queued] at inbox
    refine ⟨measured, fun w' member => inbox w' (.tail w member), ?_⟩
    rw [carriedBy_concat, inbox w (.head rest)]
    simpa using came

theorem sound_other {env : Cortex.Env} {chain : SensorChain}
    {action : Cortex.Action} {after : Cortex.Sys}
    (sound : Sound env.prost chain) (quiet : bringsAir env action = false)
    (stepped : chain.sys.step (clocked env chain.now) action = some after) :
    Sound env.prost { chain with sys := after } := by
  obtain ⟨held, said⟩ := sys_other quiet stepped
  have grows := Cortex.feed_grows (Cortex.effect_of_step stepped)
  refine
    { within := sound.within.trans grows.length_le
      told := said ▸ sound.told
      held := fun sensor => held sensor ▸ sound.held sensor
      listener := ?_
      unread := sound.unread }
  dsimp only
  rw [take_heard sound grows]
  exact sound.listener

theorem sound_hear {env : Cortex.Env} {chain : SensorChain} {parts : Parts}
    (sound : Sound env.prost chain)
    (next : chain.sys.feed[chain.heard]? = some parts) :
    Sound env.prost
      { chain with
        heard := chain.heard + 1
        listener := chain.listener.hear env.prost parts } := by
  obtain ⟨within, found⟩ := List.getElem?_eq_some_iff.mp next
  refine { sound with within := within, listener := ?_ }
  dsimp only
  rw [hear_weather, sound.listener, List.take_add_one, next, Option.toList,
    weathersOn_append, List.getLast?_append]
  congr 1
  cases heard : Cortex.under env.prost "weather" airIn parts <;>
    simp [weathersOn, Cortex.saidUnder, heard]

/-- Pushing says nothing of a sensor that was never read. -/
theorem sound_push {prost : Prost} {chain after : SensorChain}
    {news : List Weather} (sound : Sound prost chain)
    (sys : after.sys = chain.sys) (came : after.came = chain.came)
    (heard : after.heard = chain.heard)
    (listener : after.listener = chain.listener)
    (inbox : after.inbox = chain.inbox ++ news)
    (quiet : ∀ sensor, after.last sensor = none →
      chain.last sensor = none ∧ sensor.measured after.air = none ∧
        ∀ w ∈ news, sensor.value w = none) :
    Sound prost after := by
  refine
    { within := heard ▸ sys ▸ sound.within
      told := came ▸ sys ▸ sound.told
      held := fun sensor => came ▸ sys ▸ sound.held sensor
      listener := heard ▸ sys ▸ listener ▸ sound.listener
      unread := fun sensor unread => ?_ }
  obtain ⟨before, measured, silent⟩ := quiet sensor unread
  obtain ⟨-, queued, uncarried⟩ := sound.unread sensor before
  refine ⟨measured, fun w member => ?_, came ▸ uncarried⟩
  rw [inbox] at member
  rcases List.mem_append.mp member with waiting | new
  · exact queued w waiting
  · exact silent w new

theorem sound_dht {prost : Prost} {chain : SensorChain}
    (sound : Sound prost chain) (tempC humPct : F64) :
    Sound prost
      { chain with
        air := (chain.air.dht tempC humPct chain.now).2
        inbox := chain.inbox ++ (chain.air.dht tempC humPct chain.now).1
        lastDht := some chain.now } := by
  refine sound_push sound rfl rfl rfl rfl rfl fun sensor unread => ?_
  cases sensor with
  | dht => cases unread
  | baro =>
      obtain ⟨pressure, silent⟩ :=
        chain.air.dht_pressure tempC humPct chain.now
      exact ⟨unread, pressure.trans (sound.unread .baro unread).1, silent⟩

theorem sound_baro {prost : Prost} {chain : SensorChain}
    (sound : Sound prost chain) (baroTempC pressureHpa : F64) :
    Sound prost
      { chain with
        air := (chain.air.baro baroTempC pressureHpa chain.now).2
        inbox := chain.inbox ++
          (chain.air.baro baroTempC pressureHpa chain.now).1
        lastBaro := some chain.now } := by
  refine sound_push sound rfl rfl rfl rfl rfl fun sensor unread => ?_
  cases sensor with
  | baro => cases unread
  | dht =>
      obtain ⟨temp, silent⟩ :=
        chain.air.baro_temp baroTempC pressureHpa chain.now
      exact ⟨unread, temp.trans (sound.unread .dht unread).1, silent⟩

theorem sound_ask {prost : Prost} {chain : SensorChain}
    (sound : Sound prost chain) (asked : Nat) :
    Sound prost
      { chain with
        asked := asked
        inbox := chain.inbox ++ [chain.air.full] } := by
  refine sound_push sound rfl rfl rfl rfl rfl fun sensor unread => ?_
  have measured := (sound.unread sensor unread).1
  refine ⟨unread, measured, fun w answer => ?_⟩
  rw [List.mem_singleton.mp answer]
  cases sensor <;> exact measured

theorem sound_of_step {env : Cortex.Env} {chain after : SensorChain}
    {happening : Happening} (sound : Sound env.prost chain)
    (stepped : chain.step env happening = some after) :
    Sound env.prost after := by
  cases happening with
  | wait seconds =>
      simp only [step] at stepped
      split at stepped
      · cases stepped
        exact { sound with }
      · cases stepped
  | dht tempC humPct =>
      cases stepped
      exact sound_dht sound tempC humPct
  | baro baroTempC pressureHpa =>
      cases stepped
      exact sound_baro sound baroTempC pressureHpa
  | hearAsk =>
      simp only [step] at stepped
      split at stepped
      · cases stepped
      · cases stepped
        split
        · exact sound_ask sound _
        · exact { sound with }
  | take =>
      simp only [step] at stepped
      split at stepped
      · cases stepped
      · rename_i w rest queued
        obtain ⟨sys, taken, rfl⟩ := Option.map_eq_some_iff.mp stepped
        exact sound_take sound queued taken
  | cortex action =>
      simp only [step] at stepped
      split at stepped
      · cases stepped
      · rename_i quiet
        obtain ⟨sys, moved, rfl⟩ := Option.map_eq_some_iff.mp stepped
        exact sound_other sound (Bool.not_eq_true _ ▸ quiet) moved
  | hear =>
      simp only [step] at stepped
      split at stepped
      · cases stepped
      · rename_i parts next
        cases stepped
        exact sound_hear sound next

theorem sound_start (env : Cortex.Env) (dsn : Bool) (host : Host)
    (server : Cortex.Server) (now : F64) :
    Sound env.prost (start env dsn host server now) := by
  have silent := (Cortex.boot_fields (clocked env now) dsn host server).2.1
  refine
    { within := Nat.zero_le _
      told := ?_
      held := fun sensor => ?_
      listener := rfl
      unread := fun sensor _ => ?_ }
  · simp only [start]
    rw [silent]
    exact .nothing
  · simp only [start]
    rw [held_boot]
    simp [CarriedBy]
  · refine ⟨by cases sensor <;> rfl, fun w member => ?_, ?_⟩
    · rw [List.mem_singleton.mp member]
      cases sensor <;> rfl
    · simp [CarriedBy, start]

theorem sound_of_run {env : Cortex.Env} {dsn : Bool} {host : Host}
    {server : Cortex.Server} {now : F64}
    {trace : List (SensorChain × Happening)} {chain : SensorChain}
    (run : Run (step env) (start env dsn host server now) trace chain) :
    Sound env.prost chain :=
  run.kept (sound_start env dsn host server now) fun _ _ _ stepped sound =>
    sound_of_step sound stepped

open FaultDaemon (SENSOR_STALE_S)

/-- A sweep has the row for an old reading exactly when the last reading of the
sensor is older than is believed. -/
def Truthful (chain : SensorChain) (sensor : Sensor) : Prop :=
  (∃ row ∈ chain.listener.sweep chain.now, row.code = sensor.staleCode) ↔
    ∃ t, chain.last sensor = some t ∧ SENSOR_STALE_S < chain.now - t

/-- The weather that came through, from whichever sensor, is as old as the last
reading of this one: if the reading is old then the sensor came through, and
nothing has in the last ten minutes; if it is not then something has, unless the
sensor never came through. -/
structure Timely (prost : Prost) (chain : SensorChain) (sensor : Sensor) :
    Prop where
  unmasked : ∀ t, chain.last sensor = some t → SENSOR_STALE_S < chain.now - t →
    CarriedBy sensor (through prost chain) ∧
      ∀ entry ∈ (through prost chain).getLast?,
        SENSOR_STALE_S < chain.now - entry.2
  fed : ∀ t, chain.last sensor = some t → chain.now - t ≤ SENSOR_STALE_S →
    CarriedBy sensor (through prost chain) →
      ∀ entry ∈ (through prost chain).getLast?,
        chain.now - entry.2 ≤ SENSOR_STALE_S

theorem told_through {prost : Prost} {chain : SensorChain}
    (sound : Sound prost chain) :
    Told (through prost chain)
      (weathersOn prost (chain.sys.feed.take chain.heard)) := by
  have split := weathersOn_append prost (chain.sys.feed.take chain.heard)
    (chain.sys.feed.drop chain.heard)
  rw [List.take_append_drop] at split
  have told := sound.told.take
    (weathersOn prost (chain.sys.feed.take chain.heard)).length
  rwa [split, List.take_left] at told

/-- What the sweep says of a sensor is the time of whatever came through
last. -/
theorem stale_row_iff {prost : Prost} {chain : SensorChain}
    (sound : Sound prost chain) (sensor : Sensor) :
    (∃ row ∈ chain.listener.sweep chain.now, row.code = sensor.staleCode) ↔
      CarriedBy sensor (through prost chain) ∧
        ∀ entry ∈ (through prost chain).getLast?,
          SENSOR_STALE_S < chain.now - entry.2 := by
  have told := told_through sound
  have row : (∃ row ∈ chain.listener.sweep chain.now,
        row.code = sensor.staleCode) ↔
      FaultDaemon.Outdated sensor.value chain.listener chain.now := by
    cases sensor with
    | dht => exact (FaultDaemon.stale_iff chain.listener chain.now).1
    | baro => exact (FaultDaemon.stale_iff chain.listener chain.now).2
  rw [row]
  unfold FaultDaemon.Outdated
  rw [sound.listener]
  cases newest : (weathersOn prost
      (chain.sys.feed.take chain.heard)).getLast? with
  | none =>
      have silent := List.getLast?_eq_none_iff.mp newest
      have nothing : through prost chain = [] := by
        rw [← List.length_eq_zero_iff, told.length_eq, silent]
        rfl
      simp [nothing, CarriedBy]
  | some message =>
      obtain ⟨entry, last, stamp, values⟩ := told.last newest
      rw [last]
      constructor
      · rintro ⟨_, ts, same, carried, isStamp, old⟩
        cases same
        obtain rfl : entry.2 = ts := by simpa [stamp] using isStamp
        refine ⟨(values sensor).mp carried, fun _ isLast => ?_⟩
        cases isLast
        exact old
      · rintro ⟨carried, old⟩
        exact ⟨message, entry.2, rfl, (values sensor).mpr carried, stamp,
          old entry rfl⟩

theorem last_of_carriedBy {sensor : Sensor} {came : List (Weather × F64)}
    (carried : CarriedBy sensor came) :
    ∃ entry, came.getLast? = some entry := by
  obtain ⟨entry, member, -⟩ := carried
  exact ⟨_, List.getLast?_eq_some_getLast (List.ne_nil_of_mem member)⟩

/-- A message that has the sensor in it is only there once the sensor was
read. -/
theorem not_carriedBy_through {prost : Prost} {chain : SensorChain}
    (sound : Sound prost chain) {sensor : Sensor}
    (unread : chain.last sensor = none) :
    ¬ CarriedBy sensor (through prost chain) := by
  rintro ⟨entry, member, carried⟩
  exact (sound.unread sensor unread).2.2
    ⟨entry, List.mem_of_mem_take member, carried⟩

/-- Wherever a run leads, a sweep tells the truth about a sensor exactly when
the weather that came through is as old as the last reading of the sensor. -/
theorem truthful_iff_timely (env : Cortex.Env) (dsn : Bool) (host : Host)
    (server : Cortex.Server) (now : F64)
    {trace : List (SensorChain × Happening)} {chain : SensorChain}
    (run : Run (step env) (start env dsn host server now) trace chain)
    (sensor : Sensor) :
    Truthful chain sensor ↔ Timely env.prost chain sensor := by
  have sound := sound_of_run run
  unfold Truthful
  rw [stale_row_iff sound sensor]
  cases read : chain.last sensor with
  | none =>
      have uncarried := not_carriedBy_through sound read
      simp only [uncarried, false_and, reduceCtorEq, exists_false, iff_self,
        true_iff]
      exact
        ⟨fun t last => by simp [read] at last,
          fun t last => by simp [read] at last⟩
  | some t =>
      simp only [Option.some.injEq, exists_eq_left']
      by_cases old : SENSOR_STALE_S < chain.now - t
      · rw [iff_true_right old]
        constructor
        · intro stale
          refine ⟨fun t' last _ => stale, fun t' last fresh => ?_⟩
          obtain rfl : t = t' := by simpa [read] using last
          exact absurd old (not_lt.mpr fresh)
        · intro timely
          exact timely.unmasked t read old
      · rw [iff_false_right old]
        have fresh := not_lt.mp old
        constructor
        · intro notStale
          refine ⟨fun t' last old' => ?_, fun t' last _ carried => ?_⟩
          · obtain rfl : t = t' := by simpa [read] using last
            exact absurd old' old
          · intro entry isLast
            by_contra stale
            refine notStale ⟨carried, fun entry' isLast' => ?_⟩
            cases isLast.symm.trans isLast'
            exact not_le.mp stale
        · rintro timely ⟨carried, stale⟩
          obtain ⟨entry, isLast⟩ := last_of_carriedBy carried
          exact absurd (stale entry isLast)
            (not_lt.mpr (timely.fed t read fresh carried entry isLast))

namespace Trial

/-- The chain with the plainest of libraries, started at time zero. -/
def started : SensorChain :=
  start Cortex.Trial.env true Cortex.Trial.host (Cortex.Trial.server ∅) 0

/-- The cortex is up, and the full report at the start has been taken. -/
def awake : List Happening :=
  List.replicate 7 (.cortex .ask) ++ [.take]

/-- A reading of each sensor, and later one of the barometer alone. -/
def deadDht : List Happening :=
  awake ++
    [.dht 21 40, .take, .baro 20 1013, .take, .wait 700, .baro 20 1014,
      .take] ++
    List.replicate 14 .hear

/-- A room at rest: both sensors are read again later, and nothing moves. -/
def steadyRoom : List Happening :=
  awake ++
    [.dht 21 40, .take, .baro 20 1013, .take, .wait 700, .dht 21 40,
      .baro 20 1013] ++
    List.replicate 13 .hear

/-- The barometer's traffic hides that the DHT is dead, and a room at rest looks
as if both sensors were. -/
theorem dead_dht_masked :
    (∃ trace chain, Run (step Cortex.Trial.env) started trace chain ∧
      trace.map Prod.snd = deadDht ∧
      chain.now = 700 ∧ chain.lastDht = some 0 ∧
      chain.listener.sweep chain.now = [] ∧ ¬ Truthful chain .dht) ∧
    ∃ trace chain, Run (step Cortex.Trial.env) started trace chain ∧
      trace.map Prod.snd = steadyRoom ∧
      chain.now = 700 ∧ chain.lastDht = some 700 ∧ chain.lastBaro = some 700 ∧
      (chain.listener.sweep chain.now).map FaultDaemon.Row.code =
        ["TEMP STALE", "BARO STALE"] ∧
      ¬ Truthful chain .dht ∧ ¬ Truthful chain .baro := by
  constructor
  · have seen : (follow (step Cortex.Trial.env) started deadDht).map
        (fun found => (found.2.now, found.2.lastDht,
          found.2.listener.sweep found.2.now)) =
        some (700, some 0, []) := by decide +kernel
    obtain ⟨⟨trace, chain⟩, followed, same⟩ := Option.map_eq_some_iff.mp seen
    simp only [Prod.mk.injEq] at same
    obtain ⟨now, read, quiet⟩ := same
    refine ⟨trace, chain, run_of_follow followed, actions_of_follow followed,
      now, read, quiet, fun truthful => ?_⟩
    have stale := truthful.mpr ⟨0, read, by rw [now]; decide +kernel⟩
    simp [quiet] at stale
  · have seen : (follow (step Cortex.Trial.env) started steadyRoom).map
        (fun found => (found.2.now, found.2.lastDht, found.2.lastBaro,
          (found.2.listener.sweep found.2.now).map FaultDaemon.Row.code)) =
        some (700, some 700, some 700, ["TEMP STALE", "BARO STALE"]) := by
      decide +kernel
    obtain ⟨⟨trace, chain⟩, followed, same⟩ := Option.map_eq_some_iff.mp seen
    simp only [Prod.mk.injEq] at same
    obtain ⟨now, dht, baro, rows⟩ := same
    have fresh : ¬ SENSOR_STALE_S < (700 : F64) - 700 := by decide +kernel
    have said (code : String) (listed : code ∈ ["TEMP STALE", "BARO STALE"]) :
        ∃ row ∈ chain.listener.sweep chain.now, row.code = code := by
      rw [← rows] at listed
      exact List.mem_map.mp listed
    refine ⟨trace, chain, run_of_follow followed, actions_of_follow followed,
      now, dht, baro, rows, fun truthful => ?_, fun truthful => ?_⟩
    · obtain ⟨t, read, old⟩ := truthful.mp (said _ (by decide))
      cases dht.symm.trans read
      exact fresh (now ▸ old)
    · obtain ⟨t, read, old⟩ := truthful.mp (said _ (by decide))
      cases baro.symm.trans read
      exact fresh (now ▸ old)

/-- The DHT was read once, and nothing has come through since. -/
def silence : List Happening :=
  awake ++ [.dht 21 40, .take] ++ List.replicate 12 .hear ++ [.wait 700]

/-- Where nothing came through in between, the row is there and true. -/
theorem truthful_iff_timely_silence :
    ∃ trace chain, Run (step Cortex.Trial.env) started trace chain ∧
      trace.map Prod.snd = silence ∧ Truthful chain .dht := by
  have seen : (follow (step Cortex.Trial.env) started silence).map
      (fun found => (found.2.now, found.2.lastDht,
        (through Cortex.Trial.env.prost found.2).any
          (fun entry => entry.1.tempC.isSome),
        (through Cortex.Trial.env.prost found.2).getLast?.map Prod.snd)) =
      some (700, some 0, true, some 0) := by decide +kernel
  obtain ⟨⟨trace, chain⟩, followed, same⟩ := Option.map_eq_some_iff.mp seen
  simp only [Prod.mk.injEq] at same
  obtain ⟨now, read, carried, newest⟩ := same
  obtain ⟨entry, isLast, taken⟩ := Option.map_eq_some_iff.mp newest
  have old : SENSOR_STALE_S < (700 : F64) - 0 := by decide +kernel
  refine ⟨trace, chain, run_of_follow followed, actions_of_follow followed,
    (truthful_iff_timely Cortex.Trial.env true Cortex.Trial.host
      (Cortex.Trial.server ∅) 0 (run_of_follow followed) .dht).mpr ⟨?_, ?_⟩⟩
  · intro _ _ _
    refine ⟨List.any_eq_true.mp carried, fun last isLast' => ?_⟩
    cases isLast.symm.trans isLast'
    rw [now, taken]
    exact old
  · intro t isRead fresh
    cases read.symm.trans isRead
    rw [now] at fresh
    exact absurd old (not_lt.mpr fresh)

end Trial

end SensorChain
