import Loa.CortexEffects
import Loa.FaultSweep
import Loa.SenseDaemons
import Loa.TransitionRun
import Loa.WireExactness
import Loa.WireInbound

/-!
# From the sensors to the sweep

The weather daemon, the cortex and the fault daemon as one chain, with the queue
into the cortex, the feed out of it and one correct clock.  A reading is pushed
if it is news; the cortex merges what it takes and tells the feed with its own
time; the fault daemon keeps what it heard last.
-/

namespace SensorChain

open Wire

/-- The two sensors in the weather. -/
inductive Sensor
  | dht
  | baro

namespace Sensor

/-- The value of the sensor in a message. -/
def value : Sensor → Weather → Option F64
  | .dht => Weather.tempC
  | .baro => Weather.pressureHpa

/-- The value of the sensor in the cortex. -/
def held : Sensor → Cortex.State → Option F64
  | .dht => Cortex.State.tempC
  | .baro => Cortex.State.pressureHpa

/-- The value of the sensor in the weather daemon. -/
def measured : Sensor → Sense.Air → Option F64
  | .dht => Sense.Air.tempC
  | .baro => Sense.Air.pressureHpa

/-- The code of the row for an old reading. -/
def staleCode : Sensor → String
  | .dht => "TEMP STALE"
  | .baro => "BARO STALE"

end Sensor

/-- A step of one of the daemons, or time going by. -/
inductive Happening
  | wait (seconds : F64)
  | dht (tempC humPct : F64)
  | baro (baroTempC pressureHpa : F64)
  | hearAsk
  | take
  | cortex (action : Cortex.Action)
  | hear

end SensorChain

/-- The chain.  `inbox` is what the weather daemon has pushed and the cortex has
not yet taken; `asked` and `heard` are how much of the feed the weather daemon
and the fault daemon have heard.  `came` is a history: the messages that the
cortex took, each with the time at which it did.  So are the times of the last
frame of the DHT that decoded and of the last reading of the barometer. -/
structure SensorChain where
  now : F64
  air : Sense.Air
  inbox : List Wire.Weather
  came : List (Wire.Weather × F64)
  sys : Cortex.Sys
  asked : Nat
  heard : Nat
  listener : FaultDaemon.Listener
  lastDht : Option F64
  lastBaro : Option F64

namespace SensorChain

open FileDirectory Wire RustText TransitionRun

/-- The process with a correct clock. -/
def clocked (env : Cortex.Env) (now : F64) : Cortex.Env :=
  { env with clock := fun _ => now }

/-- A weather message as its daemon pushes it. -/
def weatherParts (w : Weather) : Parts :=
  ⟨asBytes "weather", .encoded (envelope (.weather w))⟩

/-- The action is a weather message coming in. -/
def bringsAir (env : Cortex.Env) : Cortex.Action → Bool
  | .inbound parts =>
      match decode env.prost parts with
      | .ok ⟨_, ⟨_, some (.weather _)⟩⟩ => true
      | _ => false
  | _ => false

/-- One step of one of the three daemons, or time going by.  Weather comes to
the cortex from its daemon alone. -/
def step (env : Cortex.Env) (chain : SensorChain) :
    Happening → Option SensorChain
  | .wait seconds =>
      if 0 ≤ seconds then some { chain with now := chain.now + seconds }
      else none
  | .dht tempC humPct =>
      let (news, air) := chain.air.dht tempC humPct chain.now
      some
        { chain with
          air := air
          inbox := chain.inbox ++ news
          lastDht := some chain.now }
  | .baro baroTempC pressureHpa =>
      let (news, air) := chain.air.baro baroTempC pressureHpa chain.now
      some
        { chain with
          air := air
          inbox := chain.inbox ++ news
          lastBaro := some chain.now }
  | .hearAsk =>
      match chain.sys.feed[chain.asked]? with
      | none => none
      | some parts =>
          some
            { chain with
              asked := chain.asked + 1
              -- The socket lets asks through and nothing else.
              inbox :=
                if subscribed ["init"] parts then
                  chain.inbox ++ [chain.air.full]
                else chain.inbox }
  | .take =>
      match chain.inbox with
      | [] => none
      | w :: rest =>
          (chain.sys.step (clocked env chain.now)
            (.inbound (weatherParts w))).map fun sys =>
              { chain with
                sys := sys
                inbox := rest
                came := chain.came ++ [(w, chain.now)] }
  | .cortex action =>
      if bringsAir env action then none
      else
        (chain.sys.step (clocked env chain.now) action).map fun sys =>
          { chain with sys := sys }
  | .hear =>
      match chain.sys.feed[chain.heard]? with
      | none => none
      | some parts =>
          some
            { chain with
              heard := chain.heard + 1
              listener := chain.listener.hear env.prost parts }

/-- The three daemons just started; the weather daemon pushes a full report
first. -/
def start (env : Cortex.Env) (dsn : Bool) (host : Host)
    (server : Cortex.Server) (now : F64) : SensorChain where
  now := now
  air := {}
  inbox := [({} : Sense.Air).full]
  came := []
  sys := Cortex.boot (clocked env now) dsn host server
  asked := 0
  heard := 0
  listener := {}
  lastDht := none
  lastBaro := none

/-- The time of the last reading of a sensor. -/
def last (chain : SensorChain) : Sensor → Option F64
  | .dht => chain.lastDht
  | .baro => chain.lastBaro

theorem held_merge_weather (sensor : Sensor) (now : F64) (cx : Cortex)
    (topic : String) (w : Weather) :
    sensor.held (cx.merge now ⟨topic, envelope (.weather w)⟩).st =
      (sensor.value w).or (sensor.held cx.st) := by
  change sensor.held (cx.mergeWeather w).st = _
  unfold Cortex.mergeWeather
  cases sensor <;> cases pressure : w.pressureHpa <;>
    simp [Sensor.held, Sensor.value, Cortex.pushBaro, pressure]

theorem held_merge_other (sensor : Sensor) (now : F64) (cx : Cortex) {msg : Msg}
    (other : ∀ w, msg.env.body ≠ some (.weather w)) :
    sensor.held (cx.merge now msg).st = sensor.held cx.st := by
  unfold Cortex.merge
  cases carried : msg.env.body with
  | none => rfl
  | some body =>
      cases body with
      | weather w => exact absurd carried (other w)
      | _ => cases sensor <;> rfl

theorem held_stateVerb (sensor : Sensor) {cx : Cortex} {cmd : String}
    {args : Json.Value} {dispatched : Cortex.Dispatched}
    (verb : Cortex.stateVerb cx cmd args = some dispatched) :
    sensor.held dispatched.cx.st = sensor.held cx.st := by
  cases sensor <;> cases Cortex.verbed_of_stateVerb verb <;> rfl

theorem held_adoptSetting (sensor : Sensor) (st : Cortex.State)
    (row : String × Json.Value) :
    sensor.held (Cortex.adoptSetting st row) = sensor.held st := by
  unfold Cortex.adoptSetting
  cases sensor <;> repeat' split
  all_goals rfl

theorem held_boot (sensor : Sensor) (env : Cortex.Env) (dsn : Bool)
    (host : Host) (server : Cortex.Server) :
    sensor.held (Cortex.boot env dsn host server).cx.st = none := by
  obtain ⟨rows, started⟩ := Cortex.boot_cx env dsn host server
  rw [started, Cortex.adoptSettings_kept (held_adoptSetting sensor)]
  cases sensor <;> rfl

def airIn : Body → Option Weather
  | .weather w => some w
  | _ => none

/-- The weather messages of a feed, in order. -/
def weathersOn (prost : Prost) (feed : List Parts) : List Weather :=
  Cortex.saidUnder prost "weather" airIn feed

theorem hear_weather (prost : Prost) (listener : FaultDaemon.Listener)
    (parts : Parts) :
    (listener.hear prost parts).weather =
      (Cortex.under prost "weather" airIn parts).or listener.weather := by
  unfold FaultDaemon.Listener.hear Cortex.under
  cases decoded : decode prost parts with
  | error error =>
      dsimp only
      split
      · rfl
      · split <;> rfl
  | ok msg =>
      obtain ⟨-, named, -⟩ := decode_eq_ok_iff.mp decoded
      rw [named, fromUtf8Lossy_asBytes]
      dsimp only
      by_cases init : msg.topic = "init"
      · simp [init]
      · by_cases weather : msg.topic = "weather"
        · rw [if_neg init, if_pos weather, if_pos weather]
          cases msg.env.body with
          | none => rfl
          | some body => cases body <;> rfl
        · rw [if_neg init, if_neg weather, if_neg weather]
          rfl

theorem weathersOn_published_other {prost : Prost} {topic : String}
    (other : topic ≠ "weather") (body : Body) :
    weathersOn prost (Cortex.published topic body) = [] :=
  Cortex.saidUnder_published_other prost airIn other body

theorem weathersOn_rebuilt_other {prost : Prost} {cx : Cortex} {dbDown : Bool}
    {now : F64} {msg : Msg} (other : ∀ w, msg.env.body ≠ some (.weather w)) :
    weathersOn prost (Cortex.rebuilt cx dbDown now msg) = [] := by
  unfold Cortex.rebuilt
  cases carried : msg.env.body with
  | none => rfl
  | some body =>
      cases body with
      | weather w => exact absurd carried (other w)
      | pir | sonar | fault =>
          exact weathersOn_published_other (by decide) _
      | _ => rfl

/-- The message that a merge of weather is told with. -/
theorem weathersOn_rebuilt_weather (prost : Prost) (cx : Cortex) (dbDown : Bool)
    (now : F64) (topic : String) (w : Weather) :
    ∃ message,
      weathersOn prost
          (Cortex.rebuilt cx dbDown now ⟨topic, envelope (.weather w)⟩) =
        [message] ∧
      message.ts = some now ∧
      ∀ sensor : Sensor, sensor.value message = sensor.held cx.st := by
  have said : weathersOn prost
      (Cortex.published "weather" (cx.buildWeather now)) =
        (airIn (cx.buildWeather now)).toList :=
    Cortex.saidUnder_published prost airIn (by decide) rfl
  refine ⟨_, said, rfl, ?_⟩
  intro sensor
  cases sensor <;> rfl

theorem weathersOn_republished (prost : Prost) (env : Cortex.Env)
    (sys : Cortex.Sys) :
    weathersOn prost (Cortex.republished env sys) = [] :=
  Cortex.saidUnder_republished prost airIn "weather" env sys

theorem weathersOn_append (prost : Prost) (feed said : List Parts) :
    weathersOn prost (feed ++ said) =
      weathersOn prost feed ++ weathersOn prost said :=
  Cortex.saidUnder_append ..

/-- A weather message that is taken is merged and told at once. -/
theorem sys_take {env : Cortex.Env} {now : F64} {sys after : Cortex.Sys}
    {w : Weather}
    (stepped : sys.step (clocked env now) (.inbound (weatherParts w)) =
      some after) :
    (∀ sensor : Sensor, sensor.held after.cx.st =
        (sensor.value w).or (sensor.held sys.cx.st)) ∧
      ∃ message,
        weathersOn env.prost after.feed =
          weathersOn env.prost sys.feed ++ [message] ∧
        message.ts = some now ∧
        ∀ sensor : Sensor, sensor.value message = sensor.held after.cx.st := by
  have own : decode env.prost (weatherParts w) =
      .ok ⟨"weather", envelope (.weather w)⟩ :=
    decode_encode env.prost (by decide) rfl
  cases Cortex.effect_of_step stepped with
  | relay main frame =>
      have unframed : Cortex.isFrame (asBytes "weather") = false := by decide
      exact absurd (unframed.symm.trans frame) (by decide)
  | dropped main refused => cases own.symm.trans refused
  | merged ticks main decoded =>
      cases own.symm.trans decoded
      refine
        ⟨fun sensor => held_merge_weather sensor now sys.cx "weather" w, ?_⟩
      obtain ⟨message, told, stamp, values⟩ :=
        weathersOn_rebuilt_weather env.prost
          (sys.cx.merge now ⟨"weather", envelope (.weather w)⟩) sys.dbDown now
          "weather" w
      refine ⟨message, ?_, stamp, values⟩
      rw [weathersOn_append]
      exact congrArg _ told

/-- Whatever else the cortex does, it leaves the sensors alone and says nothing
of the air. -/
theorem sys_other {env : Cortex.Env} {now : F64} {sys after : Cortex.Sys}
    {action : Cortex.Action} (quiet : bringsAir env action = false)
    (stepped : sys.step (clocked env now) action = some after) :
    (∀ sensor : Sensor, sensor.held after.cx.st = sensor.held sys.cx.st) ∧
      weathersOn env.prost after.feed = weathersOn env.prost sys.feed := by
  have unsaid {said : List Parts} (silent : weathersOn env.prost said = []) :
      weathersOn env.prost (sys.feed ++ said) =
        weathersOn env.prost sys.feed := by
    rw [weathersOn_append, silent, List.append_nil]
  cases Cortex.effect_of_step stepped with
  | asked main =>
      exact ⟨fun _ => rfl, unsaid (weathersOn_published_other (by decide) _)⟩
  | opened main | republish main news =>
      exact ⟨fun _ => rfl, unsaid (weathersOn_republished _ _ _)⟩
  | relay main frame =>
      refine ⟨fun _ => rfl, unsaid ?_⟩
      exact Cortex.saidUnder_relayed _ _ (by decide) _
  | @merged parts msg ticks main decoded =>
      have other (w : Weather) : msg.env.body ≠ some (.weather w) := by
        obtain ⟨topic, version, body⟩ := msg
        rintro rfl
        have own : decode env.prost parts = .ok ⟨topic, version, _⟩ := decoded
        simp [bringsAir, own] at quiet
      exact ⟨fun sensor => held_merge_other sensor _ _ other,
        unsaid (weathersOn_rebuilt_other other)⟩
  | verbed command verb =>
      exact ⟨fun sensor => held_stateVerb sensor verb, rfl⟩
  | logged main news =>
      exact ⟨fun _ => rfl, unsaid (weathersOn_published_other (by decide) _)⟩
  | powered main news =>
      exact ⟨fun _ => rfl, unsaid (weathersOn_published_other (by decide) _)⟩
  | flushed flushes => cases flushes <;> exact ⟨fun _ => rfl, rfl⟩
  | _ => exact ⟨fun _ => rfl, rfl⟩

/-- What a step of the weather daemon pushes. -/
def pushes (chain : SensorChain) : Happening → List Weather
  | .dht tempC humPct => (chain.air.dht tempC humPct chain.now).1
  | .baro baroTempC pressureHpa =>
      (chain.air.baro baroTempC pressureHpa chain.now).1
  | .hearAsk =>
      if chain.sys.feed[chain.asked]?.any (subscribed ["init"]) then
        [chain.air.full]
      else []
  | _ => []

/-- A step adds to the queue what it pushes, and takes from it what it takes. -/
theorem queue_of_step {env : Cortex.Env} {chain after : SensorChain}
    {happening : Happening} (stepped : chain.step env happening = some after) :
    after.came.map Prod.fst ++ after.inbox =
      chain.came.map Prod.fst ++ chain.inbox ++ pushes chain happening := by
  cases happening with
  | wait seconds =>
      simp only [step] at stepped
      split at stepped <;> cases stepped
      simp [pushes]
  | dht tempC humPct =>
      cases stepped
      exact (List.append_assoc ..).symm
  | baro baroTempC pressureHpa =>
      cases stepped
      exact (List.append_assoc ..).symm
  | hearAsk =>
      simp only [step] at stepped
      split at stepped
      · cases stepped
      · rename_i parts next
        cases stepped
        by_cases ask : subscribed ["init"] parts = true <;>
          simp [pushes, next, ask]
  | take =>
      simp only [step] at stepped
      split at stepped
      · cases stepped
      · rename_i w rest queued
        obtain ⟨sys, -, rfl⟩ := Option.map_eq_some_iff.mp stepped
        simp [pushes, queued]
  | cortex action =>
      simp only [step] at stepped
      split at stepped
      · cases stepped
      · obtain ⟨sys, -, rfl⟩ := Option.map_eq_some_iff.mp stepped
        simp [pushes]
  | hear =>
      simp only [step] at stepped
      split at stepped <;> cases stepped
      simp [pushes]

/-- What the cortex took and what still waits are, in order, the full report at
the start and what the weather daemon let through its gate. -/
theorem queue_of_run {env : Cortex.Env} {dsn : Bool} {host : Host}
    {server : Cortex.Server} {now : F64}
    {trace : List (SensorChain × Happening)} {chain : SensorChain}
    (run : Run (step env) (start env dsn host server now) trace chain) :
    chain.came.map Prod.fst ++ chain.inbox =
      ({} : Sense.Air).full ::
        trace.flatMap fun entry => pushes entry.1 entry.2 := by
  induction run with
  | stay => rfl
  | move run stepped induction =>
      rw [queue_of_step stepped, induction, List.flatMap_append]
      simp

end SensorChain
