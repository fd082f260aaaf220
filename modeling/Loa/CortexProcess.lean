import Loa.CortexBuild
import Loa.CortexDoor
import Loa.CortexStore

/-!
# The cortex as a process

The coordinator with its three threads: the main loop that owns the publisher,
the door, and the flusher in front of the store; and the once-a-second look at
the rails and the seal.  Each action is one step of one of them, or the store
going out of reach or coming back; what the database accepts is the server's.  Steps under the lock on the state are one
action; the flusher's statements are one action each.
-/

namespace Cortex

open FileDirectory Json Wire RustText

/-- What the process runs on: its vault, the protobuf library and the clock, one
reading after another. -/
structure Env where
  vault : Vault
  prost : Prost
  clock : Nat → F64

/-- The main task: still asking for reports, or in its loop. -/
inductive MainPhase
  | asking (left : Nat) (init : Body)
  | running

/-- The flusher thread, between two of its statements. -/
inductive FlusherPhase
  | gone
  | waiting
  | taken (batch : List Write)
  | writing (rest : List Write) (snapshot : List (String × Value))
      (failed : Bool)
  | saving (rest : List (String × Value)) (failed : Bool)

/-- The whole process.  `sent` and `feed` are histories: every record handed to
the flusher's channel and every message put on the publisher's socket. -/
structure Sys where
  cx : Cortex
  host : Host
  store : Store
  dbDown : Bool
  news : List News
  writes : List Write
  sent : List Write
  feed : List Parts
  main : MainPhase
  flusher : FlusherPhase
  lastRails : Dict F64
  lastSeal : String
  powerNews : List Body
  ticks : Nat

inductive Action
  | ask
  | inbound (parts : Parts)
  | door (request : Request)
  | hearNews
  | sample (rails : Dict F64)
  | hearPower
  | flush
  | outage
  | recovery

/-- The relay's fork in the road. -/
def isFrame (topic : Bytes) : Bool :=
  ROUTES.any fun route => asBytes route.1 == topic

namespace Sys

variable (env : Env)

/-- Put a message on the socket, if the contract lets it through. -/
def publish (sys : Sys) (topic : String) (body : Body) : Sys :=
  match encode topic (envelope body) with
  | .ok parts => { sys with feed := sys.feed ++ [parts] }
  | .error _ => sys

/-- Publish a body that is stamped with the clock. -/
def publishNow (sys : Sys) (topic : String) (build : F64 → Body) : Sys :=
  let stamped := sys.publish topic (build (env.clock sys.ticks))
  { stamped with ticks := sys.ticks + 1 }

/-- Hand a record to the flusher. -/
def send (sys : Sys) (write : Write) : Sys :=
  { sys with writes := sys.writes ++ [write], sent := sys.sent ++ [write] }

/-- What a state move puts back on the wire. -/
def republish (sys : Sys) : Sys :=
  (((sys.publishNow env "state" (buildState sys.cx.st)).publishNow env
    "ripperdoc" (buildRipperdoc sys.cx.st sys.cx.lastFace)).publishNow env
    "ring" (buildRing sys.cx.lastRing)).publishNow env
    "fault" (buildFault sys.cx sys.dbDown)

/-- A reading into the state; pressure with a time is also a durable sample. -/
def mergeReading (sys : Sys) (msg : Msg) : Sys :=
  let merged :=
    { sys with
      cx := sys.cx.merge (env.clock sys.ticks) msg
      ticks := sys.ticks + 1 }
  match msg.env.body with
  | some (.weather w) =>
      match w.ts, w.pressureHpa with
      | some ts, some hpa => merged.send (.baro ts hpa)
      | _, _ => merged
  | _ => merged

/-- The topic that is rebuilt for a reading. -/
def rebuild (sys : Sys) (msg : Msg) : Sys :=
  match msg.env.body with
  | some (.pir _) => sys.publishNow env "pir" (buildPir sys.cx.st)
  | some (.sonar _) => sys.publishNow env "sonar" (buildSonar sys.cx.st)
  | some (.weather _) => sys.publishNow env "weather" (buildWeather sys.cx)
  | some (.fault _) => sys.publishNow env "fault" (buildFault sys.cx sys.dbDown)
  | _ => sys

/-- One message off the inbound leg. -/
def onInbox (sys : Sys) (parts : Parts) : Sys :=
  if isFrame parts.topic then
    match routeParts parts.topic parts.payload with
    | .ok relay => { sys with feed := sys.feed ++ [relay] }
    | .error _ => sys
  else
    match decode env.prost parts with
    | .error _ => sys
    | .ok msg => (sys.mergeReading env msg).rebuild env msg

/-- One request through the door. -/
def serveRequest (sys : Sys) (request : Request) : Sys :=
  let (routed, host) :=
    Program.run serve (route env.vault sys.cx request) sys.host
  { sys with cx := routed.cx, host := host, news := sys.news ++ routed.news }

/-- One event from the door: a record and a message with one time. -/
def logEvent (sys : Sys) (kind : String) (detail : Value) : Sys :=
  let ts := env.clock sys.ticks
  ({ sys with ticks := sys.ticks + 1 }.send (.event kind detail ts)).publish
    "event" (buildEvent env.vault.text kind detail ts)

/-- A look at the rails and the seal; a change in either is news. -/
def samplePower (sys : Sys) (rails : Dict F64) : Sys :=
  let (status, host) := Program.run serve env.vault.publicStatus sys.host
  let sealText := env.vault.text.display status
  if rails.same sys.lastRails ∧ sealText = sys.lastSeal then
    { sys with host := host }
  else
    { sys with
      host := host
      lastRails := rails
      lastSeal := sealText
      powerNews := sys.powerNews ++
        [buildPower env.vault.text rails (status.asObject.getD [])
          (env.clock sys.ticks)]
      ticks := sys.ticks + 1 }

/-- The flusher's next statement. -/
def flush (sys : Sys) : Option Sys :=
  match sys.flusher with
  | .gone => none
  | .waiting =>
      if sys.writes.isEmpty then none
      else some { sys with flusher := .taken sys.writes, writes := [] }
  | .taken batch =>
      some
        { sys with flusher := .writing batch (settingsSnapshot sys.cx) false }
  | .writing [] snapshot failed =>
      some { sys with flusher := .saving snapshot failed }
  | .writing (write :: rest) snapshot failed =>
      let (written, store) := sys.store.withConn (.record write)
      some
        { sys with
          store := store
          flusher := .writing rest snapshot (failed || !written) }
  | .saving [] failed =>
      some { sys with dbDown := failed, flusher := .waiting }
  | .saving ((key, value) :: rest) failed =>
      if key ∈ PERSISTED then
        let (written, store) := sys.store.withConn (.upsert key value)
        -- A failed upsert ends the statement for the settings behind it too.
        some
          { sys with
            store := store
            flusher := if written then .saving rest failed else .saving [] true }
      else some { sys with flusher := .saving rest failed }

/-- One action of the process. -/
def step (sys : Sys) : Action → Option Sys
  | .ask =>
      match sys.main with
      | .asking (left + 1) init =>
          some { sys.publish "init" init with main := .asking left init }
      | .asking 0 _ => some { sys.republish env with main := .running }
      | .running => none
  | .inbound parts =>
      match sys.main with
      | .running => some (sys.onInbox env parts)
      | .asking _ _ => none
  | .door request => some (sys.serveRequest env request)
  | .hearNews =>
      match sys.main, sys.news with
      | .running, .event kind detail :: rest =>
          some ({ sys with news := rest }.logEvent env kind detail)
      | .running, .stateChanged :: rest =>
          some ({ sys with news := rest }.republish env)
      | _, _ => none
  | .sample rails =>
      match sys.main with
      | .running => some (sys.samplePower env rails)
      | .asking _ _ => none
  | .hearPower =>
      match sys.main, sys.powerNews with
      | .running, body :: rest =>
          some ({ sys with powerNews := rest }.publish "power" body)
      | _, _ => none
  | .flush => sys.flush
  | .outage =>
      some { sys with store.server := sys.store.server.outage }
  | .recovery =>
      some { sys with store.server := sys.store.server.recovery }

end Sys

/-- The process once its threads have started; without a DSN the flusher's
thread ends at once. -/
def boot (env : Env) (dsn : Bool) (host : Host) (server : Server) : Sys :=
  let host := (Program.run serve env.vault.ensure.run host).2
  let started : Sys :=
    { cx := {}
      host := host
      store := { conn := none, server := server, tried := 0 }
      dbDown := true
      news := []
      writes := []
      sent := []
      feed := []
      main := .asking 6 (buildInit (env.clock 0))
      flusher := .gone
      lastRails := ∅
      lastSeal := ""
      powerNews := []
      ticks := 1 }
  if dsn then
    match started.store.loadSettings with
    | (some rows, store) =>
        { started with
          cx := adoptSettings started.cx rows
          store := store
          dbDown := false
          flusher := .waiting }
    | (none, store) => { started with store := store, flusher := .waiting }
  else started

/-- The statements of the flusher, one constructor for each outcome. -/
inductive Flushes (sys : Sys) : Sys → Prop
  | took (phase : sys.flusher = .waiting) (some : sys.writes ≠ []) :
      Flushes sys { sys with flusher := .taken sys.writes, writes := [] }
  | snapped {batch : List Write} (phase : sys.flusher = .taken batch) :
      Flushes sys
        { sys with flusher := .writing batch (settingsSnapshot sys.cx) false }
  | wrote {write : Write} {rest : List Write}
      {snapshot : List (String × Value)} {failed : Bool}
      (phase : sys.flusher = .writing (write :: rest) snapshot failed)
      (takes : sys.store.takes (.record write) = true) :
      Flushes sys
        { sys with
          store := sys.store.took (.record write)
          flusher := .writing rest snapshot failed }
  | lost {write : Write} {rest : List Write}
      {snapshot : List (String × Value)} {failed : Bool}
      (phase : sys.flusher = .writing (write :: rest) snapshot failed)
      (refuses : sys.store.takes (.record write) = false) :
      Flushes sys
        { sys with
          store := sys.store.failed
          flusher := .writing rest snapshot true }
  | turned {snapshot : List (String × Value)} {failed : Bool}
      (phase : sys.flusher = .writing [] snapshot failed) :
      Flushes sys { sys with flusher := .saving snapshot failed }
  | saved {key : String} {value : Value} {rest : List (String × Value)}
      {failed : Bool}
      (phase : sys.flusher = .saving ((key, value) :: rest) failed)
      (kept : key ∈ PERSISTED)
      (takes : sys.store.takes (.upsert key value) = true) :
      Flushes sys
        { sys with
          store := sys.store.took (.upsert key value)
          flusher := .saving rest failed }
  | unsaved {key : String} {value : Value} {rest : List (String × Value)}
      {failed : Bool}
      (phase : sys.flusher = .saving ((key, value) :: rest) failed)
      (kept : key ∈ PERSISTED)
      (refuses : sys.store.takes (.upsert key value) = false) :
      Flushes sys
        { sys with
          store := sys.store.failed
          flusher := .saving [] true }
  | skipped {key : String} {value : Value} {rest : List (String × Value)}
      {failed : Bool}
      (phase : sys.flusher = .saving ((key, value) :: rest) failed)
      (foreign : key ∉ PERSISTED) :
      Flushes sys { sys with flusher := .saving rest failed }
  | settled {failed : Bool} (phase : sys.flusher = .saving [] failed) :
      Flushes sys { sys with dbDown := failed, flusher := .waiting }

theorem flushes_of_flush {sys after : Sys}
    (stepped : sys.flush = some after) : Flushes sys after := by
  unfold Sys.flush at stepped
  split at stepped
  · cases stepped
  · rename_i phase
    split at stepped
    · cases stepped
    · rename_i nonempty
      cases stepped
      exact .took phase (by simpa using nonempty)
  · rename_i batch phase
    cases stepped
    exact .snapped phase
  · rename_i snapshot failed phase
    cases stepped
    exact .turned phase
  · rename_i write rest snapshot failed phase
    cases answer : sys.store.takes (.record write) with
    | true =>
        rw [Store.withConn_of_takes answer] at stepped
        cases stepped
        have moved : Flushes sys _ := .wrote phase answer
        simpa using moved
    | false =>
        rw [Store.withConn_of_refuses answer] at stepped
        cases stepped
        have moved : Flushes sys _ := .lost phase answer
        simpa using moved
  · rename_i failed phase
    cases stepped
    exact .settled phase
  · rename_i key value rest failed phase
    split at stepped
    · rename_i kept
      cases answer : sys.store.takes (.upsert key value) with
      | true =>
          rw [Store.withConn_of_takes answer] at stepped
          cases stepped
          exact .saved phase kept answer
      | false =>
          rw [Store.withConn_of_refuses answer] at stepped
          cases stepped
          exact .unsaved phase kept answer
    · rename_i foreign
      cases stepped
      exact .skipped phase foreign

/-- The cortex starts with its defaults and the settings that were read. -/
theorem boot_cx (env : Env) (dsn : Bool) (host : Host) (server : Server) :
    ∃ rows, (boot env dsn host server).cx = adoptSettings {} rows := by
  unfold boot
  cases dsn with
  | false => exact ⟨[], rfl⟩
  | true =>
      dsimp only
      rw [if_pos rfl]
      split
      · rename_i rows store read
        exact ⟨rows, rfl⟩
      · exact ⟨[], rfl⟩

theorem boot_fields (env : Env) (dsn : Bool) (host : Host) (server : Server) :
    (boot env dsn host server).main = .asking 6 (buildInit (env.clock 0)) ∧
      (boot env dsn host server).feed = [] ∧
      (boot env dsn host server).news = [] ∧
      (boot env dsn host server).writes = [] ∧
      (boot env dsn host server).sent = [] ∧
      (boot env dsn host server).cx.st.faultTs = none := by
  unfold boot
  cases dsn with
  | false => exact ⟨rfl, rfl, rfl, rfl, rfl, rfl⟩
  | true =>
      dsimp only
      rw [if_pos rfl]
      split
      · exact ⟨rfl, rfl, rfl, rfl, rfl, adoptSettings_faultTs ..⟩
      · exact ⟨rfl, rfl, rfl, rfl, rfl, rfl⟩

theorem boot_store (env : Env) (dsn : Bool) (host : Host) (server : Server) :
    (boot env dsn host server).store.server = server ∧
      ((boot env dsn host server).flusher = .gone ∨
        (boot env dsn host server).flusher = .waiting) := by
  unfold boot
  cases dsn with
  | false => exact ⟨rfl, Or.inl rfl⟩
  | true =>
      dsimp only
      rw [if_pos rfl]
      unfold Store.loadSettings
      cases answer : (⟨none, server, 0⟩ : Store).takes .readSettings with
      | true =>
          rw [Store.withConn_of_takes answer]
          exact ⟨rfl, Or.inr rfl⟩
      | false =>
          rw [Store.withConn_of_refuses answer]
          exact ⟨rfl, Or.inr rfl⟩

namespace Trial

/-- Turn to the page of the motion sensor. -/
def turnPage : String :=
  "\x7b\"cmd\":\"ripperdoc\",\"args\":\x7b\"page\":\"pir\"\x7d\x7d"

def feelPleased : String :=
  "\x7b\"cmd\":\"feel\",\"args\":\x7b\"feeling\":\"pleased\"\x7d\x7d"

def parse (body : String) : Except String Value :=
  if body = turnPage then
    .ok (.object [("args", .object [("page", .string "pir")]),
      ("cmd", .string "ripperdoc")])
  else if body = feelPleased then
    .ok (.object [("args", .object [("feeling", .string "pleased")]),
      ("cmd", .string "feel")])
  else .error "expected value at line 1 column 1"

def block : Block :=
  ⟨List.replicate 32 1, rfl⟩

/-- A vault with the plainest of libraries. -/
def vault : Vault where
  dir := "/var/lib/vault"
  crypto :=
    { hmac := fun _ _ => block
      sha256 := fun _ => block
      base64Refusal := fun _ => "Invalid symbol"
      encryptPadded := fun _ _ plain => .ok plain
      decryptPadded := fun _ _ cipher => .ok cipher }
  text :=
    { display := fun _ => "null"
      displayPretty := fun _ => "null"
      parse := parse
      quote := fun text => text }

def env : Env where
  vault := vault
  prost :=
    { encodeToVec := fun _ => []
      decode := fun _ => .error "failed to decode" }
  clock := fun tick => tick

def host : Host where
  directory := Directory.empty
  draws := fun _ => block
  readings := fun _ => 0
  ages := fun _ => 0
  stamps := fun _ => "1970-01-01T00:00:00Z"
  used := 0

/-- A database with these settings in it and no records, which accepts whatever
comes. -/
def server (settings : Dict Value) : Server where
  up := true
  session := 0
  accepts := fun _ _ => true
  settings := settings
  events := []
  baroSamples := []

def post (body : String) : Action :=
  .door ⟨"/api", "POST", some body, none⟩

/-- A report pushed on the inbound leg. -/
def push (topic : String) (body : Body) : Action :=
  .inbound ⟨asBytes topic, .encoded (envelope body)⟩

/-- The asks, and the first republish. -/
def asks : List Action :=
  List.replicate 7 .ask

end Trial

end Cortex
