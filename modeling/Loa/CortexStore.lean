import Loa.CortexState

/-!
# The store

The settings that survive a restart and the records of what happened, in a
database that may be out of reach.  One connection is made when it is needed and
dropped on any error; a connection belongs to one session of the server, and an
outage ends the session.
-/

namespace Cortex

open Json

/-- The settings that are kept. -/
def PERSISTED : List String :=
  ["mood", "page", "ring_state", "oled_mode", "oled_text", "oled_dim",
    "ripperdoc", "snr_on", "oled_flip"]

/-- The bound on unflushed records that the store's documentation gives. -/
def PENDING_RECORDS_MAX : Nat := 5000

/-- A record of something that happened, or a sample of the air. -/
inductive Write
  | event (kind : String) (detail : Value) (ts : F64)
  | baro (ts hpa : F64)

/-- What the store asks of the database. -/
inductive Statement
  | schema
  | readSettings
  | record (write : Write)
  | upsert (key : String) (value : Value)

/-- The database server and its tables.  What it accepts is for the database to
say, at each try anew: a JSONB column refuses a text with a NUL in it, a full
disk refuses every row. -/
structure Server where
  up : Bool
  session : Nat
  accepts : Nat → Statement → Bool
  settings : Dict Value
  events : List (F64 × String × Value)
  baroSamples : List (F64 × F64)

namespace Server

/-- `INSERT INTO settings … ON CONFLICT (key) DO UPDATE`. -/
def upsert (server : Server) (key : String) (value : Value) : Server :=
  { server with settings := server.settings.insert key value }

/-- `add_event` and `add_baro_sample`: one row in the record's table. -/
def record (server : Server) : Write → Server
  | .event kind detail ts =>
      { server with events := server.events ++ [(ts, kind, detail)] }
  | .baro ts hpa =>
      { server with baroSamples := server.baroSamples ++ [(ts, hpa)] }

/-- What a statement that is accepted does. -/
def execute (server : Server) : Statement → Server
  | .schema | .readSettings => server
  | .record write => server.record write
  | .upsert key value => server.upsert key value

@[simp]
theorem execute_record (server : Server) (write : Write) :
    server.execute (.record write) = server.record write :=
  rfl

@[simp]
theorem accepts_execute (server : Server) (statement : Statement) :
    (server.execute statement).accepts = server.accepts := by
  cases statement with
  | record write => cases write <;> rfl
  | _ => rfl

/-- The server goes out of reach and every connection to it dies. -/
def outage (server : Server) : Server :=
  { server with up := false, session := server.session + 1 }

def recovery (server : Server) : Server :=
  { server with up := true }

end Server

/-- The cortex's end: the connection, if there is one, and the server; `tried`
counts the statements. -/
structure Store where
  conn : Option Nat
  server : Server
  tried : Nat

namespace Store

/-- The session of a live-looking connection, made now if there is none. -/
def connect (store : Store) : Option Nat :=
  match store.conn with
  | some session => some session
  | none =>
      if store.server.up ∧ store.server.accepts store.tried .schema then
        some store.server.session
      else none

/-- The store after a statement that was accepted. -/
def took (store : Store) (statement : Statement) : Store where
  conn := some store.server.session
  server := store.server.execute statement
  tried := store.tried + 1

/-- And after one that failed: without a connection. -/
def failed (store : Store) : Store :=
  { store with conn := none, tried := store.tried + 1 }

@[simp]
theorem took_server (store : Store) (statement : Statement) :
    (store.took statement).server = store.server.execute statement :=
  rfl

@[simp]
theorem failed_server (store : Store) : store.failed.server = store.server :=
  rfl

/-- Run one statement; on any error drop the connection. -/
def withConn (store : Store) (statement : Statement) : Bool × Store :=
  match store.connect with
  | none => (false, store.failed)
  | some session =>
      if store.server.up ∧ session = store.server.session ∧
          store.server.accepts store.tried statement then
        (true, store.took statement)
      else (false, store.failed)

/-- The next statement gets to the server. -/
def reachable (store : Store) : Bool :=
  store.server.up && store.conn.all fun session =>
    session == store.server.session

/-- The next statement, if it is this one, succeeds: it gets to the server, and
the server accepts it, behind the schema on a new connection. -/
def takes (store : Store) (statement : Statement) : Bool :=
  store.reachable &&
    (store.conn.isSome || store.server.accepts store.tried .schema) &&
    store.server.accepts store.tried statement

theorem withConn_of_takes {store : Store} {statement : Statement}
    (takes : store.takes statement = true) :
    store.withConn statement = (true, store.took statement) := by
  obtain ⟨conn, server, tried⟩ := store
  cases conn with
  | none =>
      simp only [Store.takes, reachable, Option.all_none, Bool.and_true,
        Option.isSome_none, Bool.false_or, Bool.and_eq_true] at takes
      obtain ⟨⟨up, schema⟩, accepted⟩ := takes
      simp [withConn, connect, up, schema, accepted]
  | some session =>
      simp only [Store.takes, reachable, Option.all_some, Option.isSome_some,
        Bool.true_or, Bool.and_true, Bool.and_eq_true, beq_iff_eq] at takes
      obtain ⟨⟨up, live⟩, accepted⟩ := takes
      simp [withConn, connect, up, live, accepted]

theorem withConn_of_refuses {store : Store} {statement : Statement}
    (refuses : store.takes statement = false) :
    store.withConn statement = (false, store.failed) := by
  obtain ⟨conn, server, tried⟩ := store
  cases conn with
  | none =>
      cases schema : server.up && server.accepts tried .schema with
      | true =>
          rw [Bool.and_eq_true] at schema
          have accepted : server.accepts tried statement = false := by
            simpa [Store.takes, reachable, schema.1, schema.2] using refuses
          simp [withConn, connect, schema.1, schema.2, accepted]
      | false =>
          have closed : ¬ (server.up = true ∧
              server.accepts tried .schema = true) := by
            simpa using schema
          simp [withConn, connect, closed]
  | some session =>
      have dead : ¬ (server.up = true ∧ session = server.session ∧
          server.accepts tried statement = true) := by
        simpa [Store.takes, reachable, and_assoc] using refuses
      simp [withConn, connect, dead]

/-- A statement that does not get to the server fails. -/
theorem refuses_of_unreachable {store : Store}
    (unreachable : store.reachable = false) (statement : Statement) :
    store.takes statement = false := by
  simp [takes, unreachable]

/-- A server that accepts whatever comes takes what gets to it. -/
theorem takes_of_accepting {store : Store} (reachable : store.reachable = true)
    (accepting : store.server.accepts = fun _ _ => true)
    (statement : Statement) : store.takes statement = true := by
  simp [takes, reachable, accepting]

/-- The stored rows of the settings that are kept. -/
def loadSettings (store : Store) :
    Option (List (String × Value)) × Store :=
  match store.withConn .readSettings with
  | (true, store) =>
      (some ((store.server.settings.entries.map fun row =>
        (row.1, row.2)).filter fun row => row.1 ∈ PERSISTED), store)
  | (false, store) => (none, store)

end Store

/-- The settings as the flusher writes them. -/
def settingsSnapshot (cx : Cortex) : List (String × Value) :=
  [("mood", .string cx.st.mood), ("ring_state", .string cx.st.ringState),
    ("oled_mode", .string cx.st.oledMode),
    ("oled_text", .ofText cx.st.oledText), ("oled_dim", .bool cx.st.oledDim),
    ("oled_flip", .bool cx.st.oledFlip), ("ripperdoc", .bool cx.st.ripperdoc),
    ("page", .string cx.st.page), ("snr_on", .bool cx.st.snrOn)]

/-- One stored row, adopted if its key and shape are known. -/
def adoptSetting (st : State) (row : String × Value) : State :=
  match row with
  | (_, .null) => st
  | (key, .string text) =>
      if key = "mood" then { st with mood := text }
      else if key = "ring_state" then { st with ringState := text }
      else if key = "oled_mode" then { st with oledMode := text }
      else if key = "oled_text" then { st with oledText := some text }
      else if key = "page" then { st with page := text }
      else st
  | (key, .bool flag) =>
      if key = "oled_dim" then { st with oledDim := flag }
      else if key = "oled_flip" then { st with oledFlip := flag }
      else if key = "ripperdoc" then { st with ripperdoc := flag }
      else if key = "snr_on" then { st with snrOn := flag }
      else st
  | _ => st

def adoptSettings (cx : Cortex) (rows : List (String × Value)) : Cortex :=
  { cx with st := rows.foldl adoptSetting cx.st }

theorem adoptSetting_faultTs (st : State) (row : String × Value) :
    (adoptSetting st row).faultTs = st.faultTs := by
  unfold adoptSetting
  split
  · rfl
  · repeat' split
    all_goals rfl
  · repeat' split
    all_goals rfl
  · rfl

/-- What no row moves, the stored settings do not move. -/
theorem adoptSettings_kept {α : Type} {field : State → α}
    (kept : ∀ st row, field (adoptSetting st row) = field st) (cx : Cortex)
    (rows : List (String × Value)) :
    field (adoptSettings cx rows).st = field cx.st := by
  unfold adoptSettings
  dsimp only
  generalize cx.st = st
  induction rows generalizing st with
  | nil => rfl
  | cons row rest induction => rw [List.foldl_cons, induction, kept]

theorem adoptSettings_faultTs (cx : Cortex) (rows : List (String × Value)) :
    (adoptSettings cx rows).st.faultTs = cx.st.faultTs :=
  adoptSettings_kept adoptSetting_faultTs cx rows

end Cortex
