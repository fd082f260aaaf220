import Loa.JsonValue
import Loa.RustText

/-!
# The messages of the wire

The message types of the wire schema as the Rust code uses them.  Every field
that the schema declares optional is an `Option`, because presence is what a
merge goes by.
-/

namespace Wire

/-- How the body presents itself. -/
structure Ripperdoc where
  face : Option Bytes := none
  page : Option String := none
  mood : Option String := none
  snrOn : Option Bool := none
  ringState : Option String := none
  oledMode : Option String := none
  oledText : Option String := none
  oledDim : Option Bool := none
  ripperdoc : Option Bool := none
  condition : Option String := none
  oledFlip : Option Bool := none
  ts : Option F64 := none
  deriving DecidableEq

/-- The ring's pixels. -/
structure Ring where
  ring : Option Bytes := none
  ts : Option F64 := none
  deriving DecidableEq

/-- A motion reading. -/
structure Pir where
  high : Option Bool := none
  count : Option UInt32 := none
  lastTs : Option F64 := none
  lastHold : Option F64 := none
  onTs : Option F64 := none
  ts : Option F64 := none
  deriving DecidableEq

/-- A distance reading. -/
structure Sonar where
  cm : Option F64 := none
  count : Option UInt32 := none
  ts : Option F64 := none
  deriving DecidableEq

/-- A reading of the air. -/
structure Weather where
  tempC : Option F64 := none
  humPct : Option F64 := none
  ts : Option F64 := none
  count : Option UInt32 := none
  pressureHpa : Option F64 := none
  trend : Option String := none
  series : List F64 := []
  deriving DecidableEq

/-- The rails, and the public status of the vault as words. -/
structure Power where
  rails : Dict F64 := ∅
  frag : Dict String := ∅
  ts : Option F64 := none
  deriving DecidableEq

/-- One row of a fault report. -/
structure FaultRow where
  level : String
  code : String
  text : String
  face : Option String
  deriving DecidableEq

/-- What hurts, right now. -/
structure Fault where
  rows : List FaultRow := []
  condition : Option String := none
  ts : Option F64 := none
  deriving DecidableEq

/-- Something happened. -/
structure Event where
  ts : F64 := 0
  kind : String := ""
  detail : Dict String := ∅
  deriving DecidableEq

/-- The ask for a full report. -/
structure Init where
  source : Option String := none
  ts : Option F64 := none
  deriving DecidableEq

/-- The payloads an envelope can carry. -/
inductive Body
  | ripperdoc (message : Ripperdoc)
  | ring (message : Ring)
  | pir (message : Pir)
  | sonar (message : Sonar)
  | weather (message : Weather)
  | power (message : Power)
  | fault (message : Fault)
  | event (message : Event)
  | init (message : Init)
  deriving DecidableEq

/-- One published message. -/
structure Envelope where
  schemaVersion : UInt32
  body : Option Body
  deriving DecidableEq

end Wire
