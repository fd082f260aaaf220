import Loa.WireInbound

/-!
# The ring daemon's held view

The condition words, the ladder that picks the tell, the one-shot records, and
the merge of one message.  The ring keeps both condition words, the state's and
the fault's, and the fault's wins.
-/

namespace RingDaemon

open Wire

/-- The topics the ring draws from. -/
def TOPICS : List String :=
  ["state", "fault", "event"]

/-- The condition vocabulary as the ring reads it. -/
inductive Cond
  | well
  | niggle
  | hurts
  | mute
  deriving DecidableEq, Repr

namespace Cond

/-- A word that nobody knows is well. -/
def parse (word : String) : Cond :=
  if word = "hurts" then .hurts
  else if word = "mute" then .mute
  else if word = "niggle" then .niggle
  else .well

/-- The word of a condition. -/
def word : Cond → String
  | .well => "well"
  | .niggle => "niggle"
  | .hurts => "hurts"
  | .mute => "mute"

@[simp]
theorem parse_word (cond : Cond) : parse cond.word = cond := by
  cases cond <;> rfl

end Cond

/-- The mute gate: a fault report never heard is mute. -/
def deviceCondition (faultSeen : Bool) (condWord : Option String) : Cond :=
  if !faultSeen then .mute else Cond.parse (condWord.getD "well")

inductive Tell
  | alarm
  | hurts
  | mute
  | busy
  | scan
  | glitch
  | home
  deriving DecidableEq, Repr

/-- What the wire says, as one snapshot. -/
structure RingInput where
  cond : Cond
  ringState : String
  ripperdoc : Bool
  deriving DecidableEq

/-- The ladder; a one-shot plays only at home. -/
def pickTell (input : RingInput) (pending : Option Tell) : Tell :=
  if input.ringState = "alarm" then .alarm
  else if input.cond = .hurts then .hurts
  else if input.cond = .mute then .mute
  else if input.ringState = "busy" then .busy
  else if input.ringState = "home" then pending.getD .home
  else .home

/-- A held one-shot: its kind and when it started on the ring's clock. -/
structure OneShot where
  kind : Tell
  start : F64
  deriving DecidableEq

/-- The renderer's memory of one-shots: the pending one and the records that
have been noted. -/
structure Renderer where
  oneshot : Option OneShot := none
  seen : List (String × F64) := []
  deriving DecidableEq

namespace Renderer

/-- Note a one-shot record; the newest replaces, and a replay is nothing.  `t`
is the ring's clock. -/
def noteOneshot (renderer : Renderer) (stateWord : String) (ts t : F64) :
    Renderer :=
  if stateWord ≠ "scan" ∧ stateWord ≠ "glitch" then renderer
  else if (stateWord, ts) ∈ renderer.seen then renderer
  else
    { oneshot :=
        some
          { kind := if stateWord = "glitch" then .glitch else .scan
            start := t }
      seen := (stateWord, ts) :: renderer.seen }

def pendingOneshot (renderer : Renderer) : Option Tell :=
  renderer.oneshot.map OneShot.kind

def tellNow (renderer : Renderer) (input : RingInput) : Tell :=
  pickTell input renderer.pendingOneshot

end Renderer

/-- The last message of each topic, as the renderer reads it. -/
structure Held where
  ringState : String := ""
  ripperdoc : Bool := false
  stateCond : Option String := none
  faultCond : Option String := none
  faultSeen : Bool := false
  deriving DecidableEq

/-- The snapshot: the fault's own word wins. -/
def Held.input (held : Held) : RingInput where
  cond := deviceCondition held.faultSeen (held.faultCond.or held.stateCond)
  ringState := if held.ringState = "" then "home" else held.ringState
  ripperdoc := held.ripperdoc

/-- The daemon: what it holds and its renderer. -/
structure Daemon where
  held : Held := {}
  renderer : Renderer := {}
  deriving DecidableEq

/-- Take one decoded message into the held view and the one-shot memory. -/
def hold (t : F64) (daemon : Daemon) (msg : Msg) : Daemon :=
  match msg.env.body with
  | some (.ripperdoc m) =>
      if msg.topic = "state" then
        { daemon with
          held :=
            { daemon.held with
              ringState := m.ringState.getD ""
              ripperdoc := m.ripperdoc.getD false
              stateCond := m.condition } }
      else daemon
  | some (.fault m) =>
      { daemon with
        held :=
          { daemon.held with faultSeen := true, faultCond := m.condition } }
  | some (.event e) =>
      if e.kind = "ring" then
        match e.detail.lookup "state" with
        | some state =>
            { daemon with
              renderer := daemon.renderer.noteOneshot state e.ts t }
        | none => daemon
      else daemon
  | _ => daemon

/-- One message off the feed: if it is subscribed to and decodes, it is
held. -/
def receive (prost : Prost) (t : F64) (daemon : Daemon) (parts : Parts) :
    Daemon :=
  if subscribed TOPICS parts then
    match decode prost parts with
    | .ok msg => hold t daemon msg
    | .error _ => daemon
  else daemon

end RingDaemon
