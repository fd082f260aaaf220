import Loa.CortexProcess
import Loa.EdgeWakeup
import Loa.TransitionRun

/-!
# The loops that sleep on their inbox

The cortex and the sensor daemons wait for messages on the descriptor of a
socket, beside other things that may wake them.  The cortex drains its inbox
whenever it wakes for it; a daemon takes one ask, answers it, and looks again
before it samples.  Neither sleeps over a message, unless an error of the socket
makes a daemon deaf until its next sample.
-/

open TransitionRun (Run Along)
open EdgeWakeup (Reader)

namespace Cortex

open Wire

/-- The process and the inbox of its main loop. -/
structure Loop where
  sys : Sys
  reader : Reader Parts

/-- What happens at the socket, what the main loop does about it, and everything
else. -/
inductive Turn
  | arrive (parts : Parts)
  | stir
  | wake
  | look
  | act (action : Action)

namespace Loop

/-- The main loop drains, or has not come to its loop yet; it hears the other
two channels only while it waits.  Messages are taken in by looks alone. -/
def allows (loop : Loop) : Action → Bool
  | .inbound _ => false
  | .hearNews | .hearPower => loop.reader.parked
  | _ => true

def step (env : Env) (loop : Loop) : Turn → Option Loop
  | .arrive parts => some { loop with reader := loop.reader.arrive parts }
  | .stir => some { loop with reader := loop.reader.stir }
  | .wake =>
      match loop.sys.main with
      | .running =>
          loop.reader.wake.map fun reader => { loop with reader := reader }
      | .asking _ _ => none
  | .look =>
      if loop.reader.parked then none
      else
        match loop.reader.mailbox.channel.recv with
        | some (parts, _) =>
            (loop.sys.step env (.inbound parts)).map fun sys =>
              { sys := sys, reader := loop.reader.look }
        | none => some { loop with reader := loop.reader.look }
  | .act action =>
      if loop.allows action then
        (loop.sys.step env action).map fun sys => { loop with sys := sys }
      else none

def boot (env : Env) (dsn : Bool) (host : FileDirectory.Host) (server : Server) :
    Loop where
  sys := Cortex.boot env dsn host server
  reader := {}

end Loop

/-- The messages that a run of the process took in. -/
def takenIn (trace : List (Sys × Action)) : List Parts :=
  trace.filterMap fun entry =>
    match entry.2 with
    | .inbound parts => some parts
    | _ => none

/-- The reader is sound, and the process has run, by itself, through the messages
that the reader was handed. -/
def Loop.Follows (env : Env) (start : Sys) (loop : Loop) : Prop :=
  loop.reader.Sound ∧
    ∃ coarse, Run (Sys.step env) start coarse loop.sys ∧
      takenIn coarse = loop.reader.handed

namespace Trial

def handOn : Parts :=
  ⟨RustText.asBytes "pir", .encoded (envelope (.pir { high := some true }))⟩

def handOff : Parts :=
  ⟨RustText.asBytes "pir", .encoded (envelope (.pir { high := some false }))⟩

end Trial

end Cortex

namespace Sense

open Wire

/-- A daemon's listener: its reader, the asks that it answered and those whose
answer did not go out, how many had come when it looked last, and whether an
error of the socket has made it deaf. -/
structure Listener where
  reader : Reader Parts
  answers : Nat := 0
  unsaid : Nat := 0
  looked : Nat := 0
  deaf : Bool := false

/-- What happens at the socket, what `wait_init` does about it, and a sample.  A
look knows whether the answer to the ask it finds would be published. -/
inductive Moment
  | arrive (ask : Parts)
  | stir
  | look (published : Bool)
  | fail
  | wake
  | tick

namespace Listener

/-- The loop starts with a look. -/
def start : Listener where
  reader := ({} : Reader Parts).rouse

/-- An ask that a look finds is answered with the full payload, which is not tried
again where the publish fails. -/
def looks (listener : Listener) (published : Bool) : Listener :=
  let after : Listener :=
    { listener with
      reader := listener.reader.look
      looked := listener.reader.mailbox.channel.sent.length }
  match listener.reader.mailbox.channel.recv with
  | some _ =>
      if published then { after with answers := listener.answers + 1 }
      else { after with unsaid := listener.unsaid + 1 }
  | none => after

/-- The loop goes round after an ask and after a sample, which drops a wait that
has gone deaf. -/
def step (listener : Listener) : Moment → Option Listener
  | .arrive ask =>
      some { listener with reader := listener.reader.arrive ask }
  | .stir => some { listener with reader := listener.reader.stir }
  | .look published =>
      if listener.reader.parked ∨ listener.deaf then none
      else some (listener.looks published)
  | .fail => if listener.deaf then none else some { listener with deaf := true }
  | .wake =>
      if listener.deaf then none
      else
        listener.reader.wake.map fun reader => { listener with reader := reader }
  | .tick =>
      if listener.reader.parked ∨ listener.deaf then
        some { listener with reader := listener.reader.rouse, deaf := false }
      else none

/-- An ask comes between a look that found nothing and the sample; the next comes
while the loop is deaf, and its answer does not go out. -/
def sampled : List Moment :=
  [.look true, .arrive Cortex.Trial.handOn, .tick, .look true, .fail,
    .arrive Cortex.Trial.handOff, .tick, .look false, .look true, .wake,
    .look true]

end Listener

end Sense
