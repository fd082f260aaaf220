import Loa.WireContract

/-!
# The receiving end of a socket

A socket hands out the frames that have arrived, oldest first.  `recvNowait`
takes one two-frame message if one is there, and `nextState` drains what is
queued and decodes the newest message of it.
-/

namespace Wire

/-- What a subscriber's socket lets through: the topics that begin with one it
subscribed to. -/
def subscribed (topics : List String) (parts : Parts) : Bool :=
  topics.any fun topic => (RustText.asBytes topic).isPrefixOf parts.topic

/-- `AInbound::recv_nowait`: one message, if one is there, and the frames that
are left. -/
def recvNowait (prost : Prost) :
    List Frame → Except Error (Option Parts) × List Frame
  | [] => (.ok none, [])
  | [_] => (.error (.zmq "Resource temporarily unavailable"), [])
  | topic :: payload :: rest =>
      (.ok (some ⟨topic.toBytes prost, payload⟩), rest)

/-- The drain loop of `AInbound::next_state`: take every message, keep the
newest. -/
def drainNewest (prost : Prost) (newest : Option Parts) :
    List Frame → Except Error (Option Parts)
  | [] => .ok newest
  | [_] => .error (.zmq "Resource temporarily unavailable")
  | topic :: payload :: rest =>
      drainNewest prost (some ⟨topic.toBytes prost, payload⟩) rest

/-- `AInbound::next_state` on what is queued at one wakeup; `none` when there
is nothing to return yet and the loop goes back to sleep. -/
def nextState (prost : Prost) (queue : List Frame) :
    Option (Except Error Msg) :=
  match drainNewest prost none queue with
  | .error error => some (.error error)
  | .ok none => none
  | .ok (some parts) => some (decode prost parts)

/-- The frames of two-frame messages, as they queue up. -/
def framesOf (messages : List Parts) : List Frame :=
  messages.flatMap fun parts => [.bytes parts.topic, parts.payload]

@[simp]
theorem framesOf_nil : framesOf [] = [] :=
  rfl

/-- Draining two-frame messages keeps the last one. -/
theorem drainNewest_framesOf (prost : Prost) (newest : Option Parts)
    (messages : List Parts) :
    drainNewest prost newest (framesOf messages) =
      .ok (messages.getLast?.or newest) := by
  induction messages generalizing newest with
  | nil => simp [drainNewest]
  | cons parts rest induction =>
      change drainNewest prost
          (some ⟨Frame.toBytes prost (.bytes parts.topic), parts.payload⟩)
          (framesOf rest) = _
      rw [induction, List.getLast?_cons]
      cases rest.getLast? with
      | none => rfl
      | some last => rfl

/-- One wakeup hands on the newest of the queued messages and no other. -/
theorem nextState_framesOf_concat (prost : Prost) (messages : List Parts)
    (last : Parts) :
    nextState prost (framesOf (messages ++ [last])) =
      some (decode prost last) := by
  simp [nextState, drainNewest_framesOf]

@[simp]
theorem nextState_nil (prost : Prost) : nextState prost [] = none :=
  rfl

end Wire
