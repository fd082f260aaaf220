import Loa.WireMessages

/-!
# The contract of the wire

The topics, the aliases and the relay routes, the check that a topic and a
payload belong together, and the two directions of the contract: `encode` on the
side of the publisher and `decode` on the side of the consumer.

The library that turns envelopes into bytes and back is not part of the
repository.  A frame that it wrote is kept as the envelope it stands for, so
reading it back gives that envelope; how it reads any other bytes is a
parameter.
-/

namespace Wire

open RustText

/-- The protobuf library. -/
structure Prost where
  encodeToVec : Envelope → Bytes
  decode : Bytes → Except String Envelope

/-- One frame on a socket: the encoding of an envelope, or any other bytes. -/
inductive Frame
  | encoded (env : Envelope)
  | bytes (content : Bytes)
  deriving DecidableEq

namespace Frame

/-- The bytes of a frame. -/
def toBytes (prost : Prost) : Frame → Bytes
  | .encoded env => prost.encodeToVec env
  | .bytes content => content

/-- The envelope in a frame. -/
def decode (prost : Prost) : Frame → Except String Envelope
  | .encoded env => .ok env
  | .bytes content => prost.decode content

end Frame

/-- A two-frame message: the topic and the payload. -/
structure Parts where
  topic : Bytes
  payload : Frame
  deriving DecidableEq

def SCHEMA_VERSION : UInt32 := 11

/-- Every topic the cortex publishes. -/
def TOPICS : List String :=
  ["state", "ripperdoc", "ring", "pir", "sonar", "weather", "power", "fault",
    "event", "init"]

/-- Topics whose payload has another name than the topic. -/
def ALIASES : List (String × String) :=
  [("state", "ripperdoc")]

def bodyAllowed (topic body : String) : Bool :=
  topic == body ||
    ALIASES.any fun entry => entry.1 == topic && entry.2 == body

/-- The relay: inbound topic to consumer topic. -/
def ROUTES : List (String × String) :=
  [("oled", "ripperdoc"), ("ring", "ring")]

/-- Why a message was refused. -/
inductive Error
  | schemaMismatch (version : UInt32)
  | topicMismatch (topic body : String)
  | unknownTopic (topic : String)
  | noRoute (topic : String)
  | framing (frames : Nat)
  | noBody
  | zmq (text : String)
  deriving DecidableEq, Repr

def bodyName (env : Envelope) : Option String :=
  env.body.map fun body =>
    match body with
    | .ripperdoc _ => "ripperdoc"
    | .ring _ => "ring"
    | .pir _ => "pir"
    | .sonar _ => "sonar"
    | .weather _ => "weather"
    | .power _ => "power"
    | .fault _ => "fault"
    | .event _ => "event"
    | .init _ => "init"

/-- A message ready for the wire. -/
def encode (topic : String) (env : Envelope) : Except Error Parts :=
  if env.schemaVersion ≠ SCHEMA_VERSION then
    .error (.schemaMismatch env.schemaVersion)
  else
    match bodyName env with
    | none => .error .noBody
    | some body =>
        if bodyAllowed topic body then .ok ⟨asBytes topic, .encoded env⟩
        else .error (.topicMismatch topic body)

def envelope (body : Body) : Envelope where
  schemaVersion := SCHEMA_VERSION
  body := some body

/-- One decoded message. -/
structure Msg where
  topic : String
  env : Envelope
  deriving DecidableEq

def decode (prost : Prost) (parts : Parts) : Except Error Msg :=
  let topic := fromUtf8Lossy parts.topic
  if topic ∉ TOPICS then .error (.unknownTopic topic)
  else
    match parts.payload.decode prost with
    | .error text => .error (.zmq ("envelope: " ++ text))
    | .ok env =>
        if env.schemaVersion ≠ SCHEMA_VERSION then
          .error (.schemaMismatch env.schemaVersion)
        else
          match bodyName env with
          | none => .error .noBody
          | some body =>
              if bodyAllowed topic body then .ok ⟨topic, env⟩
              else .error (.topicMismatch topic body)

/-- The relay step: only the topic frame is changed. -/
def routeParts (topic : Bytes) (payload : Frame) : Except Error Parts :=
  match fromUtf8 topic with
  | none => .error (.unknownTopic (fromUtf8Lossy topic))
  | some inbound =>
      match ROUTES.find? fun route => route.1 == inbound with
      | none => .error (.noRoute inbound)
      | some route => .ok ⟨asBytes route.2, payload⟩

/-- What the publisher's contract lets through, the consumer's contract
accepts unchanged. -/
theorem decode_encode (prost : Prost) {topic : String} {env : Envelope}
    {parts : Parts} (published : topic ∈ TOPICS)
    (encoded : encode topic env = .ok parts) :
    decode prost parts = .ok ⟨topic, env⟩ := by
  unfold encode at encoded
  split at encoded
  · cases encoded
  · rename_i schema
    split at encoded
    · cases encoded
    · rename_i body named
      split at encoded
      · rename_i allowed
        cases encoded
        simp [decode, Frame.decode, published, schema, named, allowed]
      · cases encoded

/-- What decodes is under its topic and belongs there. -/
theorem decode_named {prost : Prost} {topic : String} {payload : Frame}
    {msg : Msg} (decoded : decode prost ⟨asBytes topic, payload⟩ = .ok msg) :
    msg.topic = topic ∧
      ∃ name, bodyName msg.env = some name ∧ bodyAllowed topic name = true := by
  unfold decode at decoded
  simp only [fromUtf8Lossy_asBytes] at decoded
  split at decoded
  · cases decoded
  split at decoded
  · cases decoded
  split at decoded
  · cases decoded
  split at decoded
  · cases decoded
  · rename_i name named
    split at decoded
    · rename_i allowed
      cases decoded
      exact ⟨rfl, name, named, allowed⟩
    · cases decoded

theorem topic_of_encode {topic : String} {env : Envelope} {parts : Parts}
    (encoded : encode topic env = .ok parts) : parts.topic = asBytes topic := by
  unfold encode at encoded
  split at encoded
  · cases encoded
  split at encoded
  · cases encoded
  split at encoded
  · cases encoded
    rfl
  · cases encoded

theorem route_of_routeParts {topic : Bytes} {payload : Frame} {relay : Parts}
    (routed : routeParts topic payload = .ok relay) :
    ∃ route ∈ ROUTES, relay = ⟨asBytes route.2, payload⟩ := by
  unfold routeParts at routed
  split at routed
  · cases routed
  split at routed
  · cases routed
  · rename_i route found
    cases routed
    exact ⟨route, List.mem_of_find?_eq_some found, rfl⟩

end Wire
