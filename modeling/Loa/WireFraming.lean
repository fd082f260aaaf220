import Mathlib.Data.List.Induction
import Loa.TransitionRun
import Loa.WireInbound

/-!
# Reading messages frame by frame

A multipart message arrives whole, but the readers take it off the socket one
frame at a time: every `recv_bytes` is a step of its own, and messages may
arrive between any two of them.  The first half of the file runs a reader that
way; the second half is `Subscriber::drain`, which decodes what it reads.
-/

namespace Wire

open TransitionRun

/-- The flags a `recv_bytes` is called with. -/
inductive Waiting
  | dontWait
  | block
  deriving DecidableEq

/-- A socket and the reader in front of it. -/
structure Reader where
  queue : List Frame := []
  /-- The topic frame of the pair that is being read. -/
  topic : Option Bytes := none
  /-- What the reader has handed on. -/
  handed : List (Except Error Parts) := []

/-- The frames of one message come in together; a `recv_bytes` takes one. -/
inductive Reader.Action
  | arrive (message : List Frame)
  | recvBytes

namespace Reader

variable {prost : Prost} {waiting : Waiting}

/-- One arrival, or one `recv_bytes` of `recv` (which blocks) or of
`recv_nowait` and `drain` (which do not wait). -/
def step (prost : Prost) (waiting : Waiting) (reader : Reader) :
    Action → Option Reader
  | .arrive message => some { reader with queue := reader.queue ++ message }
  | .recvBytes =>
      match reader.topic, reader.queue with
      | none, [] =>
          match waiting with
          | .dontWait => some reader
          | .block => none
      | none, frame :: rest =>
          some { reader with topic := some (frame.toBytes prost), queue := rest }
      | some _, [] =>
          match waiting with
          -- the topic frame that was read is gone with the error
          | .dontWait =>
              some
                { reader with
                  topic := none
                  handed := reader.handed ++
                    [.error (.zmq "Resource temporarily unavailable")] }
          | .block => none
      | some topic, frame :: rest =>
          some
            { reader with
              topic := none
              queue := rest
              handed := reader.handed ++ [.ok ⟨topic, frame⟩] }

/-- The messages that arrived in the course of a trace. -/
def arrived (trace : List (Reader × Action)) : List (List Frame) :=
  trace.filterMap fun entry =>
    match entry.2 with
    | .arrive message => some message
    | .recvBytes => none

@[simp]
theorem arrived_nil : arrived [] = [] :=
  rfl

@[simp]
theorem arrived_arrive (trace : List (Reader × Action)) (before : Reader)
    (message : List Frame) :
    arrived (trace ++ [(before, .arrive message)]) =
      arrived trace ++ [message] := by
  simp [arrived]

@[simp]
theorem arrived_recvBytes (trace : List (Reader × Action)) (before : Reader) :
    arrived (trace ++ [(before, .recvBytes)]) = arrived trace := by
  simp [arrived]

/-- What one `recv_bytes` can do: wait for nothing, take a topic, give up half
way, or complete a pair. -/
theorem recvBytes_cases {before after : Reader}
    (stepped : step prost waiting before .recvBytes = some after) :
    (before.queue = [] ∧ before.topic = none ∧ after = before) ∨
    (∃ frame rest, before.queue = frame :: rest ∧ before.topic = none ∧
      after =
        { before with topic := some (frame.toBytes prost), queue := rest }) ∨
    (∃ topic, before.queue = [] ∧ before.topic = some topic ∧
      after =
        { before with
          topic := none
          handed := before.handed ++
            [.error (.zmq "Resource temporarily unavailable")] }) ∨
    (∃ topic frame rest, before.queue = frame :: rest ∧
      before.topic = some topic ∧
      after =
        { before with
          topic := none
          queue := rest
          handed := before.handed ++ [.ok ⟨topic, frame⟩] }) := by
  obtain ⟨queue, topic, handed⟩ := before
  cases topic with
  | none =>
      cases queue with
      | nil =>
          cases waiting with
          | dontWait => exact .inl ⟨rfl, rfl, (Option.some.inj stepped).symm⟩
          | block => cases stepped
      | cons frame rest =>
          exact .inr (.inl ⟨frame, rest, rfl, rfl,
            (Option.some.inj stepped).symm⟩)
  | some topic =>
      cases queue with
      | nil =>
          cases waiting with
          | dontWait =>
              exact .inr (.inr (.inl ⟨topic, rfl, rfl,
                (Option.some.inj stepped).symm⟩))
          | block => cases stepped
      | cons frame rest =>
          exact .inr (.inr (.inr ⟨topic, frame, rest, rfl, rfl,
            (Option.some.inj stepped).symm⟩))

end Reader

/-- How one message should be handed on: two frames as they are, any other
number as one error. -/
def framed (prost : Prost) : List Frame → Except Error Parts
  | [topic, payload] => .ok ⟨topic.toBytes prost, payload⟩
  | frames => .error (.framing frames.length)

theorem framed_error {prost : Prost} {message : List Frame}
    (odd : message.length ≠ 2) :
    framed prost message = .error (.framing message.length) := by
  match message with
  | [] => rfl
  | [_] => rfl
  | [_, _] => exact absurd rfl odd
  | _ :: _ :: _ :: _ => rfl

/-- A message of two frames, with its frames named. -/
theorem pair_of_length {message : List Frame} (two : message.length = 2) :
    ∃ topic payload, message = [topic, payload] :=
  List.length_eq_two.mp two

namespace Reader

variable {prost : Prost} {waiting : Waiting}

/-- The reader stands between two messages of `messages`, or half way through
one of them: everything before has been handed on as it should be, everything
behind is queued. -/
def InStep (prost : Prost) (messages : List (List Frame)) (reader : Reader) :
    Prop :=
  ∃ read unread, messages = read ++ unread ∧
    reader.handed = read.map (framed prost) ∧
    ((reader.topic = none ∧ reader.queue = unread.flatten) ∨
      ∃ topic payload rest, unread = [topic, payload] :: rest ∧
        reader.topic = some (topic.toBytes prost) ∧
        reader.queue = payload :: rest.flatten)

theorem inStep_arrive {messages : List (List Frame)} {reader : Reader}
    (inStep : reader.InStep prost messages) (message : List Frame) :
    InStep prost (messages ++ [message])
      { reader with queue := reader.queue ++ message } := by
  obtain ⟨read, unread, rfl, handed, place⟩ := inStep
  refine ⟨read, unread ++ [message], List.append_assoc .., handed, ?_⟩
  rcases place with ⟨between, queued⟩ | ⟨topic, payload, rest, rfl, half, queued⟩
  · left
    exact ⟨between, by simp [queued]⟩
  · right
    exact ⟨topic, payload, rest ++ [message], rfl, half, by simp [queued]⟩

theorem inStep_recvBytes {messages : List (List Frame)} {before after : Reader}
    (pairs : ∀ message ∈ messages, message.length = 2)
    (inStep : before.InStep prost messages)
    (stepped : step prost waiting before .recvBytes = some after) :
    after.InStep prost messages := by
  have kept := inStep
  obtain ⟨read, unread, rfl, handed, place⟩ := inStep
  rcases recvBytes_cases stepped with ⟨-, -, rfl⟩ |
    ⟨frame, rest, queue, between, rfl⟩ | ⟨topic, empty, half, rfl⟩ |
    ⟨topic, frame, rest, queue, half, rfl⟩
  · exact kept
  · rcases place with ⟨-, queued⟩ | ⟨_, _, _, -, half, -⟩
    · -- the queue is not empty, so a message is left, and it has two frames
      cases unread with
      | nil => simp [queue] at queued
      | cons message behind =>
          obtain ⟨topic, payload, rfl⟩ := pair_of_length (pairs message (by simp))
          rw [queue] at queued
          simp only [List.flatten_cons, List.cons_append, List.nil_append,
            List.cons.injEq] at queued
          obtain ⟨rfl, rfl⟩ := queued
          exact ⟨read, _, rfl, handed, .inr ⟨frame, payload, behind, rfl, rfl, rfl⟩⟩
    · rw [between] at half
      cases half
  · rcases place with ⟨between, -⟩ | ⟨_, _, _, -, -, queued⟩
    · rw [half] at between
      cases between
    · rw [empty] at queued
      cases queued
  · rcases place with ⟨between, -⟩ | ⟨name, payload, behind, rfl, named, queued⟩
    · rw [half] at between
      cases between
    · rw [half] at named
      cases named
      rw [queue] at queued
      cases queued
      refine ⟨read ++ [[name, frame]], behind, by simp, ?_, .inl ⟨rfl, rfl⟩⟩
      simp [handed, framed]

/-- As long as only two-frame messages arrive, the reader keeps in step with
them, whatever arrives between its two `recv_bytes`. -/
theorem inStep_of_run {trace : List (Reader × Action)} {last : Reader}
    (run : Run (step prost waiting) {} trace last)
    (pairs : ∀ message ∈ arrived trace, message.length = 2) :
    last.InStep prost (arrived trace) := by
  induction run with
  | stay => exact ⟨[], [], rfl, rfl, .inl ⟨rfl, rfl⟩⟩
  | @move trace before after action run stepped induction =>
      cases action with
      | arrive message =>
          rw [arrived_arrive] at pairs ⊢
          cases stepped
          exact inStep_arrive
            (induction fun other member => pairs other (by simp [member])) message
      | recvBytes =>
          rw [arrived_recvBytes] at pairs ⊢
          exact inStep_recvBytes pairs (induction pairs) stepped

/-- No reader ever counts the frames of a message. -/
theorem framing_not_handed {trace : List (Reader × Action)} {last : Reader}
    (run : Run (step prost waiting) {} trace last) (frames : Nat) :
    Except.error (.framing frames) ∉ last.handed := by
  induction run with
  | stay => exact List.not_mem_nil
  | @move trace before after action run stepped induction =>
      cases action with
      | arrive message =>
          cases stepped
          exact induction
      | recvBytes =>
          rcases recvBytes_cases stepped with ⟨-, -, rfl⟩ |
            ⟨_, _, -, -, rfl⟩ | ⟨_, -, -, rfl⟩ | ⟨_, _, _, -, -, rfl⟩
          · exact induction
          · exact induction
          · simp [induction]
          · simp [induction]

/-- Read to the end, every message has been handed on as it should be exactly
when every one of them had two frames. -/
theorem handed_eq_framed_iff {trace : List (Reader × Action)} {last : Reader}
    (run : Run (step prost waiting) {} trace last)
    (drained : last.queue = []) :
    last.handed = (arrived trace).map (framed prost) ↔
      ∀ message ∈ arrived trace, message.length = 2 := by
  constructor
  · intro same message member
    by_contra odd
    have reported : framed prost message ∈ last.handed := by
      rw [same]
      exact List.mem_map_of_mem member
    rw [framed_error odd] at reported
    exact framing_not_handed run _ reported
  · intro pairs
    obtain ⟨read, unread, all, handed, place⟩ := inStep_of_run run pairs
    rcases place with ⟨-, queued⟩ | ⟨_, _, _, -, -, queued⟩
    · have nothing : unread = [] := by
        cases unread with
        | nil => rfl
        | cons message behind =>
            obtain ⟨_, _, rfl⟩ := pair_of_length (pairs message (by simp [all]))
            simp [drained] at queued
      rw [handed, all, nothing, List.append_nil]
    · rw [drained] at queued
      cases queued

/-- A blocking reader loses nothing and reorders nothing: what arrived is what
it handed on, pair by pair, then what it holds, then what is queued. -/
theorem stream_of_run {trace : List (Reader × Action)} {last : Reader}
    (run : Run (step prost .block) {} trace last) :
    ∃ pairs : List Parts, last.handed = pairs.map .ok ∧
      (arrived trace).flatten.map (Frame.toBytes prost) =
        (pairs.flatMap fun parts => [parts.topic, parts.payload.toBytes prost]) ++
          last.topic.toList ++ last.queue.map (Frame.toBytes prost) := by
  induction run with
  | stay => exact ⟨[], rfl, rfl⟩
  | @move trace before after action run stepped induction =>
      obtain ⟨pairs, handed, stream⟩ := induction
      cases action with
      | arrive message =>
          cases stepped
          refine ⟨pairs, handed, ?_⟩
          simp only [arrived_arrive, List.flatten_append, List.map_append, stream]
          simp
      | recvBytes =>
          rw [arrived_recvBytes, stream]
          rcases recvBytes_cases stepped with ⟨-, -, rfl⟩ |
            ⟨frame, rest, queue, between, rfl⟩ | ⟨topic, empty, half, -⟩ |
            ⟨topic, frame, rest, queue, half, rfl⟩
          · exact ⟨pairs, handed, rfl⟩
          · exact ⟨pairs, handed, by simp [queue, between]⟩
          · simp [step, empty, half] at stepped
          · exact ⟨pairs ++ [⟨topic, frame⟩], by simp [handed],
              by simp [queue, half]⟩

/-- What a caller of `recv_nowait` is handed by one call. -/
def reported : Except Error (Option Parts) → List (Except Error Parts)
  | .ok none => []
  | .ok (some parts) => [.ok parts]
  | .error error => [.error error]

end Reader

/-- `Subscriber::drain`: the outcome and the frames left.  Every message is
decoded as it is read, and the first that cannot be ends the drain. -/
def drain (prost : Prost) (last : Option Msg) :
    List Frame → Except Error (Option Msg) × List Frame
  | [] => (.ok last, [])
  | [_] => (.error (.zmq "Resource temporarily unavailable"), [])
  | topic :: payload :: rest =>
      match decode prost ⟨topic.toBytes prost, payload⟩ with
      | .error error => (.error error, rest)
      | .ok msg => drain prost (some msg) rest

/-- A message of a batch can be decoded. -/
def Decodes (prost : Prost) (parts : Parts) : Prop :=
  ∃ msg, decode prost parts = .ok msg

instance (prost : Prost) (parts : Parts) : Decidable (Decodes prost parts) :=
  match decoded : decode prost parts with
  | .ok msg => .isTrue ⟨msg, decoded⟩
  | .error _ => .isFalse fun ⟨_, same⟩ => by rw [decoded] at same; cases same

/-- The newest message of a batch that can be decoded. -/
def newestDecoded (prost : Prost) (batch : List Parts) : Option Msg :=
  (batch.filterMap fun parts => (decode prost parts).toOption).getLast?

theorem newestDecoded_concat (prost : Prost) (batch : List Parts)
    (last : Parts) :
    newestDecoded prost (batch ++ [last]) =
      (decode prost last).toOption.or (newestDecoded prost batch) := by
  unfold newestDecoded
  rw [List.filterMap_append]
  cases decoded : decode prost last with
  | error error => simp [Except.toOption, decoded]
  | ok msg => simp [Except.toOption, decoded]

theorem newestDecoded_eq_none_iff {prost : Prost} {batch : List Parts} :
    newestDecoded prost batch = none ↔ ∀ parts ∈ batch, ¬ Decodes prost parts := by
  simp only [newestDecoded, List.getLast?_eq_none_iff, List.filterMap_eq_nil_iff]
  refine forall₂_congr fun parts _ => ?_
  cases decoded : decode prost parts with
  | error error => simp [Except.toOption, Decodes, decoded]
  | ok msg => simp [Except.toOption, Decodes, decoded]

/-- A drain of messages that all decode ends with the newest. -/
theorem drain_of_decodes {prost : Prost} {batch : List Parts}
    (all : ∀ parts ∈ batch, Decodes prost parts) (last : Option Msg) :
    (drain prost last (framesOf batch)).1 =
      .ok ((newestDecoded prost batch).or last) := by
  induction batch generalizing last with
  | nil => rfl
  | cons parts rest induction =>
      obtain ⟨msg, decoded⟩ := all parts (by simp)
      have later := induction (fun other member => all other (by simp [member]))
        (some msg)
      calc (drain prost last (framesOf (parts :: rest))).1
          = (drain prost (some msg) (framesOf rest)).1 := by
            simp [framesOf, drain, Frame.toBytes, decoded]
        _ = .ok ((newestDecoded prost rest).or (some msg)) := later
        _ = .ok ((newestDecoded prost (parts :: rest)).or last) := by
            cases newest : newestDecoded prost rest <;>
              simp_all [newestDecoded, Except.toOption, List.getLast?_cons]

/-- One message that does not decode ends the drain with an error. -/
theorem drain_of_undecodable {prost : Prost} {batch : List Parts}
    (some_bad : ∃ parts ∈ batch, ¬ Decodes prost parts) (last : Option Msg) :
    ∃ error, (drain prost last (framesOf batch)).1 = .error error := by
  induction batch generalizing last with
  | nil => simp at some_bad
  | cons parts rest induction =>
      cases decoded : decode prost parts with
      | error error =>
          exact ⟨error, by simp [framesOf, drain, Frame.toBytes, decoded]⟩
      | ok msg =>
          obtain ⟨bad, member, undecodable⟩ := some_bad
          have behind : bad ∈ rest := by
            rcases List.mem_cons.mp member with rfl | behind
            · exact absurd ⟨msg, decoded⟩ undecodable
            · exact behind
          obtain ⟨error, ended⟩ := induction ⟨bad, behind, undecodable⟩ (some msg)
          refine ⟨error, ?_⟩
          rw [← ended]
          simp [framesOf, drain, Frame.toBytes, decoded]

theorem nextState_framesOf (prost : Prost) (batch : List Parts) :
    nextState prost (framesOf batch) = batch.getLast?.map (decode prost) := by
  cases batch using List.reverseRecOn with
  | nil => rfl
  | append_singleton batch last => simp [nextState_framesOf_concat]

/-- `drain` yields the newest message that decodes, if there is one, exactly
when the batch has no bad message or no good one; `next_state` does exactly
when the newest message is good or none is. -/
theorem newest_survives_iff (prost : Prost) (batch : List Parts) :
    ((∀ msg, newestDecoded prost batch = some msg →
        (drain prost none (framesOf batch)).1 = .ok (some msg)) ↔
      (∀ parts ∈ batch, Decodes prost parts) ∨
        ∀ parts ∈ batch, ¬ Decodes prost parts) ∧
    ((∀ msg, newestDecoded prost batch = some msg →
        nextState prost (framesOf batch) = some (.ok msg)) ↔
      (∀ parts ∈ batch.getLast?, Decodes prost parts) ∨
        ∀ parts ∈ batch, ¬ Decodes prost parts) := by
  rw [← newestDecoded_eq_none_iff]
  cases newest : newestDecoded prost batch with
  | none => simp
  | some fresh =>
      constructor
      · simp only [Option.some.injEq, forall_eq', reduceCtorEq, or_false]
        constructor
        · intro yielded
          by_contra bad
          obtain ⟨error, ended⟩ := drain_of_undecodable (by simpa using bad) none
          rw [ended] at yielded
          cases yielded
        · intro all
          rw [drain_of_decodes all, newest]
          rfl
      · simp only [Option.some.injEq, forall_eq', reduceCtorEq, or_false]
        rw [nextState_framesOf]
        cases batch using List.reverseRecOn with
        | nil => cases newest
        | append_singleton batch last =>
            rw [newestDecoded_concat] at newest
            cases decoded : decode prost last with
            | error error => simp [Decodes, decoded]
            | ok msg =>
                have same : msg = fresh := by
                  simpa [decoded, Except.toOption] using newest
                simp [Decodes, decoded, same]

namespace Trial

def prost : Prost where
  encodeToVec _ := []
  decode _ := .error "buffer underflow"

/-- A sweep in an envelope of the given schema. -/
def sweep (schema : UInt32) : Envelope where
  schemaVersion := schema
  body := some (.fault { condition := some "well" })

def topicFrame : Frame :=
  .bytes (RustText.asBytes "fault")

/-- A message of one frame, then a sound one, then four `recv_bytes`. -/
def shifting : List Reader.Action :=
  [.arrive [topicFrame], .arrive [topicFrame, .encoded (sweep 11)],
    .recvBytes, .recvBytes, .recvBytes, .recvBytes]

/-- The topic of the sound message is taken for the payload of the other. -/
def shifted : List (Except Error Parts) :=
  [.ok ⟨RustText.asBytes "fault", topicFrame⟩,
    .error (.zmq "Resource temporarily unavailable")]

theorem follow_shifting :
    ∃ trace,
      follow (Reader.step prost .dontWait) {} shifting =
        some (trace, { handed := shifted }) ∧
      Reader.arrived trace = [[topicFrame], [topicFrame, .encoded (sweep 11)]] :=
  ⟨_, rfl, rfl⟩

theorem handed_eq_framed_iff_shifting :
    shifted = [[topicFrame], [topicFrame, .encoded (sweep 11)]].map
        (framed prost) ↔
      ∀ message ∈ [[topicFrame], [topicFrame, .encoded (sweep 11)]],
        message.length = 2 := by
  obtain ⟨trace, followed, arrivals⟩ := follow_shifting
  rw [← arrivals]
  exact Reader.handed_eq_framed_iff (run_of_follow followed) rfl

theorem pairs_shifted :
    ∃ trace last,
      Run (Reader.step prost .dontWait) {} trace last ∧ last.queue = [] ∧
      Reader.arrived trace = [[topicFrame], [topicFrame, .encoded (sweep 11)]] ∧
      last.handed ≠ (Reader.arrived trace).map (framed prost) := by
  obtain ⟨trace, followed, arrivals⟩ := follow_shifting
  refine ⟨trace, _, run_of_follow followed, rfl, arrivals, ?_⟩
  rw [arrivals]
  simp [shifted, framed, topicFrame]

/-- A sweep, and behind it one from a publisher of an older schema. -/
def batch : List Parts :=
  [⟨RustText.asBytes "fault", .encoded (sweep 11)⟩,
    ⟨RustText.asBytes "fault", .encoded (sweep 10)⟩]

theorem sweep_lost :
    newestDecoded prost batch = some ⟨"fault", sweep 11⟩ ∧
      (drain prost none (framesOf batch)).1 = .error (.schemaMismatch 10) ∧
      nextState prost (framesOf batch) = some (.error (.schemaMismatch 10)) := by
  have good : decode prost ⟨RustText.asBytes "fault", .encoded (sweep 11)⟩ =
      .ok ⟨"fault", sweep 11⟩ :=
    decode_encode prost (by decide) rfl
  have bad : decode prost ⟨RustText.asBytes "fault", .encoded (sweep 10)⟩ =
      .error (.schemaMismatch 10) := by
    simp [decode, Frame.decode, sweep, TOPICS, SCHEMA_VERSION]
  refine ⟨?_, ?_, ?_⟩
  · simp [newestDecoded, batch, good, bad, Except.toOption]
  · simp [batch, framesOf, drain, Frame.toBytes, good, bad]
  · simp [nextState_framesOf, batch, bad]

end Trial

end Wire
