import Loa.WireContract

/-!
# What the contract of the wire accepts

Both directions of the contract and the relay between them, characterized: what
`encode` sends, what `decode` takes, what `routeParts` forwards, and what
becomes of a forwarded frame at its consumer.
-/

namespace Wire

open RustText

/-- The envelope may travel under the topic. -/
def Belongs (topic : String) (env : Envelope) : Prop :=
  env.schemaVersion = SCHEMA_VERSION ∧
    ∃ body, bodyName env = some body ∧ bodyAllowed topic body = true

/-- A body under a topic it is allowed on is under a topic of the list. -/
theorem topic_of_bodyAllowed {topic body : String} {env : Envelope}
    (named : bodyName env = some body) (allowed : bodyAllowed topic body = true) :
    topic ∈ TOPICS := by
  have listed : body ∈ TOPICS := by
    obtain ⟨payload, -, rfl⟩ := Option.map_eq_some_iff.mp named
    cases payload <;> simp [TOPICS]
  rcases Bool.or_eq_true_iff.mp allowed with own | aliased
  · rw [beq_iff_eq.mp own]
    exact listed
  · obtain ⟨entry, member, matched⟩ := List.any_eq_true.mp aliased
    have state : entry.1 = "state" := by
      rw [List.mem_singleton.mp member]
    have same : entry.1 = topic := beq_iff_eq.mp (Bool.and_eq_true_iff.mp matched).1
    rw [← same, state]
    decide

theorem encode_eq_ok_iff {topic : String} {env : Envelope} {parts : Parts} :
    encode topic env = .ok parts ↔
      Belongs topic env ∧ parts = ⟨asBytes topic, .encoded env⟩ := by
  unfold encode Belongs
  by_cases schema : env.schemaVersion = SCHEMA_VERSION
  · cases named : bodyName env with
    | none => simp [schema]
    | some body =>
        by_cases allowed : bodyAllowed topic body = true
        · simp only [schema, ne_eq, not_true_eq_false, if_false, allowed,
            if_true, Except.ok.injEq, Option.some.injEq, true_and]
          exact ⟨fun same => ⟨⟨body, rfl, allowed⟩, same.symm⟩,
            fun same => same.2.symm⟩
        · simp [schema, allowed]
  · simp [schema]

/-- No topic has the replacement character in it, so the lossy reading of a
topic frame takes no other bytes for one. -/
theorem fromUtf8Lossy_eq_iff {topic : String} (listed : topic ∈ TOPICS)
    {name : Bytes} : fromUtf8Lossy name = topic ↔ name = asBytes topic := by
  constructor
  · have plain : ∀ topic ∈ TOPICS, '\uFFFD' ∉ topic.toList := by decide
    exact asBytes_of_fromUtf8Lossy (plain topic listed)
  · rintro rfl
    exact fromUtf8Lossy_asBytes topic

theorem decode_eq_ok_iff {prost : Prost} {parts : Parts} {msg : Msg} :
    decode prost parts = .ok msg ↔
      msg.topic ∈ TOPICS ∧ parts.topic = asBytes msg.topic ∧
        parts.payload.decode prost = .ok msg.env ∧
        Belongs msg.topic msg.env := by
  constructor
  · intro decoded
    unfold decode at decoded
    by_cases listed : fromUtf8Lossy parts.topic ∈ TOPICS
    · cases content : parts.payload.decode prost with
      | error text => simp [listed, content] at decoded
      | ok env =>
          by_cases schema : env.schemaVersion = SCHEMA_VERSION
          · cases named : bodyName env with
            | none => simp [listed, content, schema, named] at decoded
            | some body =>
                by_cases allowed :
                    bodyAllowed (fromUtf8Lossy parts.topic) body = true
                · simp only [listed, content, schema, named, allowed,
                    not_true_eq_false, if_false, ne_eq, if_true,
                    Except.ok.injEq] at decoded
                  subst decoded
                  exact ⟨listed, (fromUtf8Lossy_eq_iff listed).mp rfl, rfl,
                    schema, body, named, allowed⟩
                · simp [listed, content, schema, named, allowed] at decoded
          · simp [listed, content, schema] at decoded
    · simp [listed] at decoded
  · rintro ⟨listed, named, content, schema, body, carried, allowed⟩
    simp [decode, named, listed, content, schema, carried, allowed]

/-- The relay forwards the payload of the inbound topics in the table, and of
no others. -/
theorem routeParts_eq_ok_iff {name : Bytes} {payload : Frame} {relay : Parts} :
    routeParts name payload = .ok relay ↔
      ∃ route ∈ ROUTES, name = asBytes route.1 ∧
        relay = ⟨asBytes route.2, payload⟩ := by
  unfold routeParts
  cases read : fromUtf8 name with
  | none =>
      have unread : ∀ text, name ≠ asBytes text := by
        rintro text rfl
        simp at read
      simp [unread]
  | some inbound =>
      obtain rfl := fromUtf8_eq_some_iff.mp read
      by_cases oled : inbound = "oled"
      · simp [ROUTES, oled, asBytes_injective.eq_iff, eq_comm]
      by_cases ring : inbound = "ring"
      · simp [ROUTES, ring, asBytes_injective.eq_iff, eq_comm]
      · have unrouted :
            ROUTES.find? (fun route => route.1 == inbound) = none := by
          simp [ROUTES, Ne.symm oled, Ne.symm ring]
        simp only [unrouted]
        simp [ROUTES, asBytes_injective.eq_iff, oled, ring]

theorem belongs_ripperdoc_iff {env : Envelope} :
    Belongs "ripperdoc" env ↔
      env.schemaVersion = SCHEMA_VERSION ∧
        ∃ face, env.body = some (.ripperdoc face) := by
  unfold Belongs bodyName
  refine and_congr_right fun _ => ?_
  cases env.body with
  | none => simp
  | some body => cases body <;> simp [bodyAllowed, ALIASES]

theorem belongs_ring_iff {env : Envelope} :
    Belongs "ring" env ↔
      env.schemaVersion = SCHEMA_VERSION ∧
        ∃ ring, env.body = some (.ring ring) := by
  unfold Belongs bodyName
  refine and_congr_right fun _ => ?_
  cases env.body with
  | none => simp
  | some body => cases body <;> simp [bodyAllowed, ALIASES]

/-- The contract, with the bytes that travel: what `encode` sends, how it reads
back, what `decode` takes, what the relay forwards, and which forwarded frames
their consumer takes. -/
theorem contract_exact (prost : Prost) (topic : String) (env : Envelope)
    (roundTrip : prost.decode (prost.encodeToVec env) = .ok env) :
    ((∃ parts, encode topic env = .ok parts) ↔ Belongs topic env) ∧
    (∀ parts, encode topic env = .ok parts →
      decode prost ⟨parts.topic, .bytes (parts.payload.toBytes prost)⟩ =
        .ok ⟨topic, env⟩) ∧
    (∀ name content msg,
      decode prost ⟨name, .bytes content⟩ = .ok msg ↔
        msg.topic ∈ TOPICS ∧ name = asBytes msg.topic ∧
          prost.decode content = .ok msg.env ∧ Belongs msg.topic msg.env) ∧
    (∀ name content relay,
      routeParts name (.bytes content) = .ok relay ↔
        ∃ route ∈ ROUTES, name = asBytes route.1 ∧
          relay = ⟨asBytes route.2, .bytes content⟩) ∧
    (∀ name content relay, routeParts name (.bytes content) = .ok relay →
      ((∃ msg, decode prost relay = .ok msg) ↔
        ∃ carried, prost.decode content = .ok carried ∧
          carried.schemaVersion = SCHEMA_VERSION ∧
          ((name = asBytes "oled" ∧ ∃ face, carried.body = some (.ripperdoc face)) ∨
            (name = asBytes "ring" ∧ ∃ ring, carried.body = some (.ring ring))))) := by
  refine ⟨?_, ?_, ?_, ?_, ?_⟩
  · simp [encode_eq_ok_iff]
  · intro parts encoded
    obtain ⟨belongs, rfl⟩ := encode_eq_ok_iff.mp encoded
    obtain ⟨-, body, named, allowed⟩ := id belongs
    exact decode_eq_ok_iff.mpr
      ⟨topic_of_bodyAllowed named allowed, rfl, roundTrip, belongs⟩
  · intro name content msg
    exact decode_eq_ok_iff
  · intro name content relay
    exact routeParts_eq_ok_iff
  · intro name content relay routed
    obtain ⟨route, member, rfl, rfl⟩ := routeParts_eq_ok_iff.mp routed
    have consumer : (∃ msg, decode prost ⟨asBytes route.2, .bytes content⟩ = .ok msg) ↔
        ∃ carried, prost.decode content = .ok carried ∧ Belongs route.2 carried := by
      constructor
      · rintro ⟨msg, decoded⟩
        obtain ⟨-, named, content, belongs⟩ := decode_eq_ok_iff.mp decoded
        rw [← asBytes_injective named] at belongs
        exact ⟨msg.env, content, belongs⟩
      · rintro ⟨carried, content, belongs⟩
        obtain ⟨-, body, named, allowed⟩ := id belongs
        exact ⟨⟨route.2, carried⟩, decode_eq_ok_iff.mpr
          ⟨topic_of_bodyAllowed named allowed, rfl, content, belongs⟩⟩
    rw [consumer]
    refine exists_congr fun carried => and_congr_right fun _ => ?_
    simp only [ROUTES, List.mem_cons, List.not_mem_nil, or_false] at member
    rcases member with rfl | rfl
    · simp [belongs_ripperdoc_iff, asBytes_injective.eq_iff]
    · simp [belongs_ring_iff, asBytes_injective.eq_iff]

namespace Trial

/-- A face without any field set, under the schema of this build. -/
def bareFace : Envelope :=
  envelope (.ripperdoc {})

/-- Its encoding: schema_version = 11, and an empty message as field 2. -/
def bareFaceBytes : Bytes :=
  [0x08, 0x0B, 0x12, 0x00]

/-- The library on that one envelope. -/
def faceProst : Prost where
  encodeToVec env := if env = bareFace then bareFaceBytes else []
  decode content :=
    if content = bareFaceBytes then .ok bareFace
    else .error "failed to decode Protobuf message: buffer underflow"

theorem contract_exact_face :
    faceProst.decode (faceProst.encodeToVec bareFace) = .ok bareFace ∧
      decode faceProst ⟨asBytes "state", .bytes bareFaceBytes⟩ =
        .ok ⟨"state", bareFace⟩ := by
  have roundTrip :
      faceProst.decode (faceProst.encodeToVec bareFace) = .ok bareFace := by
    simp [faceProst]
  have encoded : encode "state" bareFace =
      .ok ⟨asBytes "state", .encoded bareFace⟩ := rfl
  have sent : Frame.toBytes faceProst (.encoded bareFace) = bareFaceBytes := by
    simp [Frame.toBytes, faceProst]
  have back := (contract_exact faceProst "state" bareFace roundTrip).2.1 _ encoded
  rw [sent] at back
  exact ⟨roundTrip, back⟩

end Trial

end Wire
