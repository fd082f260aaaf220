import Loa.FifoChannel

/-!
# A consumer of the newest

A consumer waits on a channel, takes everything that is queued, and acts on the
last item that it took.  Items that came before it are never acted on, and the
channel may fill again at any time.
-/

namespace NewestDrain

/-- What a consumer has in its hand: nothing, an item that a newer one may
replace, or the item that it acts on. -/
inductive Hand (Item : Type)
  | empty
  | draining (item : Item)
  | ready (item : Item)
  deriving DecidableEq

/-- An item that was acted on, its place among those sent, and what came of it. -/
structure Act (Item Outcome : Type) where
  number : Nat
  item : Item
  outcome : Outcome
  deriving DecidableEq

structure Consumer (Item Outcome : Type) where
  channel : FifoChannel Item := .empty
  hand : Hand Item := .empty
  acts : List (Act Item Outcome) := []

namespace Consumer

variable {Item Outcome : Type}

/-- The items that the consumer has taken. -/
def taken (consumer : Consumer Item Outcome) : Nat :=
  consumer.channel.sent.length - consumer.channel.queue.length

def send (consumer : Consumer Item Outcome) (item : Item) :
    Consumer Item Outcome :=
  { consumer with channel := consumer.channel.send item }

/-- Take the oldest item that is queued, in place of one that is in the hand. -/
def recv (consumer : Consumer Item Outcome) : Option (Consumer Item Outcome) :=
  match consumer.hand with
  | .ready _ => none
  | .empty | .draining _ =>
      consumer.channel.recv.map fun (item, channel) =>
        { consumer with channel, hand := .draining item }

/-- Find the channel empty. -/
def dry (consumer : Consumer Item Outcome) : Option (Consumer Item Outcome) :=
  match consumer.hand, consumer.channel.queue with
  | .draining item, [] => some { consumer with hand := .ready item }
  | _, _ => none

/-- Act on the item in the hand. -/
def act (consumer : Consumer Item Outcome) (outcome : Outcome) :
    Option (Consumer Item Outcome) :=
  match consumer.hand with
  | .ready item =>
      some
        { consumer with
          hand := .empty
          acts := consumer.acts ++ [⟨consumer.taken - 1, item, outcome⟩] }
  | .empty | .draining _ => none

/-- The last item that was taken, newer than those that were acted on. -/
def Fresh (consumer : Consumer Item Outcome) (item : Item) : Prop :=
  ∃ number, consumer.taken = number + 1 ∧
    consumer.channel.sent[number]? = some item ∧
    ∀ act ∈ consumer.acts, act.number < number

/-- An item in the hand is fresh; with an empty hand the last item that was taken
was acted on. -/
inductive Holds (consumer : Consumer Item Outcome) : Hand Item → Prop
  | empty (last : consumer.acts.getLast?.map Act.number =
      if consumer.taken = 0 then none else some (consumer.taken - 1)) :
      Holds consumer .empty
  | draining {item : Item} (fresh : consumer.Fresh item) :
      Holds consumer (.draining item)
  | ready {item : Item} (fresh : consumer.Fresh item) :
      Holds consumer (.ready item)

structure Sound (consumer : Consumer Item Outcome) : Prop where
  item : ∀ act ∈ consumer.acts,
    consumer.channel.sent[act.number]? = some act.item
  increasing : consumer.acts.Pairwise fun earlier later =>
    earlier.number < later.number
  older : ∀ act ∈ consumer.acts, act.number < consumer.taken
  holds : consumer.Holds consumer.hand

theorem sound_start : ({} : Consumer Item Outcome).Sound where
  item := by simp
  increasing := .nil
  older := by simp
  holds := .empty rfl

variable {consumer after : Consumer Item Outcome}

theorem taken_send (item : Item) : (consumer.send item).taken = consumer.taken := by
  have shorter := consumer.channel.kept.length_le
  simp only [taken, send, FifoChannel.send_sent, FifoChannel.send_queue,
    List.length_append, List.length_singleton]
  omega

/-- What is sent stays where it is. -/
theorem sent_send {place : Nat} {old : Item} (item : Item)
    (there : consumer.channel.sent[place]? = some old) :
    (consumer.send item).channel.sent[place]? = some old := by
  obtain ⟨inside, -⟩ := List.getElem?_eq_some_iff.mp there
  rw [send, FifoChannel.send_sent, List.getElem?_append_left inside, there]

theorem Fresh.send {old : Item} (fresh : consumer.Fresh old) (item : Item) :
    (consumer.send item).Fresh old := by
  obtain ⟨number, taken, there, newer⟩ := fresh
  exact ⟨number, (taken_send item).trans taken, sent_send item there, newer⟩

theorem Sound.send (sound : consumer.Sound) (item : Item) :
    (consumer.send item).Sound := by
  have taken := consumer.taken_send item
  refine ⟨fun act member => sent_send item (sound.item act member),
    sound.increasing, fun act member => taken ▸ sound.older act member, ?_⟩
  change (consumer.send item).Holds consumer.hand
  have holds := sound.holds
  generalize consumer.hand = hand at holds
  cases holds with
  | empty last => exact .empty (taken ▸ last)
  | draining fresh => exact .draining (fresh.send item)
  | ready fresh => exact .ready (fresh.send item)

/-- A receive takes one more item, and it has that item in its hand. -/
theorem recv_eq_some (received : consumer.recv = some after) :
    ∃ item, consumer.channel.queue = item :: after.channel.queue ∧
      after.channel.sent = consumer.channel.sent ∧
      after.hand = .draining item ∧ after.acts = consumer.acts ∧
      after.taken = consumer.taken + 1 ∧
      consumer.channel.sent[consumer.taken]? = some item := by
  have found : ∃ item channel, consumer.channel.recv = some (item, channel) ∧
      after = { consumer with channel, hand := .draining item } := by
    unfold recv at received
    split at received
    · cases received
    all_goals
      obtain ⟨⟨item, channel⟩, taken, rfl⟩ := Option.map_eq_some_iff.mp received
      exact ⟨item, channel, taken, rfl⟩
  obtain ⟨item, channel, taken, rfl⟩ := found
  obtain ⟨queued, sent⟩ := FifoChannel.recv_eq_some taken
  obtain ⟨old, whole⟩ := consumer.channel.kept
  have length := congrArg List.length whole
  rw [queued] at length whole
  simp only [List.length_append, List.length_cons] at length
  have place : consumer.taken = old.length := by
    unfold Consumer.taken
    rw [queued, List.length_cons]
    omega
  refine ⟨item, queued, sent, rfl, rfl, ?_, ?_⟩
  · rw [place]
    simp only [Consumer.taken, sent]
    omega
  · rw [place, ← whole]
    simp

theorem Sound.recv (sound : consumer.Sound)
    (received : consumer.recv = some after) : after.Sound := by
  obtain ⟨item, -, sent, hand, acts, taken, there⟩ := recv_eq_some received
  refine ⟨?_, acts ▸ sound.increasing, fun act member => ?_, ?_⟩
  · rw [acts, sent]
    exact sound.item
  · rw [acts] at member
    have older := sound.older act member
    omega
  · rw [hand]
    refine .draining ⟨consumer.taken, taken, sent ▸ there, ?_⟩
    rw [acts]
    exact sound.older

/-- What a consumer finds to act on is the newest item there is. -/
theorem dry_eq_some (dried : consumer.dry = some after) :
    ∃ item, consumer.hand = .draining item ∧ consumer.channel.queue = [] ∧
      after = { consumer with hand := .ready item } := by
  unfold dry at dried
  split at dried
  · rename_i item hand queue
    exact ⟨item, hand, queue, (Option.some.inj dried).symm⟩
  · cases dried

theorem Sound.dry (sound : consumer.Sound) (dried : consumer.dry = some after) :
    after.Sound := by
  obtain ⟨item, hand, -, rfl⟩ := dry_eq_some dried
  refine ⟨sound.item, sound.increasing, sound.older, ?_⟩
  have holds := sound.holds
  rw [hand] at holds
  cases holds with
  | draining fresh => exact .ready fresh

theorem act_eq_some {outcome : Outcome} (acted : consumer.act outcome = some after) :
    ∃ item, consumer.hand = .ready item ∧
      after =
        { consumer with
          hand := .empty
          acts := consumer.acts ++ [⟨consumer.taken - 1, item, outcome⟩] } := by
  unfold act at acted
  split at acted
  · rename_i item hand
    exact ⟨item, hand, (Option.some.inj acted).symm⟩
  all_goals cases acted

theorem Sound.act (sound : consumer.Sound) {outcome : Outcome}
    (acted : consumer.act outcome = some after) : after.Sound := by
  obtain ⟨item, hand, rfl⟩ := act_eq_some acted
  have holds := sound.holds
  rw [hand] at holds
  cases holds with
  | ready fresh =>
      obtain ⟨number, taken, there, newer⟩ := fresh
      rw [taken, Nat.add_sub_cancel]
      refine ⟨?_, ?_, ?_, .empty ?_⟩
      · intro act member
        obtain earlier | same := List.mem_append.mp member
        · exact sound.item act earlier
        · obtain rfl := List.mem_singleton.mp same
          exact there
      · refine List.pairwise_append.mpr ⟨sound.increasing,
          List.pairwise_singleton _ _, fun act earlier last same => ?_⟩
        obtain rfl := List.mem_singleton.mp same
        exact newer act earlier
      · intro act member
        change act.number < consumer.taken
        obtain earlier | same := List.mem_append.mp member
        · exact sound.older act earlier
        · obtain rfl := List.mem_singleton.mp same
          exact taken ▸ Nat.lt_succ_self number
      · change _ = if consumer.taken = 0 then _ else some (consumer.taken - 1)
        simp [taken]

/-- With an empty hand and nothing queued, the last item that was acted on is the
last one that was sent. -/
theorem Sound.newest (sound : consumer.Sound) (idle : consumer.hand = .empty)
    (drained : consumer.channel.queue = []) :
    consumer.acts.getLast?.map Act.item = consumer.channel.sent.getLast? := by
  have holds := sound.holds
  rw [idle] at holds
  cases holds with
  | empty last =>
      have all : consumer.taken = consumer.channel.sent.length := by
        simp [taken, drained]
      rw [all] at last
      cases acted : consumer.acts.getLast? with
      | none =>
          rw [acted] at last
          have nothing : consumer.channel.sent.length = 0 := by
            by_contra some
            rw [if_neg some] at last
            cases last
          simp [List.eq_nil_of_length_eq_zero nothing]
      | some act =>
          have there := sound.item act (List.mem_of_getLast? acted)
          rw [acted] at last
          split_ifs at last
          · cases last
          · rw [Option.map_some, ← there, List.getLast?_eq_getElem?]
            exact congrArg (consumer.channel.sent[·]?) (Option.some.inj last)

end Consumer

end NewestDrain
