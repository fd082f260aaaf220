import Loa.TransitionRun

/-!
# A receiver that starts anew

A sender publishes what changes, and on an ask all that it has.  A receiver merges
what comes, in order; when it starts anew it forgets everything, and loses some of
what was on its way.  What it has heard before the first full message behind its
start may be a part of anything.  From that message on it is in step, whatever was
lost before: that is proved here once, from laws on single steps of the sender and
single messages.
-/

namespace RestartResync

open TransitionRun

variable {State Input Message View : Type}

/-- How the sender speaks and how the receiver merges. -/
structure Protocol (State Input Message View : Type) where
  act : State → Input → List Message × State
  full : State → Message
  merge : View → Message → View
  fresh : View

/-- A message on its way; for a full one, the state that it was given in. -/
structure Entry (State Message : Type) where
  message : Message
  answered : Option State

/-- The two sides, what is on its way, and whether the receiver has taken a full
message since its start. -/
structure Link (State Message View : Type) where
  state : State
  queue : List (Entry State Message)
  view : View
  told : Bool

inductive Event (Input View : Type)
  | act (input : Input)
  | ask
  | take
  | restart (lost : Nat)
  /-- What else the receiver does. -/
  | other (after : View)

variable (protocol : Protocol State Input Message View)

def news (messages : List Message) : List (Entry State Message) :=
  messages.map fun message => ⟨message, none⟩

def step (link : Link State Message View) :
    Event Input View → Option (Link State Message View)
  | .act input =>
      some
        { link with
          state := (protocol.act link.state input).2
          queue := link.queue ++ news (protocol.act link.state input).1 }
  | .ask =>
      some
        { link with
          queue := link.queue ++ [⟨protocol.full link.state, some link.state⟩] }
  | .take =>
      match link.queue with
      | [] => none
      | entry :: rest =>
          some
            { link with
              queue := rest
              view := protocol.merge link.view entry.message
              told := link.told || entry.answered.isSome }
  | .restart lost =>
      some
        { link with
          queue := link.queue.drop lost
          view := protocol.fresh
          told := false }
  | .other after => some { link with view := after }

/-- What the receiver will have once it has taken all that is on its way. -/
def carried (view : View) (queue : List (Entry State Message)) : View :=
  queue.foldl (fun view entry => protocol.merge view entry.message) view

theorem carried_append (view : View) (first second : List (Entry State Message)) :
    carried protocol view (first ++ second) =
      carried protocol (carried protocol view first) second :=
  List.foldl_append ..

theorem carried_news (view : View) (messages : List Message) :
    carried protocol view (news messages : List (Entry State Message)) =
      messages.foldl protocol.merge view :=
  List.foldl_map ..

/-- A message is `ours` to a state that has everything it carries; a view is
`clean` to a state that has everything it holds; and it is `synced` where it holds
what the state has.  Two views are the `same` that this sender's messages cannot
tell apart. -/
structure Laws (same : View → View → Prop) (ours : State → Message → Prop)
    (clean synced : State → View → Prop) : Prop where
  same_merge : ∀ {first second}, same first second → ∀ message,
    same (protocol.merge first message) (protocol.merge second message)
  clean_same : ∀ {state first second}, same first second → clean state first →
    clean state second
  synced_same : ∀ {state first second}, same first second → synced state first →
    synced state second
  clean_fresh : ∀ state, clean state protocol.fresh
  clean_merge : ∀ {state view message}, ours state message → clean state view →
    clean state (protocol.merge view message)
  clean_act : ∀ {state view}, clean state view → ∀ input,
    clean (protocol.act state input).2 view
  ours_full : ∀ state, ours state (protocol.full state)
  ours_news : ∀ state input, ∀ message ∈ (protocol.act state input).1,
    ours (protocol.act state input).2 message
  ours_act : ∀ {state message}, ours state message → ∀ input,
    ours (protocol.act state input).2 message
  clean_of_synced : ∀ {state view}, synced state view → clean state view
  synced_full : ∀ {state view}, clean state view →
    synced state (protocol.merge view (protocol.full state))
  synced_act : ∀ {state view}, synced state view → ∀ input,
    synced (protocol.act state input).2
      ((protocol.act state input).1.foldl protocol.merge view)

section Runs

variable {same : View → View → Prop} {ours : State → Message → Prop}
  {clean synced : State → View → Prop}

theorem same_carried (laws : Laws protocol same ours clean synced)
    {first second : View} (alike : same first second)
    (queue : List (Entry State Message)) :
    same (carried protocol first queue) (carried protocol second queue) := by
  induction queue generalizing first second with
  | nil => exact alike
  | cons entry rest induction => exact induction (laws.same_merge alike entry.message)

/-- Every full message on its way has all that is in front of it and all that the
receiver holds, and brings the receiver in step with what the sender is now. -/
structure Sound (ours : State → Message → Prop) (clean synced : State → View → Prop)
    (link : Link State Message View) : Prop where
  held : clean link.state link.view
  own : ∀ entry ∈ link.queue, ours link.state entry.message
  ordered : link.queue.Pairwise fun earlier later =>
    ∀ given ∈ later.answered, ours given earlier.message
  given : ∀ entry ∈ link.queue, ∀ given ∈ entry.answered,
    entry.message = protocol.full given ∧ clean given link.view
  follows : ∀ entry later, entry :: later <:+ link.queue →
    ∀ given ∈ entry.answered, ∀ view, synced given view →
      synced link.state (carried protocol view later)
  told : link.told = true →
    synced link.state (carried protocol link.view link.queue)

theorem suffix_append_cases {entry : Entry State Message}
    {later first second : List (Entry State Message)}
    (suffix : entry :: later <:+ first ++ second) :
    (∃ rest, later = rest ++ second ∧ entry :: rest <:+ first) ∨
      entry :: later <:+ second := by
  obtain ⟨front, whole⟩ := suffix
  rcases List.append_eq_append_iff.mp whole with
    ⟨middle, rfl, rest⟩ | ⟨middle, rfl, rest⟩
  · cases middle with
    | nil => exact .inr ⟨[], rest⟩
    | cons head middle =>
        obtain ⟨rfl, rfl⟩ := List.cons.inj rest
        exact .inl ⟨middle, rfl, front, rfl⟩
  · exact .inr ⟨middle, rest.symm⟩

variable {protocol} {link after : Link State Message View}

theorem answered_of_news {messages : List Message} {entry : Entry State Message}
    (member : entry ∈ news messages) : entry.answered = none := by
  obtain ⟨message, -, rfl⟩ := List.mem_map.mp member
  rfl

theorem message_of_news {messages : List Message} {entry : Entry State Message}
    (member : entry ∈ news messages) : entry.message ∈ messages := by
  obtain ⟨message, listed, rfl⟩ := List.mem_map.mp member
  exact listed

theorem sound_start (laws : Laws protocol same ours clean synced) {state : State}
    {messages : List Message} (own : ∀ message ∈ messages, ours state message) :
    Sound protocol ours clean synced ⟨state, news messages, protocol.fresh, false⟩ where
  held := laws.clean_fresh state
  own := fun entry member => own _ (message_of_news member)
  ordered := by
    refine List.pairwise_of_forall_mem_list fun earlier _ later member given full => ?_
    rw [answered_of_news member] at full
    cases full
  given := by
    intro entry member given full
    rw [answered_of_news member] at full
    cases full
  follows := by
    intro entry later suffix given full
    rw [answered_of_news (suffix.subset List.mem_cons_self)] at full
    cases full
  told := by
    intro impossible
    cases impossible

/-- The sender goes on, and what it publishes brings a receiver in step along. -/
theorem Sound.act (laws : Laws protocol same ours clean synced)
    (sound : Sound protocol ours clean synced link) (input : Input) :
    Sound protocol ours clean synced
      { link with
        state := (protocol.act link.state input).2
        queue := link.queue ++ news (protocol.act link.state input).1 } where
  held := laws.clean_act sound.held input
  own := by
    intro entry member
    rcases List.mem_append.mp member with old | new
    · exact laws.ours_act (sound.own entry old) input
    · exact laws.ours_news _ input _ (message_of_news new)
  ordered := by
    refine List.pairwise_append.mpr ⟨sound.ordered, ?_, ?_⟩
    · refine List.pairwise_of_forall_mem_list fun _ _ later member given full => ?_
      rw [answered_of_news member] at full
      cases full
    · intro _ _ later member given full
      rw [answered_of_news member] at full
      cases full
  given := by
    intro entry member given full
    rcases List.mem_append.mp member with old | new
    · exact sound.given entry old given full
    · rw [answered_of_news new] at full
      cases full
  follows := by
    intro entry later suffix given full view synced
    rcases suffix_append_cases suffix with ⟨rest, rfl, old⟩ | new
    · rw [carried_append, carried_news]
      exact laws.synced_act (sound.follows entry rest old given full view synced) input
    · rw [answered_of_news (new.subset List.mem_cons_self)] at full
      cases full
  told := by
    intro told
    dsimp only
    rw [carried_append, carried_news]
    exact laws.synced_act (sound.told told) input

/-- A full message is sent behind all the others. -/
theorem Sound.ask (laws : Laws protocol same ours clean synced)
    (sound : Sound protocol ours clean synced link) :
    Sound protocol ours clean synced
      { link with
        queue := link.queue ++ [⟨protocol.full link.state, some link.state⟩] } where
  held := sound.held
  own := by
    intro entry member
    rcases List.mem_append.mp member with old | new
    · exact sound.own entry old
    · rw [List.mem_singleton.mp new]
      exact laws.ours_full link.state
  ordered := by
    refine List.pairwise_append.mpr ⟨sound.ordered, List.pairwise_singleton .., ?_⟩
    intro earlier old later new given full
    rw [List.mem_singleton.mp new] at full
    cases full
    exact sound.own earlier old
  given := by
    intro entry member given full
    rcases List.mem_append.mp member with old | new
    · exact sound.given entry old given full
    · rw [List.mem_singleton.mp new] at full ⊢
      cases full
      exact ⟨rfl, sound.held⟩
  follows := by
    intro entry later suffix given full view synced
    rcases suffix_append_cases suffix with ⟨rest, rfl, old⟩ | new
    · rw [carried_append]
      have behind := sound.follows entry rest old given full view synced
      exact laws.synced_full (laws.clean_of_synced behind)
    · rcases List.suffix_cons_iff.mp new with whole | nothing
      · cases whole
        cases full
        exact synced
      · cases List.suffix_nil.mp nothing
  told := by
    intro told
    dsimp only
    rw [carried_append]
    exact laws.synced_full (laws.clean_of_synced (sound.told told))

/-- The receiver merges the message in front. -/
theorem Sound.take (laws : Laws protocol same ours clean synced)
    (sound : Sound protocol ours clean synced link) {entry : Entry State Message}
    {rest : List (Entry State Message)} (queue : link.queue = entry :: rest) :
    Sound protocol ours clean synced
      { link with
        queue := rest
        view := protocol.merge link.view entry.message
        told := link.told || entry.answered.isSome } := by
  obtain ⟨held, own, ordered, given, follows, told⟩ := sound
  rw [queue] at own ordered given follows told
  obtain ⟨front, ordered⟩ := List.pairwise_cons.mp ordered
  refine ⟨laws.clean_merge (own entry List.mem_cons_self) held, ?_, ordered, ?_, ?_, ?_⟩
  · exact fun other member => own other (List.mem_cons_of_mem _ member)
  · intro other member state full
    obtain ⟨same, clean⟩ := given other (List.mem_cons_of_mem _ member) state full
    exact ⟨same, laws.clean_merge (front other member state full) clean⟩
  · intro other later suffix
    exact follows other later (suffix.trans (List.suffix_cons entry rest))
  · intro known
    rcases Bool.or_eq_true_iff.mp known with before | now
    · exact told before
    · -- The full message makes up for all that was lost.
      obtain ⟨state, full⟩ := Option.isSome_iff_exists.mp now
      obtain ⟨same, clean⟩ := given entry List.mem_cons_self state full
      refine follows entry rest (List.suffix_refl _) state full _ ?_
      rw [same]
      exact laws.synced_full clean

/-- The receiver forgets everything, and loses the front of what was on its way. -/
theorem Sound.restart (laws : Laws protocol same ours clean synced)
    (sound : Sound protocol ours clean synced link) (lost : Nat) :
    Sound protocol ours clean synced
      { link with
        queue := link.queue.drop lost
        view := protocol.fresh
        told := false } where
  held := laws.clean_fresh link.state
  own := fun entry member => sound.own entry (List.mem_of_mem_drop member)
  ordered := sound.ordered.sublist (List.drop_sublist lost link.queue)
  given := by
    intro entry member given full
    exact ⟨(sound.given entry (List.mem_of_mem_drop member) given full).1,
      laws.clean_fresh given⟩
  follows := by
    intro entry later suffix
    exact sound.follows entry later (suffix.trans (List.drop_suffix lost link.queue))
  told := by
    intro impossible
    cases impossible

/-- What else the receiver does is of no consequence. -/
theorem Sound.other (laws : Laws protocol same ours clean synced)
    (sound : Sound protocol ours clean synced link) {view : View}
    (alike : same link.view view) :
    Sound protocol ours clean synced { link with view := view } where
  held := laws.clean_same alike sound.held
  own := sound.own
  ordered := sound.ordered
  given := by
    intro entry member given full
    obtain ⟨message, clean⟩ := sound.given entry member given full
    exact ⟨message, laws.clean_same alike clean⟩
  follows := sound.follows
  told := by
    intro told
    exact laws.synced_same (same_carried protocol laws alike link.queue)
      (sound.told told)

/-- What the receiver does beside merging leaves alone what this sender tells. -/
def Minds (same : View → View → Prop) (link : Link State Message View) :
    Event Input View → Prop
  | .other after => same link.view after
  | _ => True

/-- A receiver that only merges minds the sender. -/
theorem along_of_merging {trace : List (Link State Message View × Event Input View)}
    (merging : ∀ event ∈ trace.map Prod.snd, ∀ after, event ≠ .other after) :
    Along (Minds same) trace := by
  intro entry member
  have only := merging entry.2 (List.mem_map_of_mem member)
  unfold Minds
  split
  · rename_i after event
    exact absurd event (only after)
  · trivial

theorem Sound.step (laws : Laws protocol same ours clean synced)
    {event : Event Input View} (minds : Minds same link event)
    (stepped : step protocol link event = some after)
    (sound : Sound protocol ours clean synced link) :
    Sound protocol ours clean synced after := by
  cases event with
  | act input =>
      cases stepped
      exact sound.act laws input
  | ask =>
      cases stepped
      exact sound.ask laws
  | take =>
      unfold RestartResync.step at stepped
      dsimp only at stepped
      split at stepped
      · cases stepped
      · rename_i entry rest queue
        cases stepped
        exact sound.take laws queue
  | restart lost =>
      cases stepped
      exact sound.restart laws lost
  | other view =>
      cases stepped
      exact sound.other laws minds

theorem sound_of_run (laws : Laws protocol same ours clean synced) {state : State}
    {messages : List Message} (own : ∀ message ∈ messages, ours state message)
    {trace : List (Link State Message View × Event Input View)}
    (ran : Run (step protocol) ⟨state, news messages, protocol.fresh, false⟩ trace link)
    (minds : Along (Minds same) trace) : Sound protocol ours clean synced link := by
  refine ran.invariant minds (sound_start laws own) ?_
  intro before event after minds stepped
  exact Sound.step laws minds stepped

/-- A receiver that has taken a full message since its start is in step as soon as it
has taken what is on its way, whatever was lost before its start. -/
theorem synced_of_told (laws : Laws protocol same ours clean synced) {state : State}
    {messages : List Message} (own : ∀ message ∈ messages, ours state message)
    {trace : List (Link State Message View × Event Input View)}
    (ran : Run (step protocol) ⟨state, news messages, protocol.fresh, false⟩ trace link)
    (minds : Along (Minds same) trace) (told : link.told = true) :
    synced link.state (carried protocol link.view link.queue) :=
  (sound_of_run laws own ran minds).told told

end Runs

end RestartResync
