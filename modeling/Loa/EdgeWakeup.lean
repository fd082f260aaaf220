import Loa.FifoChannel

/-!
# Sleeping on a descriptor that tells of edges

A reader sleeps until a descriptor is ready and then looks into a queue.  The
descriptor is sure to become ready only for an arrival after a look that found
nothing; it may become ready at other times too.  A reader that sleeps only after
such a look never sleeps over an item.
-/

namespace EdgeWakeup

/-- A queue and its descriptor; it is armed where the next arrival makes it
ready. -/
structure Mailbox (Item : Type) where
  channel : FifoChannel Item := .empty
  armed : Bool := true
  ready : Bool := false

/-- The queue, and the reader: what it was handed, and whether it sleeps. -/
structure Reader (Item : Type) where
  mailbox : Mailbox Item := {}
  parked : Bool := true
  handed : List Item := []

namespace Reader

variable {Item : Type}

/-- An item comes in. -/
def arrive (reader : Reader Item) (item : Item) : Reader Item :=
  { reader with
    mailbox :=
      { channel := reader.mailbox.channel.send item
        armed := false
        ready := reader.mailbox.ready || reader.mailbox.armed } }

/-- The descriptor is ready for no item. -/
def stir (reader : Reader Item) : Reader Item :=
  { reader with mailbox.ready := true }

/-- The reader wakes, and takes note of the descriptor. -/
def wake (reader : Reader Item) : Option (Reader Item) :=
  if reader.parked ∧ reader.mailbox.ready then
    some { reader with mailbox.ready := false, parked := false }
  else none

/-- Something else wakes the reader. -/
def rouse (reader : Reader Item) : Reader Item :=
  { reader with parked := false }

/-- One look into the queue: an item of it, or nothing, and then the reader
sleeps. -/
def look (reader : Reader Item) : Reader Item :=
  match reader.mailbox.channel.recv with
  | some (item, channel) =>
      { reader with
        mailbox.channel := channel
        handed := reader.handed ++ [item] }
  | none => { reader with mailbox.armed := true, parked := true }

/-- Everything that came is handed on or queued; nothing is queued behind an
armed descriptor, and the descriptor of a sleeping reader is armed or ready. -/
structure Sound (reader : Reader Item) : Prop where
  order : reader.handed ++ reader.mailbox.channel.queue =
    reader.mailbox.channel.sent
  armed : reader.mailbox.armed = true → reader.mailbox.channel.queue = []
  dry : reader.parked = true →
    reader.mailbox.armed = true ∨ reader.mailbox.ready = true

theorem sound_start : ({} : Reader Item).Sound where
  order := rfl
  armed := fun _ => rfl
  dry := fun _ => .inl rfl

variable {reader after : Reader Item}

theorem Sound.arrive (sound : reader.Sound) (item : Item) :
    (reader.arrive item).Sound where
  order := by
    change reader.handed ++ (reader.mailbox.channel.queue ++ [item]) = _
    rw [← List.append_assoc, sound.order]
    rfl
  armed := nofun
  dry := fun parked => by
    have before := sound.dry parked
    refine .inr (Bool.or_eq_true_iff.mpr ?_)
    exact before.symm

theorem Sound.stir (sound : reader.Sound) : reader.stir.Sound where
  order := sound.order
  armed := sound.armed
  dry := fun _ => .inr rfl

theorem Sound.rouse (sound : reader.Sound) : reader.rouse.Sound where
  order := sound.order
  armed := sound.armed
  dry := nofun

theorem Sound.wake (sound : reader.Sound) (woken : reader.wake = some after) :
    after.Sound := by
  unfold Reader.wake at woken
  split_ifs at woken
  cases woken
  exact { order := sound.order, armed := sound.armed, dry := nofun }

/-- What a look does. -/
theorem look_cases (reader : Reader Item) :
    (∃ item channel, reader.mailbox.channel.recv = some (item, channel) ∧
        reader.look =
          { reader with
            mailbox.channel := channel
            handed := reader.handed ++ [item] }) ∨
      (reader.mailbox.channel.recv = none ∧
        reader.look = { reader with mailbox.armed := true, parked := true }) := by
  unfold look
  cases received : reader.mailbox.channel.recv with
  | none => exact .inr ⟨rfl, rfl⟩
  | some found => exact .inl ⟨found.1, found.2, rfl, rfl⟩

theorem Sound.look (sound : reader.Sound) : reader.look.Sound := by
  obtain ⟨item, channel, received, same⟩ | ⟨empty, same⟩ := reader.look_cases
  · obtain ⟨queued, sent⟩ := FifoChannel.recv_eq_some received
    rw [same]
    refine ⟨?_, fun armed => ?_, sound.dry⟩
    · change (reader.handed ++ [item]) ++ channel.queue = channel.sent
      rw [sent, ← sound.order, queued, List.append_assoc, List.singleton_append]
    · have none := sound.armed armed
      rw [queued] at none
      cases none
  · rw [same]
    exact
      { order := sound.order
        armed := fun _ => FifoChannel.recv_eq_none_iff.mp empty
        dry := fun _ => .inl rfl }

end Reader

end EdgeWakeup
