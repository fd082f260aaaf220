import Loa.CortexState
import Loa.SenseDaemons
import Mathlib.Data.List.Induction

/-!
# Runs of the motion daemon

The daemon publishes its full payload, then the level it found on its own start
if the pin would read, and then polls: a poll reads a level or fails.  A cortex
merges what is published.  Two things are followed through a run: whether the
level that the daemon and the cortex hold is the one just polled, and what a
cortex that heard every partial holds beside one that heard the full payload
alone.
-/

namespace Sense.Motion

open Wire

/-- One pass of the loop: the pin would not read, or it read a level. -/
inductive Poll
  | error
  | level (high : Bool) (now : F64)

/-- What is published for a piece of news. -/
def message : MotionNews → Wire.Pir
  | .state message => message
  | .fire message _ => message

/-- A pass of the loop, with the news of it. -/
def poll (pir : Motion) : Poll → List MotionNews × Motion
  | .error => ([], pir.resetPending)
  | .level high now => pir.tick high now

/-- The daemon, what it published of its first look, and its news so far. -/
structure Life where
  pir : Motion
  seeded : List Wire.Pir
  news : List MotionNews

/-- The start of the daemon; the first look is missing where the pin would not
read. -/
def born (cooldown : F64) (seed : Option (Bool × F64)) : Life :=
  let pir : Motion := { cooldown := cooldown }
  match seed with
  | none => ⟨pir, [], []⟩
  | some (level, now) => ⟨(pir.seed level now).2, [(pir.seed level now).1], []⟩

namespace Life

def poll (life : Life) (pass : Poll) : Life :=
  { life with
    pir := (life.pir.poll pass).2
    news := life.news ++ (life.pir.poll pass).1 }

def polls (life : Life) (passes : List Poll) : Life :=
  passes.foldl poll life

/-- The partials published so far. -/
def partials (life : Life) : List Wire.Pir :=
  life.seeded ++ life.news.map message

theorem polls_concat (life : Life) (passes : List Poll) (pass : Poll) :
    life.polls (passes ++ [pass]) = (life.polls passes).poll pass :=
  List.foldl_concat ..

theorem partials_poll (life : Life) (pass : Poll) :
    (life.poll pass).partials =
      life.partials ++ (life.pir.poll pass).1.map message := by
  unfold partials Life.poll
  rw [List.map_append, List.append_assoc]

end Life

/-- A cortex merges these messages in order. -/
def hear (cx : Cortex) (messages : List Wire.Pir) : Cortex :=
  messages.foldl Cortex.mergePir cx

theorem hear_append (cx : Cortex) (first second : List Wire.Pir) :
    hear cx (first ++ second) = hear (hear cx first) second :=
  List.foldl_append ..

/-- The streak of highs after a poll. -/
def streak (pir : Motion) (level : Bool) : UInt32 :=
  if level then if pir.last then pir.pending + 1 else 1 else 0

/-- A poll fires: the second high of a streak or a later one, with the cooldown
behind it. -/
def Fires (pir : Motion) (level : Bool) (now : F64) : Prop :=
  level = true ∧ 2 ≤ pir.streak level ∧ pir.cooldown ≤ now - pir.lastFire

instance (pir : Motion) (level : Bool) (now : F64) :
    Decidable (pir.Fires level now) :=
  inferInstanceAs (Decidable (_ ∧ _))

/-- An edge is a matter of the level alone. -/
theorem edge_keeps (pir : Motion) (level : Bool) (now : F64) :
    let seen := (pir.edge level now).2
    seen.cooldown = pir.cooldown ∧ seen.last = pir.last ∧
      seen.pending = pir.pending ∧ seen.lastFire = pir.lastFire ∧
      seen.remembered.count = pir.remembered.count ∧
      seen.remembered.lastTs = pir.remembered.lastTs := by
  unfold edge
  split
  · exact ⟨rfl, rfl, rfl, rfl, rfl, rfl⟩
  · split <;> exact ⟨rfl, rfl, rfl, rfl, rfl, rfl⟩

theorem tick_eq (pir : Motion) (level : Bool) (now : F64) :
    pir.tick level now =
      let edges := (pir.edge level now).1
      let seen := (pir.edge level now).2
      let polled := { seen with pending := pir.streak level, last := level }
      if pir.Fires level now then
        let count := pir.remembered.count + 1
        (edges ++ [.fire { count := some count, lastTs := some now } count],
          { polled with
            lastFire := now
            remembered :=
              { seen.remembered with count := count, lastTs := some now } })
      else (edges, polled) := by
  obtain ⟨cooldown, -, pending, lastFire, count, -⟩ :=
    edge_keeps pir level now
  unfold tick Fires streak
  cases level with
  | false => simp
  | true =>
      dsimp only
      rw [pending, cooldown, lastFire, count]
      simp only [if_true, true_and]

/-- The remembered level follows the poll where the cursor and the level were
the same before, and wherever the poll is an edge. -/
theorem high_tick (pir : Motion) (level : Bool) (now : F64) :
    (pir.tick level now).2.remembered.high =
      if level = pir.last then pir.remembered.high else level := by
  have edges : (pir.edge level now).2.remembered.high =
      if level = pir.last then pir.remembered.high else level := by
    unfold edge
    split
    · rfl
    · cases level <;> rfl
  rw [tick_eq]
  dsimp only
  split
  · exact edges
  · exact edges

theorem last_tick (pir : Motion) (level : Bool) (now : F64) :
    (pir.tick level now).2.last = level := by
  rw [tick_eq]
  dsimp only
  split <;> rfl

/-- The cortex holds the daemon's memory, but for the start of the hold: no
partial takes it away after a fall. -/
structure Tracks (st : Cortex.State) (remembered : Remembered) : Prop where
  high : st.pirHigh = remembered.high
  count : st.pirCount = remembered.count
  lastTs : st.pirLastTs = remembered.lastTs
  lastHold : st.pirLastHold = remembered.lastHold.getD 0
  onTs : remembered.onTs = if remembered.high then st.pirOnTs else none

section Tracks

variable {cx : Cortex} {pir : Motion}

theorem tracks_edge (tracks : Tracks cx.st pir.remembered) (level : Bool)
    (now : F64) :
    Tracks (hear cx ((pir.edge level now).1.map message)).st
      (pir.edge level now).2.remembered := by
  unfold edge
  split
  · exact tracks
  · cases level with
    | true =>
        exact ⟨rfl, tracks.count, tracks.lastTs, tracks.lastHold, rfl⟩
    | false => exact ⟨rfl, tracks.count, tracks.lastTs, rfl, rfl⟩

theorem tracks_tick (tracks : Tracks cx.st pir.remembered) (level : Bool)
    (now : F64) :
    Tracks (hear cx ((pir.tick level now).1.map message)).st
      (pir.tick level now).2.remembered := by
  have edges := tracks_edge tracks level now
  rw [tick_eq]
  dsimp only
  split
  · rw [List.map_append, hear_append]
    exact ⟨edges.high, rfl, rfl, edges.lastHold, edges.onTs⟩
  · exact edges

theorem tracks_poll (tracks : Tracks cx.st pir.remembered) (pass : Poll) :
    Tracks (hear cx ((pir.poll pass).1.map message)).st
      (pir.poll pass).2.remembered := by
  cases pass with
  | error => exact tracks
  | level high now => exact tracks_tick tracks high now

end Tracks

theorem tracks_born (cooldown : F64) (seed : Option (Bool × F64)) :
    Tracks (hear {} (born cooldown seed).partials).st
      (born cooldown seed).pir.remembered := by
  match seed with
  | none => exact ⟨rfl, rfl, rfl, rfl, rfl⟩
  | some (true, now) => exact ⟨rfl, rfl, rfl, rfl, rfl⟩
  | some (false, now) => exact ⟨rfl, rfl, rfl, rfl, rfl⟩

/-- A cortex that heard every partial from its own start tracks the daemon. -/
theorem tracks_polls (cooldown : F64) (seed : Option (Bool × F64))
    (passes : List Poll) :
    let life := (born cooldown seed).polls passes
    Tracks (hear {} life.partials).st life.pir.remembered := by
  induction passes using List.reverseRecOn with
  | nil => exact tracks_born cooldown seed
  | append_singleton before pass induction =>
      intro life
      have step := Life.polls_concat (born cooldown seed) before pass
      have grown := tracks_poll induction pass
      rw [← hear_append, ← Life.partials_poll, ← step] at grown
      have same : life.pir =
          (((born cooldown seed).polls before).pir.poll pass).2 := by
        change ((born cooldown seed).polls (before ++ [pass])).pir = _
        rw [step]
        rfl
      rw [same]
      exact grown

/-- The start of the hold that a cortex has from partials is the last one that
was published. -/
theorem onTs_hear (cx : Cortex) (messages : List Wire.Pir) :
    (hear cx messages).st.pirOnTs =
      ((messages.filterMap Wire.Pir.onTs).getLast?).or cx.st.pirOnTs := by
  induction messages using List.reverseRecOn with
  | nil => rfl
  | append_singleton before message induction =>
      rw [hear_append, List.filterMap_append]
      change message.onTs.or (hear cx before).st.pirOnTs = _
      rw [induction]
      cases rise : message.onTs with
      | none => simp [rise]
      | some ts => simp [rise]

/-- After every run a cortex that heard every partial and one that starts anew
and hears the full payload alone hold the same level, count, last time and last
hold; the start of the hold is the same while the level is high, and after a
fall the new cortex has none, where the running one keeps the last published. -/
theorem partials_add_up (cooldown : F64) (seed : Option (Bool × F64))
    (passes : List Poll) :
    let life := (born cooldown seed).polls passes
    let running := (hear {} life.partials).st
    let restarted := (hear {} [life.pir.full]).st
    restarted.pirHigh = running.pirHigh ∧
      restarted.pirCount = running.pirCount ∧
      restarted.pirLastTs = running.pirLastTs ∧
      restarted.pirLastHold = running.pirLastHold ∧
      restarted.pirOnTs =
        (if running.pirHigh then running.pirOnTs else none) ∧
      running.pirOnTs = (life.partials.filterMap Wire.Pir.onTs).getLast? := by
  intro life running restarted
  have tracks := tracks_polls cooldown seed passes
  have lastTs : restarted.pirLastTs = life.pir.remembered.lastTs := by
    change Option.or none (life.pir.remembered.lastTs.or none) = _
    rw [Option.none_or, Option.or_none]
  have onTs : restarted.pirOnTs = life.pir.remembered.onTs := Option.or_none
  refine ⟨tracks.high.symm, tracks.count.symm, ?_, tracks.lastHold.symm, ?_, ?_⟩
  · rw [lastTs]
    exact tracks.lastTs.symm
  · rw [onTs, tracks.onTs, ← tracks.high]
  · exact (onTs_hear {} life.partials).trans Option.or_none

/-- After a rise and a fall the two differ. -/
theorem partials_differ_after_fall :
    ¬ ∀ (cooldown : F64) (passes : List Poll),
      let life := (born cooldown none).polls passes
      (hear {} [life.pir.full]).st.pirOnTs =
        (hear {} life.partials).st.pirOnTs := by
  intro same
  have apart := same 5 [.level true 100, .level false 101]
  cases apart

/-- The levels that were read. -/
def levels (passes : List Poll) : List Bool :=
  passes.filterMap fun pass =>
    match pass with
    | .error => none
    | .level high _ => some high

/-- The daemon found the line high on its own start. -/
def SeededHigh (seed : Option (Bool × F64)) : Prop :=
  seed.map Prod.fst = some true

theorem levels_concat_level (before : List Poll) (high : Bool) (now : F64) :
    levels (before ++ [.level high now]) = levels before ++ [high] :=
  List.filterMap_append

theorem levels_concat_error (before : List Poll) :
    levels (before ++ [.error]) = levels before := by
  unfold levels
  rw [List.filterMap_append]
  exact List.append_nil _

/-- Passes that read nothing leave the cursor and the memory alone. -/
theorem polls_of_silent {life : Life} {passes : List Poll}
    (silent : levels passes = []) :
    (life.polls passes).pir.last = life.pir.last ∧
      (life.polls passes).pir.remembered = life.pir.remembered := by
  induction passes using List.reverseRecOn with
  | nil => exact ⟨rfl, rfl⟩
  | append_singleton before pass induction =>
      cases pass with
      | error =>
          rw [levels_concat_error] at silent
          rw [Life.polls_concat]
          exact induction silent
      | level high now =>
          rw [levels_concat_level] at silent
          simp at silent

/-- The cursor and the remembered level are the same. -/
def Settled (pir : Motion) : Prop :=
  pir.remembered.high = pir.last

theorem settled_tick {pir : Motion} {high : Bool} (now : F64)
    (known : Settled pir ∨ high ≠ pir.last) :
    Settled (pir.tick high now).2 := by
  unfold Settled at known ⊢
  rw [high_tick, last_tick]
  split
  · rename_i same
    rcases known with settled | edge
    · rw [settled, same]
    · exact absurd same edge
  · rfl

theorem born_last (cooldown : F64) (seed : Option (Bool × F64)) :
    (born cooldown seed).pir.last = false := by
  match seed with
  | none => rfl
  | some (true, now) => rfl
  | some (false, now) => rfl

theorem settled_born_iff (cooldown : F64) (seed : Option (Bool × F64)) :
    Settled (born cooldown seed).pir ↔ ¬ SeededHigh seed := by
  unfold Settled SeededHigh
  match seed with
  | none => simp [born]
  | some (true, now) => simp [born, Motion.seed]
  | some (false, now) => simp [born, Motion.seed]

theorem high_of_seededHigh (cooldown : F64) {seed : Option (Bool × F64)}
    (found : SeededHigh seed) :
    (born cooldown seed).pir.remembered.high = true := by
  match seed with
  | none => cases found
  | some (true, now) => rfl
  | some (false, now) => cases found

/-- A daemon that did not find a high line, or polled high first, is settled
from its first poll on. -/
theorem settled_polls {cooldown : F64} {seed : Option (Bool × F64)}
    {passes : List Poll}
    (told : ¬ (SeededHigh seed ∧ (levels passes).head? = some false))
    (read : ¬ SeededHigh seed ∨ levels passes ≠ []) :
    Settled ((born cooldown seed).polls passes).pir := by
  induction passes using List.reverseRecOn with
  | nil =>
      rcases read with low | impossible
      · exact (settled_born_iff cooldown seed).mpr low
      · exact absurd rfl impossible
  | append_singleton before pass induction =>
      rw [Life.polls_concat]
      cases pass with
      | error =>
          rw [levels_concat_error] at told read
          exact induction told read
      | level high now =>
          apply settled_tick
          rw [levels_concat_level] at told
          by_cases silent : levels before = []
          · obtain ⟨last, remembered⟩ :=
              @polls_of_silent (born cooldown seed) before silent
            rw [silent] at told
            by_cases found : SeededHigh seed
            · right
              rw [last, born_last]
              intro low
              exact told ⟨found, by rw [low]; rfl⟩
            · left
              unfold Settled
              rw [last, remembered]
              exact (settled_born_iff cooldown seed).mpr found
          · left
            refine induction ?_ (.inr silent)
            rwa [List.head?_append_of_ne_nil _ silent] at told

/-- What a cortex holds of the level, if it began with the daemon's. -/
theorem high_hear {cx : Cortex} {pir : Motion}
    (same : cx.st.pirHigh = pir.remembered.high) (pass : Poll) :
    (hear cx ((pir.poll pass).1.map message)).st.pirHigh =
      (pir.poll pass).2.remembered.high := by
  cases pass with
  | error => exact same
  | level high now =>
      have edges : (hear cx ((pir.edge high now).1.map message)).st.pirHigh =
          (pir.edge high now).2.remembered.high := by
        unfold edge
        split
        · exact same
        · cases high <;> rfl
      change (hear cx ((pir.tick high now).1.map message)).st.pirHigh =
        (pir.tick high now).2.remembered.high
      rw [tick_eq]
      dsimp only
      split
      · rw [List.map_append, hear_append]
        exact edges
      · exact edges

/-- A cortex that hears the daemon from its start has its level, whatever it
held before. -/
theorem high_hear_polls (cx : Cortex) (cooldown : F64)
    (seed : Option (Bool × F64)) (passes : List Poll) :
    let life := (born cooldown seed).polls passes
    (hear cx (({ cooldown := cooldown } : Motion).full :: life.partials)).st.pirHigh =
      life.pir.remembered.high := by
  induction passes using List.reverseRecOn with
  | nil =>
      match seed with
      | none => rfl
      | some (true, now) => rfl
      | some (false, now) => rfl
  | append_singleton before pass induction =>
      have grown := high_hear induction pass
      intro life
      have step := Life.polls_concat (born cooldown seed) before pass
      change (hear cx (_ :: ((born cooldown seed).polls
          (before ++ [pass])).partials)).st.pirHigh =
        ((born cooldown seed).polls (before ++ [pass])).pir.remembered.high
      rw [step, Life.partials_poll, ← List.cons_append, hear_append]
      exact grown

/-- The fall from a high first look to a low first poll is no edge: the cursor
was low from the start. -/
theorem high_of_unread (cooldown now : F64) {seed : Option (Bool × F64)}
    {before : List Poll} (found : SeededHigh seed)
    (unread : levels before = []) :
    ((born cooldown seed).polls
      (before ++ [.level false now])).pir.remembered.high = true := by
  obtain ⟨last, remembered⟩ :=
    @polls_of_silent (born cooldown seed) before unread
  rw [Life.polls_concat]
  change (((born cooldown seed).polls before).pir.tick false now
    ).2.remembered.high = true
  rw [high_tick, last, born_last, if_pos rfl, remembered]
  exact high_of_seededHigh cooldown found

/-- Otherwise a poll leaves the level that it read. -/
theorem high_of_told (cooldown now : F64) {seed : Option (Bool × F64)}
    {before : List Poll} {high : Bool}
    (told : ¬ (SeededHigh seed ∧
      (levels (before ++ [.level high now])).head? = some false)) :
    ((born cooldown seed).polls
      (before ++ [.level high now])).pir.remembered.high = high := by
  have read : levels (before ++ [.level high now]) ≠ [] := by
    rw [levels_concat_level]
    exact List.concat_ne_nil _ _
  refine Eq.trans (@settled_polls cooldown seed _ told (.inr read)) ?_
  rw [Life.polls_concat]
  exact last_tick _ high now

/-- The first level of a run is the first one of its prefixes, too. -/
theorem head_levels_of_prefix {front passes : List Poll} {level : Bool}
    (reached : front <+: passes) (first : (levels front).head? = some level) :
    (levels passes).head? = some level := by
  obtain ⟨later, rfl⟩ := reached
  unfold levels at first ⊢
  rw [List.filterMap_append, List.head?_append, first]
  rfl

/-- After every successful poll of a run the daemon's full payload, a new cortex
that merged the first look and every partial, and any cortex that merged the
start payload before them, have the level just polled, exactly when the daemon
did not find the line high on its start and then poll it low first. -/
theorem level_faithful_iff (cooldown : F64) (seed : Option (Bool × F64))
    (passes : List Poll) :
    (∀ before high now, before ++ [.level high now] <+: passes →
      let life := (born cooldown seed).polls (before ++ [.level high now])
      life.pir.full.high = some high ∧
        (hear {} life.partials).st.pirHigh = high ∧
        ∀ cx, (hear cx (({ cooldown := cooldown } : Motion).full ::
          life.partials)).st.pirHigh = high) ↔
      ¬ (SeededHigh seed ∧ (levels passes).head? = some false) := by
  constructor
  · rintro faithful ⟨found, low⟩
    obtain ⟨later, first⟩ := List.head?_eq_some_iff.mp low
    obtain ⟨before, pass, after, rfl, silent, fell, -⟩ :=
      List.filterMap_eq_cons_iff.mp first
    cases pass with
    | error => cases fell
    | level high now =>
        obtain rfl : high = false := Option.some.inj fell
        have reached : before ++ [Poll.level false now] <+:
            before ++ .level false now :: after :=
          ⟨after, by rw [List.append_assoc]; rfl⟩
        have full := Option.some.inj (faithful before false now reached).1
        rw [high_of_unread cooldown now found
          (List.filterMap_eq_nil_iff.mpr silent)] at full
        cases full
  · intro told before high now reached life
    have held : life.pir.remembered.high = high := by
      refine high_of_told cooldown now ?_
      rintro ⟨found, low⟩
      exact told ⟨found, head_levels_of_prefix reached low⟩
    refine ⟨congrArg some held, ?_, fun cx => ?_⟩
    · have tracked := (tracks_polls cooldown seed (before ++ [.level high now])).high
      rw [tracked]
      exact held
    · have heard := high_hear_polls cx cooldown seed (before ++ [.level high now])
      rw [heard]
      exact held

namespace Vectors

/-- A line found high on start and low at the first poll is published high for
good. -/
theorem seeded_high_stays :
    ¬ ∀ (cooldown : F64) (seed : Option (Bool × F64)) (passes : List Poll)
        (high : Bool) (now : F64),
      let life := (born cooldown seed).polls (passes ++ [.level high now])
      life.pir.full.high = some high ∧
        (hear {} life.partials).st.pirHigh = high := by
  intro faithful
  have stays := (faithful 5 (some (true, 50)) [] false 51).1
  cases stays

end Vectors

end Sense.Motion
