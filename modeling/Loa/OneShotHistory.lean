import Loa.OneShotTells
import Mathlib.Data.List.Induction

/-!
# One-shot records over a history

A renderer's history is the notes and the renders that it has seen.  What it
holds is read off the history: the last new record, unless a render has spent
it.
-/

namespace Ring

namespace OneShots

open RustFloat (Libm)
open RingDaemon (Tell RingInput OneShot pickTell)

/-- A note or a render, at a time of the ring's clock. -/
inductive Event
  | note (stateWord : String) (ts t : F64)
  | render (input : RingInput) (t : F64)

def Event.t : Event → F64
  | .note _ _ t => t
  | .render _ t => t

section Run

variable (libm : Libm) (coins : Nat → Bool)

def after (renderer : Renderer) : Event → Renderer
  | .note stateWord ts t => renderer.noteOneshot stateWord ts t
  | .render input t => (renderer.render libm coins input t).2

/-- The renderer after a history. -/
def run (history : List Event) : Renderer :=
  history.foldl (after libm coins) (Renderer.new libm)

theorem run_snoc (history : List Event) (event : Event) :
    run libm coins (history ++ [event]) =
      after libm coins (run libm coins history) event := by
  simp [run]

end Run

/-- The clock never goes back. -/
def Ordered (history : List Event) : Prop :=
  (history.map Event.t).Pairwise (· ≤ ·)

/-- A record, and when it was noted. -/
structure Record where
  stateWord : String
  ts : F64
  noted : F64

namespace Record

def note (record : Record) : Event :=
  .note record.stateWord record.ts record.noted

def kind (record : Record) : Tell :=
  if record.stateWord = "glitch" then .glitch else .scan

theorem kind_played (record : Record) :
    record.kind = .scan ∨ record.kind = .glitch := by
  unfold kind
  split_ifs
  · exact .inr rfl
  · exact .inl rfl

/-- The times of the renders that gated the record. -/
def gates (record : Record) (since : List Event) : List F64 :=
  since.filterMap fun
    | .note _ _ _ => none
    | .render input t =>
        if pickTell input (some record.kind) = record.kind then none else some t

/-- The later of its note and the last render that gated it. -/
def start (record : Record) (since : List Event) : F64 :=
  match (record.gates since).getLast? with
  | none => record.noted
  | some t => max record.noted t

end Record

/-- A word and a time stamp have been noted. -/
def Noted (history : List Event) (stateWord : String) (ts : F64) : Prop :=
  ∃ t, Event.note stateWord ts t ∈ history

/-- A one-shot that has not been noted is new. -/
def New (history : List Event) (stateWord : String) (ts : F64) : Prop :=
  (stateWord = "scan" ∨ stateWord = "glitch") ∧ ¬ Noted history stateWord ts

/-- The events that a held record ends with: a new record supersedes it, and a
render that selects it after its sequence spends it. -/
def Drops (record : Record) (past since : List Event) : Event → Prop
  | .note stateWord ts _ => New past stateWord ts
  | .render input t =>
      pickTell input (some record.kind) = record.kind ∧
        Renderer.sequenceS record.kind input.ripperdoc < t - record.start since

/-- A record was taken and then superseded or spent. -/
def Dropped (record : Record) (earlier since : List Event) : Prop :=
  ∃ before event, before ++ [event] <+: since ∧
    Drops record (earlier ++ record.note :: before) before event

/-- A record is held where it was taken as new and not dropped since. -/
def Holds (record : Record) (earlier since : List Event) : Prop :=
  New earlier record.stateWord record.ts ∧ ¬ Dropped record earlier since

/-- One-shot tells play once over a history: what is held is a record that was
noted as new and dropped neither by a new one nor by being spent, a record that
a render gates is kept and starts again, nothing that has been noted is taken
again, and a scan or a glitch is shown only where the ladder selects it. -/
structure PlaysOnce (libm : Libm) (coins : Nat → Bool)
    (history : List Event) : Prop where
  held : ∀ os, (run libm coins history).oneshot = some os ↔
    ∃ record earlier since, history = earlier ++ record.note :: since ∧
      Holds record earlier since ∧ os = ⟨record.kind, record.start since⟩
  gated : ∀ earlier input t since os,
    history = earlier ++ .render input t :: since →
    (run libm coins earlier).oneshot = some os →
    pickTell input (some os.kind) ≠ os.kind →
    (run libm coins (earlier ++ [.render input t])).oneshot =
      some ⟨os.kind, t⟩
  replay : ∀ earlier stateWord ts t since,
    history = earlier ++ .note stateWord ts t :: since →
    Noted earlier stateWord ts →
    run libm coins (earlier ++ [.note stateWord ts t]) = run libm coins earlier
  shown : ∀ earlier input t since,
    history = earlier ++ .render input t :: since →
    Renderer.Shows libm coins (run libm coins earlier) input t

variable {record : Record} {earlier since history : List Event} {event : Event}

theorem noted_snoc {stateWord : String} {ts : F64} :
    Noted (history ++ [event]) stateWord ts ↔
      Noted history stateWord ts ∨ ∃ t, event = .note stateWord ts t := by
  unfold Noted
  simp only [List.mem_append, List.mem_singleton, exists_or, eq_comm]

/-- A split of a history with one more event, by where the split is. -/
theorem split_snoc {first : Event}
    (same : history ++ [event] = earlier ++ first :: since) :
    (since = [] ∧ history = earlier ∧ event = first) ∨
      ∃ before, since = before ++ [event] ∧
        history = earlier ++ first :: before := by
  obtain rfl | ⟨before, last, rfl⟩ := since.eq_nil_or_concat'
  · obtain ⟨past, now⟩ := List.append_singleton_inj.mp same
    exact .inl ⟨rfl, past, now⟩
  · have whole : history ++ [event] = (earlier ++ first :: before) ++ [last] := by
      rw [same]
      simp
    obtain ⟨past, rfl⟩ := List.append_singleton_inj.mp whole
    exact .inr ⟨before, rfl, past⟩

theorem dropped_nil : ¬ Dropped record earlier [] := by
  rintro ⟨before, event, inside, -⟩
  simp at inside

theorem dropped_snoc :
    Dropped record earlier (since ++ [event]) ↔
      Dropped record earlier since ∨
        Drops record (earlier ++ record.note :: since) since event := by
  constructor
  · rintro ⟨before, last, inside, drops⟩
    obtain whole | inside := List.prefix_concat_iff.mp inside
    · obtain ⟨rfl, rfl⟩ := List.append_singleton_inj.mp whole
      exact .inr drops
    · exact .inl ⟨before, last, inside, drops⟩
  · rintro (⟨before, last, inside, drops⟩ | drops)
    · exact ⟨before, last, List.prefix_concat_iff.mpr (.inr inside), drops⟩
    · exact ⟨since, event, List.prefix_rfl, drops⟩

theorem holds_nil (new : New earlier record.stateWord record.ts) :
    Holds record earlier [] :=
  ⟨new, dropped_nil⟩

theorem holds_snoc :
    Holds record earlier (since ++ [event]) ↔
      Holds record earlier since ∧
        ¬ Drops record (earlier ++ record.note :: since) since event := by
  unfold Holds
  rw [dropped_snoc]
  tauto

theorem start_note (stateWord : String) (ts t : F64) :
    record.start (since ++ [.note stateWord ts t]) = record.start since := by
  simp [Record.start, Record.gates]

theorem start_selected {input : RingInput} (t : F64)
    (selected : pickTell input (some record.kind) = record.kind) :
    record.start (since ++ [.render input t]) = record.start since := by
  simp [Record.start, Record.gates, selected]

theorem start_gated {input : RingInput} {t : F64}
    (gated : pickTell input (some record.kind) ≠ record.kind)
    (later : record.noted ≤ t) :
    record.start (since ++ [.render input t]) = t := by
  simp [Record.start, Record.gates, gated, later]

variable {libm : Libm} {coins : Nat → Bool}

theorem note_of_new {renderer : Renderer} {stateWord : String} {ts : F64}
    (t : F64) (oneShot : stateWord = "scan" ∨ stateWord = "glitch")
    (unseen : (stateWord, ts) ∉ renderer.seen) :
    (renderer.noteOneshot stateWord ts t).toRenderer =
      { oneshot := some ⟨if stateWord = "glitch" then .glitch else .scan, t⟩
        seen := (stateWord, ts) :: renderer.seen } := by
  have known : ¬ (stateWord ≠ "scan" ∧ stateWord ≠ "glitch") := by tauto
  unfold Renderer.noteOneshot RingDaemon.Renderer.noteOneshot
  rw [if_neg known, if_neg unseen]

theorem note_of_old {renderer : Renderer} {stateWord : String} {ts : F64}
    (t : F64)
    (old : ¬ ((stateWord = "scan" ∨ stateWord = "glitch") ∧
      (stateWord, ts) ∉ renderer.seen)) :
    renderer.noteOneshot stateWord ts t = renderer := by
  unfold Renderer.noteOneshot RingDaemon.Renderer.noteOneshot
  by_cases known : stateWord ≠ "scan" ∧ stateWord ≠ "glitch"
  · rw [if_pos known]
  · have seen : (stateWord, ts) ∈ renderer.seen := by tauto
    rw [if_neg known, if_pos seen]

/-- The renderer's memory against the history: it has seen what was noted, and
what it holds is a one-shot that was taken as new and not dropped since. -/
structure Account (renderer : Renderer) (history : List Event) : Prop where
  seen : ∀ stateWord ts, (stateWord, ts) ∈ renderer.seen ↔
    (stateWord = "scan" ∨ stateWord = "glitch") ∧ Noted history stateWord ts
  held : ∀ os, renderer.oneshot = some os ↔
    ∃ record earlier since, history = earlier ++ record.note :: since ∧
      Holds record earlier since ∧ os = ⟨record.kind, record.start since⟩

namespace Account

variable {renderer : Renderer}

theorem played (account : Account renderer history) {os : OneShot}
    (held : renderer.oneshot = some os) :
    os.kind = .scan ∨ os.kind = .glitch := by
  obtain ⟨record, earlier, since, -, -, rfl⟩ := (account.held os).mp held
  exact record.kind_played

theorem unseen_iff (account : Account renderer history) (stateWord : String)
    (ts : F64) :
    (stateWord = "scan" ∨ stateWord = "glitch") ∧
        (stateWord, ts) ∉ renderer.seen ↔ New history stateWord ts := by
  rw [account.seen, New]
  tauto

theorem start (libm : Libm) : Account (Renderer.new libm) [] := by
  constructor
  · intro stateWord ts
    simp [Renderer.new, Noted]
  · intro os
    simp [Renderer.new]

/-- A new record supersedes what is held. -/
theorem note_new (account : Account renderer history) {stateWord : String}
    {ts t : F64} (new : New history stateWord ts) :
    Account (renderer.noteOneshot stateWord ts t)
      (history ++ [.note stateWord ts t]) := by
  have unseen := (account.unseen_iff stateWord ts).mpr new
  have taken := note_of_new t unseen.1 unseen.2
  constructor
  · intro word stamp
    rw [taken, List.mem_cons, account.seen, noted_snoc]
    constructor
    · rintro (same | ⟨oneShot, noted⟩)
      · obtain ⟨rfl, rfl⟩ := Prod.mk.inj same
        exact ⟨unseen.1, .inr ⟨t, rfl⟩⟩
      · exact ⟨oneShot, .inl noted⟩
    · rintro ⟨oneShot, noted | ⟨later, same⟩⟩
      · exact .inr ⟨oneShot, noted⟩
      · obtain ⟨rfl, rfl, -⟩ := Event.note.inj same
        exact .inl rfl
  · intro os
    rw [taken]
    constructor
    · intro held
      obtain rfl := Option.some.inj held
      exact ⟨⟨stateWord, ts, t⟩, history, [], rfl, holds_nil new, rfl⟩
    · rintro ⟨record, earlier, since, same, holds, rfl⟩
      obtain ⟨rfl, rfl, now⟩ | ⟨before, rfl, past⟩ := split_snoc same
      · obtain ⟨rfl, rfl, rfl⟩ := Event.note.inj now
        rfl
      · have kept := (holds_snoc.mp holds).2
        rw [← past] at kept
        exact (kept new).elim

/-- Where an event supersedes nothing and notes nothing new, what was held is
held unless the event spends it. -/
theorem extend (account : Account renderer history) {next : Renderer}
    (seen : ∀ stateWord ts, (stateWord, ts) ∈ next.seen ↔
      (stateWord = "scan" ∨ stateWord = "glitch") ∧
        Noted (history ++ [event]) stateWord ts)
    (old : ∀ record : Record, event = record.note →
      ¬ New history record.stateWord record.ts)
    (held : ∀ os, next.oneshot = some os ↔
      ∃ record earlier since, history = earlier ++ record.note :: since ∧
        Holds record earlier since ∧ ¬ Drops record history since event ∧
        os = ⟨record.kind, record.start (since ++ [event])⟩) :
    Account next (history ++ [event]) := by
  refine ⟨seen, fun os => (held os).trans ?_⟩
  constructor
  · rintro ⟨record, earlier, since, rfl, holds, kept, rfl⟩
    exact ⟨record, earlier, since ++ [event], by simp,
      holds_snoc.mpr ⟨holds, kept⟩, rfl⟩
  · rintro ⟨record, earlier, since, same, holds, rfl⟩
    obtain ⟨rfl, rfl, now⟩ | ⟨before, rfl, rfl⟩ := split_snoc same
    · exact (old record now holds.1).elim
    · obtain ⟨holds, kept⟩ := holds_snoc.mp holds
      exact ⟨record, earlier, before, rfl, holds, kept, rfl⟩

/-- A note that is no new record changes nothing. -/
theorem note_old (account : Account renderer history) {stateWord : String}
    {ts t : F64} (old : ¬ New history stateWord ts) :
    Account renderer (history ++ [.note stateWord ts t]) := by
  apply account.extend
  · intro word stamp
    rw [account.seen, noted_snoc]
    constructor
    · rintro ⟨oneShot, noted⟩
      exact ⟨oneShot, .inl noted⟩
    · rintro ⟨oneShot, noted | ⟨later, same⟩⟩
      · exact ⟨oneShot, noted⟩
      · obtain ⟨rfl, rfl, -⟩ := Event.note.inj same
        unfold New at old
        tauto
  · intro record same
    obtain ⟨rfl, rfl, -⟩ := Event.note.inj same
    exact old
  · intro os
    rw [account.held]
    simp only [start_note, Drops, old, not_false_eq_true, true_and]

/-- A render of a held record drops it or starts it again at the render that
gates it. -/
theorem oneshot_render {renderer : Renderer} {record : Record}
    {past since : List Event} {libm : Libm} {coins : Nat → Bool}
    {input : RingInput} {t : F64}
    (held : renderer.oneshot = some ⟨record.kind, record.start since⟩)
    (noted : record.noted ≤ t) (os : OneShot) :
    (renderer.render libm coins input t).2.oneshot = some os ↔
      ¬ Drops record past since (.render input t) ∧
        os = ⟨record.kind, record.start (since ++ [.render input t])⟩ := by
  rw [Renderer.render_of_some held record.kind_played]
  dsimp only
  by_cases selected : pickTell input (some record.kind) = record.kind
  · rw [if_pos selected, start_selected t selected]
    split_ifs with passed
    · constructor
      · intro spent
        cases spent
      · rintro ⟨kept, -⟩
        exact absurd ⟨selected, passed⟩ kept
    · constructor
      · intro same
        exact ⟨fun drops => passed drops.2, (Option.some.inj same).symm⟩
      · rintro ⟨-, rfl⟩
        rfl
  · rw [if_neg selected, start_gated selected noted]
    constructor
    · intro same
      exact ⟨fun drops => selected drops.1, (Option.some.inj same).symm⟩
    · rintro ⟨-, rfl⟩
      rfl

/-- A render spends what it selects after its sequence, and starts again what it
gates. -/
theorem render (account : Account renderer history) {libm : Libm}
    {coins : Nat → Bool} {input : RingInput} {t : F64}
    (later : ∀ event ∈ history, event.t ≤ t) :
    Account (renderer.render libm coins input t).2
      (history ++ [.render input t]) := by
  have same_seen : (renderer.render libm coins input t).2.seen =
      renderer.seen := by
    cases held : renderer.oneshot with
    | none =>
        exact congrArg RingDaemon.Renderer.seen (Renderer.render_of_none held)
    | some os =>
        have whole : (renderer.render libm coins input t).2.toRenderer = _ :=
          Renderer.render_of_some held (account.played held)
        rw [whole]
  apply account.extend
  · intro word stamp
    rw [same_seen, account.seen, noted_snoc]
    simp
  · intro record same
    cases same
  · intro os
    constructor
    · intro shown
      cases before : renderer.oneshot with
      | none =>
          rw [Renderer.render_of_none before, before] at shown
          cases shown
      | some first =>
          obtain ⟨record, earlier, since, split, holds, rfl⟩ :=
            (account.held first).mp before
          have noted : record.noted ≤ t :=
            later record.note (by rw [split]; simp)
          obtain ⟨kept, same⟩ := (oneshot_render before noted os).mp shown
          exact ⟨record, earlier, since, split, holds, kept, same⟩
    · rintro ⟨record, earlier, since, split, holds, kept, rfl⟩
      have before := (account.held _).mpr
        ⟨record, earlier, since, split, holds, rfl⟩
      have noted : record.noted ≤ t :=
        later record.note (by rw [split]; simp)
      exact (oneshot_render before noted _).mpr ⟨kept, rfl⟩

end Account

section Claim

variable (libm : Libm) (coins : Nat → Bool)

theorem account_run {history : List Event} (ordered : Ordered history) :
    Account (run libm coins history) history := by
  induction history using List.reverseRecOn with
  | nil => exact Account.start libm
  | append_singleton history event induction =>
      unfold Ordered at ordered
      rw [List.map_append, List.pairwise_append] at ordered
      obtain ⟨past, -, later⟩ := ordered
      have account := induction past
      rw [run_snoc]
      cases event with
      | note stateWord ts t =>
          by_cases new : New history stateWord ts
          · exact account.note_new new
          · have same := note_of_old t
              ((account.unseen_iff stateWord ts).not.mpr new)
            rw [after, same]
            exact account.note_old new
      | render input t =>
          apply account.render
          intro event member
          exact later _ (List.mem_map_of_mem member) t (by simp [Event.t])

theorem ordered_front {history earlier since : List Event}
    (ordered : Ordered history) (split : history = earlier ++ since) :
    Ordered earlier := by
  unfold Ordered at ordered ⊢
  rw [split, List.map_append, List.pairwise_append] at ordered
  exact ordered.1

theorem one_shots_play_once {history : List Event}
    (ordered : Ordered history) : PlaysOnce libm coins history := by
  constructor
  · exact (account_run libm coins ordered).held
  · intro earlier input t since os split held gating
    have account := account_run libm coins (ordered_front ordered split)
    rw [run_snoc]
    unfold after
    rw [Renderer.render_of_some held (account.played held)]
    dsimp only
    rw [if_neg gating]
  · intro earlier stateWord ts t since split noted
    have account := account_run libm coins (ordered_front ordered split)
    rw [run_snoc]
    apply note_of_old
    rw [account.unseen_iff]
    exact fun new => new.2 noted
  · intro earlier input t since split
    exact Renderer.shows libm coins (run libm coins earlier) input t

end Claim

/-- A few terms of each series. -/
def coarse : Libm where
  pi := 22 / 7
  sin := fun x => x - x ^ 3 / 6
  cos := fun x => 1 - x ^ 2 / 2
  exp := fun x => 1 / (1 - x)
  powf := fun x _ => x

/-- A scan that an alarm gates, and that comes again on the wire while it
plays. -/
def alarmed : List Event :=
  [.note "scan" 7 0, .render ⟨.well, "home", false⟩ 1,
    .render ⟨.well, "alarm", false⟩ 2, .note "scan" 7 3,
    .render ⟨.well, "home", false⟩ 4, .render ⟨.well, "home", false⟩ 5]

theorem ordered_alarmed : Ordered alarmed := by
  unfold Ordered alarmed Event.t
  norm_num

theorem one_shots_play_once_alarmed : PlaysOnce coarse (fun _ => true) alarmed :=
  one_shots_play_once coarse _ ordered_alarmed

end OneShots

end Ring
