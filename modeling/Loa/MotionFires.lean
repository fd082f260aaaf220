import Loa.MotionLevel
import Mathlib.Data.List.Chain
import Mathlib.Data.List.DropRight

/-!
# The fires of the motion daemon

A fire is a streak of two polls that read high, at most one in a cooldown.  The
streak is kept in 32 bits and the fires are counted in 32 bits; both go round.
Along any run the daemon's counters are read off the polls: its streak is the
number of highs that the run ends with, its count the number of polls that
fired, and its last time the time of the last of these.
-/

namespace Sense.Motion

namespace Poll

def isHigh : Poll → Bool
  | .error => false
  | .level high _ => high

/-- The reading of the wall clock; a poll that failed made none. -/
def time : Poll → Option F64
  | .error => none
  | .level _ now => some now

end Poll

def times (passes : List Poll) : List F64 :=
  passes.filterMap Poll.time

/-- The wall clock does not go back, and starts no earlier than the cooldown. -/
def Clock (cooldown : F64) (passes : List Poll) : Prop :=
  (cooldown :: times passes).Pairwise (· ≤ ·)

instance (cooldown : F64) (passes : List Poll) :
    Decidable (Clock cooldown passes) :=
  inferInstanceAs (Decidable (List.Pairwise _ _))

/-- The number of highs that a run ends with. -/
def unbroken (passes : List Poll) : ℕ :=
  (passes.rtakeWhile Poll.isHigh).length

def isFire : MotionNews → Bool
  | .state _ => false
  | .fire _ _ => true

/-- This poll reports a fire. -/
def ReportsFire (pir : Motion) (pass : Poll) : Prop :=
  (pir.poll pass).1.any isFire

instance (pir : Motion) (pass : Poll) : Decidable (pir.ReportsFire pass) :=
  inferInstanceAs (Decidable (_ = true))

/-- The times of the polls that reported a fire. -/
def fireTimes (life : Life) : List Poll → List F64
  | [] => []
  | pass :: later =>
      (if life.pir.ReportsFire pass then pass.time.toList else []) ++
        fireTimes (life.poll pass) later

theorem unbroken_high (before : List Poll) (now : F64) :
    unbroken (before ++ [.level true now]) = unbroken before + 1 := by
  unfold unbroken
  rw [List.rtakeWhile_concat_pos _ _ _ rfl, List.length_append]
  rfl

theorem unbroken_other (before : List Poll) {pass : Poll}
    (other : pass.isHigh = false) : unbroken (before ++ [pass]) = 0 := by
  unfold unbroken
  rw [List.rtakeWhile_concat_neg _ _ _ (by rw [other]; simp)]
  rfl

theorem fireTimes_concat (life : Life) (before : List Poll) (pass : Poll) :
    fireTimes life (before ++ [pass]) =
      fireTimes life before ++
        if (life.polls before).pir.ReportsFire pass then pass.time.toList
        else [] := by
  induction before generalizing life with
  | nil => exact List.append_nil _
  | cons first later induction =>
      change _ ++ fireTimes (life.poll first) (later ++ [pass]) = _
      rw [induction, ← List.append_assoc]
      rfl

theorem mem_fireTimes {life : Life} {passes : List Poll} {now : F64}
    (fired : now ∈ fireTimes life passes) : now ∈ times passes := by
  induction passes generalizing life with
  | nil => cases fired
  | cons first later induction =>
      unfold times
      rw [List.filterMap_cons]
      rcases List.mem_append.mp fired with head | tail
      · split at head
        · rw [Option.mem_toList.mp head]
          exact List.mem_cons_self ..
        · cases head
      · split
        · exact induction tail
        · exact List.mem_cons_of_mem _ (induction tail)

theorem not_reportsFire_error (pir : Motion) : ¬ pir.ReportsFire .error :=
  Bool.false_ne_true

/-- Edges are no fires, so a poll reports one when it is one. -/
theorem reportsFire_level_iff (pir : Motion) (high : Bool) (now : F64) :
    pir.ReportsFire (.level high now) ↔ pir.Fires high now := by
  have edges : ((pir.edge high now).1.any isFire) = false := by
    unfold edge
    split
    · rfl
    · cases high <;> rfl
  unfold ReportsFire
  change ((pir.tick high now).1.any isFire) = true ↔ _
  rw [tick_eq]
  dsimp only
  split
  · rename_i fires
    rw [List.any_append, edges]
    exact iff_of_true rfl fires
  · rename_i quiet
    rw [edges]
    exact iff_of_false Bool.false_ne_true quiet

/-- What the daemon's counters are, after these polls and these fires. -/
structure Counts (cooldown : F64) (pir : Motion) (passes : List Poll)
    (fires : List F64) : Prop where
  period : pir.cooldown = cooldown
  low : pir.last = false → unbroken passes = 0
  pending : pir.pending = UInt32.ofNat (unbroken passes)
  lastFire : pir.lastFire = fires.getLast?.getD 0
  count : pir.remembered.count = UInt32.ofNat fires.length
  lastTs : pir.remembered.lastTs = fires.getLast?
  apart : fires.IsChain fun earlier later => cooldown ≤ later - earlier

section Counts

variable {cooldown : F64} {pir : Motion} {before : List Poll}
  {fires : List F64}

/-- The streak after a high is the number of highs, in 32 bits. -/
theorem streak_high (counts : Counts cooldown pir before fires) :
    pir.streak true = UInt32.ofNat (unbroken before + 1) := by
  unfold streak
  rw [if_pos rfl, UInt32.ofNat_add]
  cases last : pir.last with
  | false =>
      rw [counts.low last]
      rfl
  | true =>
      rw [counts.pending]
      rfl

theorem fires_high_iff (counts : Counts cooldown pir before fires)
    (now : F64) :
    pir.Fires true now ↔
      2 ≤ (unbroken before + 1) % 2 ^ 32 ∧
        cooldown ≤ now - fires.getLast?.getD 0 := by
  unfold Fires
  rw [streak_high counts, counts.period, counts.lastFire,
    UInt32.le_iff_toNat_le, UInt32.toNat_ofNat']
  exact and_iff_right rfl

theorem counts_error (counts : Counts cooldown pir before fires) :
    Counts cooldown pir.resetPending (before ++ [.error]) fires where
  period := counts.period
  low := fun _ => unbroken_other before rfl
  pending := by
    rw [unbroken_other before rfl]
    rfl
  lastFire := counts.lastFire
  count := counts.count
  lastTs := counts.lastTs
  apart := counts.apart

/-- A poll that does not fire keeps the fires, and counts its own high. -/
theorem counts_quiet (counts : Counts cooldown pir before fires)
    {high : Bool} {now : F64} (quiet : ¬ pir.Fires high now) :
    Counts cooldown (pir.tick high now).2 (before ++ [.level high now])
      fires := by
  obtain ⟨sameCooldown, -, -, lastFire, count, lastTs⟩ :=
    edge_keeps pir high now
  rw [tick_eq]
  dsimp only
  rw [if_neg quiet]
  refine ⟨sameCooldown.trans counts.period, ?_, ?_,
    lastFire.trans counts.lastFire, count.trans counts.count,
    lastTs.trans counts.lastTs, counts.apart⟩
  · rintro rfl
    exact unbroken_other before rfl
  · cases high with
    | false =>
        rw [unbroken_other before rfl]
        rfl
    | true =>
        rw [unbroken_high]
        exact streak_high counts

theorem counts_fire (counts : Counts cooldown pir before fires)
    {high : Bool} {now : F64} (fire : pir.Fires high now) :
    Counts cooldown (pir.tick high now).2 (before ++ [.level high now])
      (fires ++ [now]) := by
  obtain ⟨sameCooldown, -, -, -, -, -⟩ := edge_keeps pir high now
  obtain rfl : high = true := fire.1
  rw [tick_eq]
  dsimp only
  rw [if_pos fire]
  refine ⟨sameCooldown.trans counts.period, ?_, ?_, ?_, ?_, ?_, ?_⟩
  · rintro ⟨⟩
  · rw [unbroken_high]
    exact streak_high counts
  · rw [List.getLast?_concat]
    rfl
  · rw [List.length_append, UInt32.ofNat_add, ← counts.count]
    rfl
  · rw [List.getLast?_concat]
  · refine List.isChain_append.mpr
      ⟨counts.apart, List.isChain_singleton _, ?_⟩
    intro earlier latest later single
    obtain rfl : now = later := Option.some.inj single
    have cooled := ((fires_high_iff counts now).mp fire).2
    rw [latest] at cooled
    exact cooled

end Counts

theorem counts_born (cooldown : F64) (seed : Option (Bool × F64)) :
    Counts cooldown (born cooldown seed).pir [] [] := by
  match seed with
  | none => exact ⟨rfl, fun _ => rfl, rfl, rfl, rfl, rfl, .nil⟩
  | some (true, now) => exact ⟨rfl, fun _ => rfl, rfl, rfl, rfl, rfl, .nil⟩
  | some (false, now) => exact ⟨rfl, fun _ => rfl, rfl, rfl, rfl, rfl, .nil⟩

theorem counts_polls (cooldown : F64) (seed : Option (Bool × F64))
    (passes : List Poll) :
    Counts cooldown ((born cooldown seed).polls passes).pir passes
      (fireTimes (born cooldown seed) passes) := by
  induction passes using List.reverseRecOn with
  | nil => exact counts_born cooldown seed
  | append_singleton before pass induction =>
      rw [Life.polls_concat, fireTimes_concat]
      cases pass with
      | error =>
          rw [if_neg (not_reportsFire_error _), List.append_nil]
          exact counts_error induction
      | level high now =>
          split
          · rename_i reported
            exact counts_fire induction
              ((reportsFire_level_iff _ high now).mp reported)
          · rename_i silent
            rw [List.append_nil]
            exact counts_quiet induction fun fires =>
              silent ((reportsFire_level_iff _ high now).mpr fires)

/-- The highs that a run ends with are polls right before its end. -/
theorem high_of_unbroken {passes : List Poll}
    (ongoing : unbroken passes ≠ 0) :
    ∃ earlier first, passes = earlier ++ [.level true first] := by
  cases passes using List.reverseRecOn with
  | nil => exact absurd rfl ongoing
  | append_singleton earlier pass =>
      cases pass with
      | error => exact absurd (unbroken_other earlier rfl) ongoing
      | level high first =>
          cases high with
          | true => exact ⟨earlier, first, rfl⟩
          | false => exact absurd (unbroken_other earlier rfl) ongoing

/-- A poll that fires read high, and so did the poll before it. -/
theorem confirmed (cooldown : F64) (seed : Option (Bool × F64))
    {before : List Poll} {pass : Poll}
    (reported : ((born cooldown seed).polls before).pir.ReportsFire pass) :
    ∃ earlier first now,
      before = earlier ++ [.level true first] ∧ pass = .level true now := by
  cases pass with
  | error => exact absurd reported (not_reportsFire_error _)
  | level high now =>
      have fires := (reportsFire_level_iff _ high now).mp reported
      obtain rfl : high = true := fires.1
      have streak := ((fires_high_iff (counts_polls cooldown seed before)
        now).mp fires).1
      have ongoing : unbroken before ≠ 0 := by
        intro ended
        rw [ended] at streak
        omega
      obtain ⟨earlier, first, rfl⟩ := high_of_unbroken ongoing
      exact ⟨earlier, first, now, rfl, rfl⟩

/-- The cooldown is behind a poll where it is behind the last fire, or there
was none and the clock is past the cooldown. -/
theorem cooled_of_clock {cooldown now : F64} {fires : List F64}
    (started : cooldown ≤ now)
    (passed : ∀ last ∈ fires.getLast?, cooldown ≤ now - last) :
    cooldown ≤ now - fires.getLast?.getD 0 := by
  cases latest : fires.getLast? with
  | none =>
      rw [Option.getD_none, sub_zero]
      exact started
  | some last => exact passed last latest

theorem clock_started {cooldown now : F64} {passes : List Poll} {high : Bool}
    (clock : Clock cooldown passes) (polled : .level high now ∈ passes) :
    cooldown ≤ now :=
  List.rel_of_pairwise_cons clock
    (List.mem_filterMap.mpr ⟨.level high now, polled, rfl⟩)

/-- Along every run on a clock that starts no earlier than the cooldown, a fire
is reported only by a high right after a high, and consecutive fires are a
cooldown apart; such a high reports one when the cooldown has passed exactly
where the unbroken highs, in 32 bits, are two or more; and the count is the
number of fires in 32 bits, the last time that of the latest one. -/
theorem fires_confirmed_and_cooled (cooldown : F64)
    (seed : Option (Bool × F64)) (passes : List Poll)
    (clock : Clock cooldown passes) :
    let start := born cooldown seed
    (∀ before pass, before ++ [pass] <+: passes →
      (start.polls before).pir.ReportsFire pass →
      ∃ earlier first now,
        before = earlier ++ [.level true first] ∧ pass = .level true now) ∧
    (fireTimes start passes).IsChain
      (fun earlier later => cooldown ≤ later - earlier) ∧
    (∀ earlier first now,
      let before := earlier ++ [.level true first]
      before ++ [.level true now] <+: passes →
      (∀ last ∈ (fireTimes start before).getLast?, cooldown ≤ now - last) →
      ((start.polls before).pir.ReportsFire (.level true now) ↔
        2 ≤ unbroken (before ++ [.level true now]) % 2 ^ 32)) ∧
    (start.polls passes).pir.remembered.count =
      UInt32.ofNat (fireTimes start passes).length ∧
    (start.polls passes).pir.remembered.lastTs =
      (fireTimes start passes).getLast? := by
  intro start
  have counts := counts_polls cooldown seed passes
  refine ⟨fun before pass _ => confirmed cooldown seed, counts.apart, ?_,
    counts.count, counts.lastTs⟩
  intro earlier first now before reached passed
  have polled : Poll.level true now ∈ passes :=
    reached.subset (List.mem_append_right _ (List.mem_singleton_self _))
  have cooled := cooled_of_clock (clock_started clock polled) passed
  rw [reportsFire_level_iff, fires_high_iff (counts_polls cooldown seed before),
    unbroken_high before now]
  exact and_iff_left cooled

namespace Vectors

/-- Two highs fire, and a third within the cooldown does not. -/
theorem fires_confirmed_and_cooled_pair :
    Clock 5 [.level true 100, .level true 101, .level true 102] ∧
    fireTimes (born 5 none)
      [.level true 100, .level true 101, .level true 102] = [101] ∧
    ((born 5 none).polls
      [.level true 100, .level true 101, .level true 102]).pir.remembered.count =
        1 := by
  have clock : Clock 5 [.level true 100, .level true 101, .level true 102] := by
    decide +kernel
  have fires : fireTimes (born 5 none)
      [.level true 100, .level true 101, .level true 102] = [101] := by
    decide +kernel
  refine ⟨clock, fires, ?_⟩
  have count := (fires_confirmed_and_cooled 5 none _ clock).2.2.2.1
  rw [fires] at count
  exact count

end Vectors

theorem unbroken_replicate (n : ℕ) (now : F64) :
    unbroken (List.replicate n (.level true now)) = n := by
  induction n with
  | zero => rfl
  | succ n induction =>
      rw [List.replicate_succ', unbroken_high, induction]

theorem times_replicate (n : ℕ) (now : F64) :
    times (List.replicate n (.level true now)) = List.replicate n now :=
  List.filterMap_replicate_of_some rfl

/-- A clock that stands still at the cooldown, and then goes on. -/
theorem clock_replicate {cooldown later : F64} (n : ℕ)
    (goesOn : cooldown ≤ later) :
    Clock cooldown
      (List.replicate n (.level true cooldown) ++ [.level true later]) := by
  unfold Clock times
  rw [List.filterMap_append]
  change (cooldown :: (times (List.replicate n (.level true cooldown)) ++
    [later])).Pairwise (· ≤ ·)
  rw [times_replicate, ← List.cons_append, ← List.replicate_succ,
    List.pairwise_append]
  refine ⟨List.pairwise_replicate.mpr (.inr (le_refl cooldown)),
    List.pairwise_singleton .., ?_⟩
  intro earlier constant last single
  rw [List.eq_of_mem_replicate constant, List.mem_singleton.mp single]
  exact goesOn

/-- The high that brings the streak to its modulus reports no fire. -/
theorem missed_at_wrap (cooldown : F64) (seed : Option (Bool × F64))
    {before : List Poll} (long : unbroken before + 1 = 2 ^ 32) (now : F64) :
    ¬ ((born cooldown seed).polls before).pir.ReportsFire
      (.level true now) := by
  rw [reportsFire_level_iff, fires_high_iff (counts_polls cooldown seed before),
    long, Nat.mod_self]
  omega

/-- With the pin high for 2 ^ 32 polls, the last of them past the cooldown, that
last poll reports no fire. -/
theorem fire_missed_at_wrap :
    ¬ ∀ (cooldown : F64) (seed : Option (Bool × F64)) (earlier : List Poll)
        (first now : F64),
      let before := earlier ++ [.level true first]
      Clock cooldown (before ++ [.level true now]) →
      (∀ last ∈ (fireTimes (born cooldown seed) before).getLast?,
        cooldown ≤ now - last) →
      ((born cooldown seed).polls before).pir.ReportsFire
        (.level true now) := by
  intro always
  have steady : List.replicate (2 ^ 32 - 2) (Poll.level true 5) ++
      [.level true 5] = List.replicate (2 ^ 32 - 1) (.level true 5) :=
    List.replicate_succ'.symm
  have reported := always 5 none (List.replicate (2 ^ 32 - 2) (.level true 5))
    5 10
  rw [steady] at reported
  refine missed_at_wrap 5 none ?_ 10 (reported ?_ ?_)
  · rw [unbroken_replicate]
    omega
  · exact clock_replicate _ (by norm_num)
  · intro last latest
    have fired := mem_fireTimes (List.mem_of_mem_getLast? latest)
    rw [times_replicate] at fired
    rw [List.eq_of_mem_replicate fired]
    norm_num

end Sense.Motion
