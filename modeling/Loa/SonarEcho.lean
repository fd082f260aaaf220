import Loa.RustFloat
import Loa.SampledSignal
import Mathlib.Tactic

/-!
# The echo of the sonar

The daemon waits in a loop for the echo line to rise and in another one for it to
fall, and takes the clock behind the two looks that saw it.  What it measures is
the echo up to a look, and no wait goes on for ever.
-/

namespace Sonar

open SampledSignal

/-- 30 ms, in nanoseconds. -/
def ECHO_TIMEOUT : Int := 30000000

/-- The echo's length in microseconds for each centimetre. -/
def US_PER_CM : F64 := 58

/-- One turn of a loop: the level, if it could be read, and the clock behind
it. -/
structure Turn where
  level : Option Bool
  clock : Int

/-- Wait for a level: the clock behind the look that saw it, and what comes
after.  `none` is a line that could not be read, or a wait that took too long. -/
def await (wanted : Bool) (started : Int) : List Turn → Option (Int × List Turn)
  | [] => none
  | turn :: later =>
      turn.level.bind fun level =>
        if level = wanted then some (turn.clock, later)
        else if ECHO_TIMEOUT < turn.clock - started then none
        else await wanted started later

/-- `measure`, behind the trigger: the centimetres, if there are any. -/
def measure (started : Int) (turns : List Turn) : Option F64 :=
  (await true started turns).bind fun (highAt, later) =>
    (await false highAt later).bind fun (fell, _) =>
      let us : F64 := (fell - highAt : Int) / 1000
      if us ≤ 0 then none else some (us / US_PER_CM)

/-- The turns of looks at a line. -/
def turnsOf (line : Int → Bool) (looks : List Look) : List Turn :=
  looks.map fun look => ⟨some (line look.read), look.stamp⟩

variable {gap delay last started : Int} {looks : List Look} {line : Int → Bool}

/-- A wait ends at the first look behind a switch: what comes after is seen by
the looks behind that one. -/
theorem await_switch (wanted : Bool) (started switch : Int)
    (paced : Paced gap delay last looks) (ahead : last < switch)
    (before : ∀ time, last ≤ time → time < switch → line time = !wanted)
    (behind : ∀ time, switch ≤ time → time ≤ switch + gap → line time = wanted)
    (inTime : switch + delay ≤ started + ECHO_TIMEOUT)
    (reached : switch ≤ lastRead last looks) :
    ∃ (look : Look) (later : List Look), await wanted started (turnsOf line looks) =
        some (look.stamp, turnsOf line later) ∧
      switch ≤ look.read ∧ look.read ≤ switch + gap ∧
      look.read ≤ look.stamp ∧ look.stamp ≤ look.read + delay ∧
      Paced gap delay look.read later ∧
      lastRead look.read later = lastRead last looks := by
  induction looks generalizing last with
  | nil => exact absurd ahead (not_lt.mpr reached)
  | cons look looks induction =>
      obtain ⟨⟨onward, near⟩, ⟨stamped, soon⟩, rest⟩ := paced
      unfold turnsOf
      rw [List.map_cons, await, Option.bind_some]
      by_cases early : look.read < switch
      · rw [if_neg (by rw [before _ onward early]; simp), if_neg (by
          dsimp only
          omega)]
        exact induction rest early
          (fun time since => before time (onward.trans since)) reached
      · have passed := not_lt.mp early
        rw [if_pos (behind _ passed (by omega))]
        exact ⟨look, looks, rfl, passed, by omega, stamped, soon, rest, rfl⟩

/-- A wait for a level that does not come is given up. -/
theorem await_none {wanted : Bool} (never : ∀ time, line time = !wanted) :
    await wanted started (turnsOf line looks) = none := by
  induction looks with
  | nil => rfl
  | cons look looks induction =>
      unfold turnsOf
      rw [List.map_cons, await, Option.bind_some, if_neg (by rw [never]; simp)]
      split_ifs
      · rfl
      · exact induction

/-- A wait never goes on beyond its time by more than a look. -/
theorem await_bounded {wanted : Bool} {clock : Int} {later : List Turn}
    (paced : Paced gap delay last looks) (since : last ≤ started + ECHO_TIMEOUT)
    (found : await wanted started (turnsOf line looks) = some (clock, later)) :
    clock ≤ started + ECHO_TIMEOUT + gap + delay ∧
      ∃ (look : Look) (rest : List Look), later = turnsOf line rest ∧ look.stamp = clock ∧
        look.read ≤ look.stamp ∧ Paced gap delay look.read rest := by
  induction looks generalizing last with
  | nil => cases found
  | cons look looks induction =>
      obtain ⟨⟨onward, near⟩, ⟨stamped, soon⟩, rest⟩ := paced
      unfold turnsOf at found
      rw [List.map_cons, await, Option.bind_some] at found
      split_ifs at found with hit late
      · cases found
        exact ⟨by dsimp only; omega, look, looks, rfl, rfl, stamped, rest⟩
      · refine induction rest ?_ found
        dsimp only at late
        omega

/-- An echo that the loops can follow: it comes and goes in time, and is longer
than what its ends may be off. -/
structure Heard (gap delay last started rise fall : Int) : Prop where
  ahead : last < rise
  long : rise + gap + delay < fall
  risesInTime : rise + delay ≤ started + ECHO_TIMEOUT
  fallsInTime : fall - rise + delay ≤ ECHO_TIMEOUT

/-- What is measured of an echo is off by no more than a look. -/
theorem echo_measured {rise fall : Int} (paced : Paced gap delay last looks)
    (sampled : 0 ≤ gap ∧ 0 ≤ delay) (heard : Heard gap delay last started rise fall)
    (reached : fall ≤ lastRead last looks) :
    ∃ us : F64, measure started (turnsOf (level false [rise, fall]) looks) =
        some (us / US_PER_CM) ∧
      |us - (fall - rise : Int) / 1000| ≤ (gap + delay : Int) / 1000 := by
  obtain ⟨ahead, long, risesInTime, fallsInTime⟩ := heard
  have low : ∀ time, time < rise → level false [rise, fall] time = false :=
    fun time early => if_pos early
  have high : ∀ time, rise ≤ time → time < fall →
      level false [rise, fall] time = true := by
    intro time since before
    rw [level_behind since]
    exact if_pos before
  have gone : ∀ time, fall ≤ time → level false [rise, fall] time = false := by
    intro time since
    rw [level_behind (by omega), level_behind since]
    rfl
  obtain ⟨first, between, rose, since, near, stamped, soon, pacedRest, lastRest⟩ :=
    await_switch true started rise paced ahead (fun time _ early => low time early)
      (fun time since near => high time since (by omega)) risesInTime (by omega)
  obtain ⟨second, after, fell, sinceFall, nearFall, stampedFall, soonFall, -, -⟩ :=
    await_switch false first.stamp fall pacedRest (by omega)
      (fun time later early => high time (since.trans later) early)
      (fun time since _ => gone time since) (by omega) (by omega)
  refine ⟨(second.stamp - first.stamp : Int) / 1000, ?_, ?_⟩
  · have positive : (0 : F64) < (second.stamp - first.stamp : Int) := by
      exact_mod_cast (by omega : (0 : Int) < second.stamp - first.stamp)
    unfold measure
    rw [rose, Option.bind_some]
    dsimp only
    rw [fell, Option.bind_some]
    dsimp only
    rw [if_neg (not_le.mpr (by positivity))]
  · rw [← sub_div, abs_div, abs_of_pos (by norm_num : (0 : F64) < 1000)]
    gcongr
    rw [← Int.cast_sub, ← Int.cast_abs]
    exact_mod_cast abs_le.mpr ⟨by omega, by omega⟩

/-- A measurement is never longer than a wait and a look. -/
theorem measure_bounded {cm : F64} (paced : Paced gap delay last looks)
    (since : last ≤ started)
    (measured : measure started (turnsOf line looks) = some cm) :
    0 < cm ∧
      cm ≤ (ECHO_TIMEOUT + gap + delay : Int) / 1000 / US_PER_CM := by
  obtain ⟨⟨highAt, later⟩, rose, lengths⟩ := Option.bind_eq_some_iff.mp measured
  obtain ⟨⟨fell, after⟩, fallen, length⟩ := Option.bind_eq_some_iff.mp lengths
  dsimp only at fallen length
  have timeout : 0 ≤ ECHO_TIMEOUT := by decide
  obtain ⟨-, look, between, rfl, rfl, stamped, pacedRest⟩ :=
    await_bounded paced (by omega) rose
  obtain ⟨bound, -⟩ := await_bounded pacedRest (by omega) fallen
  split_ifs at length with empty
  cases length
  have us := not_le.mp empty
  refine ⟨div_pos us (by norm_num [US_PER_CM]), ?_⟩
  unfold US_PER_CM
  gcongr
  omega

/-- However the loops are paced: an echo that they can follow is measured up to a
look, what is measured is never longer than a wait and a look, and a silent line
measures nothing. -/
theorem measure_follows_echo (paced : Paced gap delay last looks)
    (since : last ≤ started) (sampled : 0 ≤ gap ∧ 0 ≤ delay) :
    (∀ rise fall, Heard gap delay last started rise fall →
      fall ≤ lastRead last looks →
        ∃ us : F64, measure started (turnsOf (level false [rise, fall]) looks) =
            some (us / US_PER_CM) ∧
          |us - (fall - rise : Int) / 1000| ≤ (gap + delay : Int) / 1000) ∧
      (∀ line cm, measure started (turnsOf line looks) = some cm →
        0 < cm ∧ cm ≤ (ECHO_TIMEOUT + gap + delay : Int) / 1000 / US_PER_CM) ∧
      measure started (turnsOf (fun _ => false) looks) = none := by
  refine ⟨fun rise fall heard reached => echo_measured paced sampled heard reached,
    fun line cm measured => measure_bounded paced since measured, ?_⟩
  have silent : await true started (turnsOf (fun _ => false) looks) = none :=
    await_none fun _ => rfl
  unfold measure
  rw [silent]
  rfl

/-- Four looks at an echo of 30 µs. -/
def fourLooks : List Look :=
  [⟨5000, 5500⟩, ⟨14000, 14500⟩, ⟨24000, 24500⟩, ⟨34000, 34500⟩]

theorem paced_fourLooks : Paced 10000 500 0 fourLooks := by
  simp [Paced, fourLooks]

theorem measure_follows_echo_once :
    (∃ us : F64, measure 0 (turnsOf (level false [2000, 32000]) fourLooks) =
        some (us / US_PER_CM) ∧
      |us - (32000 - 2000 : Int) / 1000| ≤ (10000 + 500 : Int) / 1000) ∧
      measure 0 (turnsOf (fun _ => false) fourLooks) = none :=
  have always := measure_follows_echo paced_fourLooks (le_refl 0)
    ⟨by decide, by decide⟩
  ⟨always.1 2000 32000 ⟨by decide, by decide, by decide, by decide⟩ (by decide),
    always.2.2⟩

end Sonar
