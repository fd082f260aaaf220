import Loa.CortexBuild
import Loa.LeastSquares
import Loa.MergeCarriage

/-!
# The barometer's window and its trend

The cortex drops samples off the front of its window while they are more than
three hours older than the newest one.  The window meant is the received readings
within three hours of the newest.  The two are the same as long as the readings
come in an order that trimming from the front can follow; the trend is the
least-squares slope of whatever the window holds.
-/

namespace FrontTrimming

variable {α : Type} {dropped : α → Bool} {items : List α}

/-- The items of one kind stand before all others. -/
def Leading (dropped : α → Bool) (items : List α) : Prop :=
  items.Pairwise fun earlier later => dropped later → dropped earlier

/-- Dropping from the front drops every such item exactly when these stand in
front. -/
theorem dropWhile_eq_filter_iff :
    items.dropWhile dropped = items.filter (fun item => !dropped item) ↔
      Leading dropped items := by
  unfold Leading
  induction items with
  | nil => simp
  | cons item rest induction =>
      rw [List.pairwise_cons]
      cases front : dropped item with
      | true =>
          rw [List.dropWhile_cons_of_pos front,
            List.filter_cons_of_neg (by simp [front]), induction]
          exact ⟨fun pairs => ⟨fun _ _ _ => rfl, pairs⟩, And.right⟩
      | false =>
          rw [List.dropWhile_cons_of_neg (by simp [front]),
            List.filter_cons_of_pos (by simp [front]), List.cons_inj_right]
          have kept : rest = rest.filter (fun item => !dropped item) ↔
              ∀ later ∈ rest, dropped later = false := by
            rw [eq_comm, List.filter_eq_self]
            simp
          rw [kept]
          constructor
          · intro every
            refine ⟨fun later member impossible => ?_, ?_⟩
            · rw [every later member] at impossible
              cases impossible
            · refine List.pairwise_of_forall_mem_list ?_
              intro earlier _ later member impossible
              rw [every later member] at impossible
              cases impossible
          · rintro ⟨first, -⟩ later member
            by_contra old
            have impossible := first later member (by simpa using old)
            cases impossible

theorem dropWhile_concat {last : α} (stays : dropped last = false) :
    (items ++ [last]).dropWhile dropped = items.dropWhile dropped ++ [last] := by
  induction items with
  | nil => rw [List.nil_append, List.dropWhile_cons_of_neg (by simp [stays])]; rfl
  | cons item rest induction =>
      rw [List.cons_append, List.dropWhile_cons, List.dropWhile_cons, induction]
      split <;> rfl

end FrontTrimming

namespace Cortex

open Wire FrontTrimming

/-- The received pressures, each with its time; a missing time is zero. -/
def received (msgs : List (F64 × Msg)) : List (F64 × F64) :=
  msgs.filterMap fun entry => pressureOf entry.2

/-- At most three hours apart. -/
def Near (first second : F64 × F64) : Prop :=
  |first.1 - second.1| ≤ BARO_WINDOW_S

instance (first second : F64 × F64) : Decidable (Near first second) :=
  inferInstanceAs (Decidable (_ ≤ _))

/-- The readings within three hours of the newest one, in order of arrival. -/
def recent (readings : List (F64 × F64)) : List (F64 × F64) :=
  match readings.getLast? with
  | none => []
  | some newest => readings.filter fun reading => Near reading newest

/-- More than three hours older. -/
def Old (newest reading : F64 × F64) : Prop :=
  BARO_WINDOW_S < newest.1 - reading.1

instance (newest reading : F64 × F64) : Decidable (Old newest reading) :=
  inferInstanceAs (Decidable (_ < _))

/-- A reading that follows these in an order that trimming can follow: none in
the window is more than three hours ahead of it, those in the window that are too
old stand before all others, and it is not near to one that the window has let
go. -/
structure Orderly (before : List (F64 × F64)) (reading : F64 × F64) :
    Prop where
  notAhead : ∀ held ∈ recent before, held.1 - reading.1 ≤ BARO_WINDOW_S
  oldFirst : Leading (fun held => decide (Old reading held)) (recent before)
  noneBack : ∀ past ∈ before, Near past reading → past ∈ recent before

theorem near_iff {first second : F64 × F64} :
    Near first second ↔
      ¬ Old second first ∧ first.1 - second.1 ≤ BARO_WINDOW_S := by
  unfold Near Old
  rw [abs_le]
  constructor
  · rintro ⟨low, high⟩
    exact ⟨by linarith, high⟩
  · rintro ⟨low, high⟩
    exact ⟨by linarith, high⟩

theorem near_refl (reading : F64 × F64) : Near reading reading := by
  unfold Near
  rw [sub_self, abs_zero]
  exact (by norm_num [BARO_WINDOW_S] : (0 : F64) ≤ BARO_WINDOW_S)

theorem recent_concat (before : List (F64 × F64)) (reading : F64 × F64) :
    recent (before ++ [reading]) =
      before.filter (fun past => Near past reading) ++ [reading] := by
  unfold recent
  rw [List.getLast?_concat]
  dsimp only
  rw [List.filter_append,
    List.filter_cons_of_pos (by simp [near_refl reading]), List.filter_nil]

theorem windowed_eq (window : List (F64 × F64)) (reading : F64 × F64) :
    windowed window reading.1 reading.2 =
      (window.dropWhile fun held => decide (Old reading held)) ++ [reading] := by
  have stays : decide (Old reading reading) = false := by
    rw [decide_eq_false_iff_not]
    exact (near_iff.mp (near_refl reading)).1
  exact dropWhile_concat stays

theorem mem_recent_iff {before : List (F64 × F64)} {newest : F64 × F64}
    (last : before.getLast? = some newest) {held : F64 × F64} :
    held ∈ recent before ↔ held ∈ before ∧ Near held newest := by
  unfold recent
  rw [last]
  simp

/-- What trimming leaves of the window, when it leaves nothing that is far. -/
theorem orderly_of_trimmed {before : List (F64 × F64)} {reading : F64 × F64}
    (trimmed : (recent before).dropWhile (fun held => decide (Old reading held)) =
      before.filter fun past => Near past reading) :
    Orderly before reading := by
  have split := List.takeWhile_append_dropWhile
    (p := fun held => decide (Old reading held)) (l := recent before)
  have early {held : F64 × F64}
      (member : held ∈ (recent before).takeWhile
        (fun held => decide (Old reading held))) : Old reading held :=
    of_decide_eq_true (List.all_eq_true.mp List.all_takeWhile held member)
  rw [trimmed] at split
  have late {held : F64 × F64}
      (member : held ∈ before.filter fun past => Near past reading) :
      Near held reading :=
    of_decide_eq_true (List.mem_filter.mp member).2
  refine ⟨?_, ?_, ?_⟩
  · intro held member
    rw [← split] at member
    rcases List.mem_append.mp member with old | near
    · have behind : BARO_WINDOW_S < reading.1 - held.1 := early old
      have wide : (0 : F64) ≤ BARO_WINDOW_S := by norm_num [BARO_WINDOW_S]
      linarith
    · exact (near_iff.mp (late near)).2
  · rw [← dropWhile_eq_filter_iff, trimmed]
    conv_rhs => rw [← split, List.filter_append]
    have gone : ((recent before).takeWhile
        (fun held => decide (Old reading held))).filter
          (fun held => !decide (Old reading held)) = [] := by
      rw [List.filter_eq_nil_iff]
      intro held member
      simpa using early member
    have stay : (before.filter fun past => Near past reading).filter
        (fun held => !decide (Old reading held)) =
          before.filter fun past => Near past reading := by
      rw [List.filter_eq_self]
      intro held member
      simpa using (near_iff.mp (late member)).1
    rw [gone, stay, List.nil_append]
  · intro past member near
    have listed : past ∈ before.filter fun past => Near past reading :=
      List.mem_filter.mpr ⟨member, decide_eq_true near⟩
    rw [← split]
    exact List.mem_append_right _ listed

theorem trimmed_of_orderly {before : List (F64 × F64)} {reading : F64 × F64}
    (orderly : Orderly before reading) :
    (recent before).dropWhile (fun held => decide (Old reading held)) =
      before.filter fun past => Near past reading := by
  rw [dropWhile_eq_filter_iff.mpr orderly.oldFirst]
  cases last : before.getLast? with
  | none =>
      rw [List.getLast?_eq_none_iff.mp last]
      rfl
  | some newest =>
      have listed : recent before =
          before.filter fun past => Near past newest := by
        unfold recent
        rw [last]
      rw [listed, List.filter_filter]
      apply List.filter_congr
      intro past member
      rw [Bool.eq_iff_iff]
      simp only [Bool.and_eq_true, Bool.not_eq_true', decide_eq_false_iff_not,
        decide_eq_true_eq]
      constructor
      · rintro ⟨young, near⟩
        have held := (mem_recent_iff last).mpr ⟨member, near⟩
        exact near_iff.mpr ⟨young, orderly.notAhead past held⟩
      · intro near
        have held := orderly.noneBack past member near
        exact ⟨(near_iff.mp near).1, ((mem_recent_iff last).mp held).2⟩

/-- One more reading leaves the window that is meant exactly when it is
orderly. -/
theorem windowed_recent_iff (before : List (F64 × F64))
    (reading : F64 × F64) :
    windowed (recent before) reading.1 reading.2 =
        recent (before ++ [reading]) ↔
      Orderly before reading := by
  rw [windowed_eq, recent_concat, List.append_left_inj]
  exact ⟨orderly_of_trimmed, trimmed_of_orderly⟩

/-- The window after readings. -/
def trimmed (readings : List (F64 × F64)) : List (F64 × F64) :=
  readings.foldl (fun window reading => windowed window reading.1 reading.2) []

theorem trimmed_concat (before : List (F64 × F64)) (reading : F64 × F64) :
    trimmed (before ++ [reading]) =
      windowed (trimmed before) reading.1 reading.2 := by
  rw [trimmed, List.foldl_concat]
  rfl

theorem baro_mergeAll (msgs : List (F64 × Msg)) :
    (mergeAll {} msgs).baro = trimmed (received msgs) := by
  induction msgs using List.reverseRecOn with
  | nil => rfl
  | append_singleton before entry induction =>
      have step : mergeAll {} (before ++ [entry]) =
          (mergeAll {} before).merge entry.1 entry.2 := List.foldl_concat ..
      have heard : received (before ++ [entry]) =
          received before ++ (pressureOf entry.2).toList := by
        unfold received
        rw [List.filterMap_append]
        cases pressure : pressureOf entry.2 <;> simp [pressure]
      rw [step, heard, baro_merge, induction]
      cases pressureOf entry.2 with
      | none => rw [Option.toList_none, List.append_nil]
      | some reading => rw [Option.toList_some, trimmed_concat]

/-- Throughout a run the window is the one that is meant exactly when every
reading of the run is orderly after those before it. -/
theorem trimmed_recent_iff (readings : List (F64 × F64)) :
    (∀ front, front <+: readings → trimmed front = recent front) ↔
      ∀ before reading, before ++ [reading] <+: readings →
        Orderly before reading := by
  constructor
  · intro same before reading reached
    have shorter : before <+: readings :=
      (List.prefix_append before [reading]).trans reached
    rw [← windowed_recent_iff, ← same before shorter, ← trimmed_concat]
    exact same _ reached
  · intro orderly front
    induction front using List.reverseRecOn with
    | nil => exact fun _ => rfl
    | append_singleton before reading induction =>
        intro reached
        have shorter : before <+: readings :=
          (List.prefix_append before [reading]).trans reached
        rw [trimmed_concat, induction shorter]
        exact (windowed_recent_iff before reading).mpr (orderly _ _ reached)

theorem recent_sublist (before : List (F64 × F64)) :
    (recent before).Sublist before := by
  unfold recent
  split
  · exact List.nil_sublist before
  · exact List.filter_sublist

/-- Readings in the order of their times are orderly. -/
theorem orderly_of_sorted {before : List (F64 × F64)} {reading : F64 × F64}
    (sorted : (before ++ [reading]).Pairwise fun earlier later =>
      earlier.1 ≤ later.1) :
    Orderly before reading := by
  have wide : (0 : F64) ≤ BARO_WINDOW_S := by norm_num [BARO_WINDOW_S]
  obtain ⟨ascending, -, behind⟩ := List.pairwise_append.mp sorted
  have past {held : F64 × F64} (member : held ∈ before) :
      held.1 ≤ reading.1 :=
    behind held member reading (List.mem_singleton_self reading)
  refine ⟨?_, ?_, ?_⟩
  · intro held member
    have earlier := past ((recent_sublist before).subset member)
    linarith
  · refine (ascending.sublist (recent_sublist before)).imp ?_
    intro earlier later inOrder old
    have older : BARO_WINDOW_S < reading.1 - later.1 := of_decide_eq_true old
    have oldest : BARO_WINDOW_S < reading.1 - earlier.1 := by linarith
    exact decide_eq_true oldest
  · intro held member near
    have young : ¬ BARO_WINDOW_S < reading.1 - held.1 := (near_iff.mp near).1
    cases last : before.getLast? with
    | none =>
        rw [List.getLast?_eq_none_iff.mp last] at member
        cases member
    | some newest =>
        obtain ⟨front, rfl⟩ := List.getLast?_eq_some_iff.mp last
        have newestPast := past (List.mem_append_right front
          (List.mem_singleton_self newest))
        have upTo : held.1 ≤ newest.1 := by
          rcases List.mem_append.mp member with earlier | same
          · exact (List.pairwise_append.mp ascending).2.2 held earlier newest
              (List.mem_singleton_self newest)
          · rw [List.mem_singleton.mp same]
        refine (mem_recent_iff last).mpr ⟨member, near_iff.mpr ⟨?_, ?_⟩⟩
        · unfold Old
          linarith
        · linarith

/-- While the readings come in the order of their times, the window is the one
that is meant. -/
theorem baro_recent_of_sorted {msgs : List (F64 × Msg)}
    (sorted : (received msgs).Pairwise fun earlier later =>
      earlier.1 ≤ later.1) :
    (mergeAll {} msgs).baro = recent (received msgs) := by
  rw [baro_mergeAll]
  refine (trimmed_recent_iff (received msgs)).mpr ?_ _ List.prefix_rfl
  intro before reading reached
  exact orderly_of_sorted (sorted.sublist reached.sublist)

/-- The word for a slope in hectopascals an hour. -/
def trendWord (slope : F64) : String :=
  if BARO_DEADBAND_HPA_H < slope then "rising"
  else if slope < -BARO_DEADBAND_HPA_H then "falling"
  else "steady"

/-- With two samples or more, the trend is the word for the least-squares slope
and the pressures of the last sixty samples. -/
theorem baroTrend_eq {cx : Cortex} (two : 2 ≤ cx.baro.length) :
    cx.baroTrend =
      (trendWord (LeastSquares.slope cx.baro * 3600),
        (cx.baro.map Prod.snd).drop (cx.baro.length - BARO_SERIES_POINTS)) := by
  have series : (cx.baro.reverse.take BARO_SERIES_POINTS).reverse.map Prod.snd =
      (cx.baro.map Prod.snd).drop (cx.baro.length - BARO_SERIES_POINTS) := by
    rw [List.take_reverse, List.reverse_reverse, List.map_drop]
  have hourly : LeastSquares.slope cx.baro * 3600 =
      if LeastSquares.spread cx.baro ≠ 0 then
        (cx.baro.length * LeastSquares.sumXY cx.baro -
          LeastSquares.sumX cx.baro * LeastSquares.sumY cx.baro) /
            LeastSquares.spread cx.baro * 3600
      else 0 := by
    rw [LeastSquares.slope, ite_mul, zero_mul]
  unfold baroTrend
  rw [if_neg (not_lt.mpr two)]
  exact Prod.ext (congrArg trendWord hourly.symm) series

/-- After every reading of a run the window holds the received readings within
three hours of the newest, in the order of arrival, exactly when every reading
of the run is orderly after those before it.  Whatever it holds, with two
samples or more the published trend is the word for their least-squares slope,
and the published series their last sixty pressures, oldest first. -/
theorem baro_window_iff (msgs : List (F64 × Msg)) :
    ((∀ front, front <+: msgs →
        (mergeAll {} front).baro = recent (received front)) ↔
      ∀ before reading, before ++ [reading] <+: received msgs →
        Orderly before reading) ∧
    ∀ now, let cx := mergeAll {} msgs
      2 ≤ cx.baro.length →
      ∃ slope published, LeastSquares.IsSlope cx.baro slope ∧
        buildWeather cx now = .weather published ∧
        published.trend = some (trendWord (slope * 3600)) ∧
        published.series =
          (cx.baro.map Prod.snd).drop (cx.baro.length - BARO_SERIES_POINTS) := by
  constructor
  · rw [← trimmed_recent_iff]
    constructor
    · rintro same front ⟨rest, joined⟩
      obtain ⟨early, late, rfl, rfl, -⟩ :=
        List.filterMap_eq_append_iff.mp joined.symm
      exact (baro_mergeAll early).symm.trans
        (same early (List.prefix_append early late))
    · rintro same front ⟨rest, rfl⟩
      rw [baro_mergeAll]
      apply same
      unfold received
      rw [List.filterMap_append]
      exact List.prefix_append _ _
  · intro now cx two
    have nonempty : cx.baro ≠ [] := by
      intro empty
      rw [empty] at two
      cases two
    let published : Weather :=
      { tempC := cx.st.tempC
        humPct := cx.st.humPct
        count := some cx.st.tempCount
        pressureHpa := cx.st.pressureHpa
        trend := some cx.baroTrend.1
        series := cx.baroTrend.2
        ts := some now }
    refine ⟨LeastSquares.slope cx.baro, published,
      (LeastSquares.isSlope_iff nonempty _).mpr rfl, rfl, ?_, ?_⟩
    · exact congrArg (fun trend => some trend.1) (baroTrend_eq two)
    · exact congrArg Prod.snd (baroTrend_eq two)

namespace Vectors

/-- A reading of the pressure at a time. -/
def airMsg (ts : Option F64) (hpa : F64) : Msg :=
  ⟨"weather", ⟨SCHEMA_VERSION,
    some (.weather { ts := ts, pressureHpa := some hpa })⟩⟩

/-- Two readings a minute apart, and one without a time between them. -/
def untimed : List (F64 × Msg) :=
  [(20000, airMsg (some 20000) 1000), (20030, airMsg none 990),
    (20060, airMsg (some 20060) 1000)]

/-- A reading without a time stays in the window behind a newer one, and the
steady pressure is said to rise. -/
theorem baro_untimed_rises :
    ¬ (∀ front, front <+: untimed →
        (mergeAll {} front).baro = recent (received front)) ∧
      (mergeAll {} untimed).baroTrend.1 = "rising" := by
  constructor
  · intro same
    have window : (mergeAll {} untimed).baro =
        [(20000, 1000), (0, 990), (20060, 1000)] := by
      decide +kernel
    have meant : recent (received untimed) = [(20000, 1000), (20060, 1000)] := by
      decide +kernel
    have both := same untimed List.prefix_rfl
    rw [window, meant] at both
    cases both
  · decide +kernel

end Vectors

end Cortex
