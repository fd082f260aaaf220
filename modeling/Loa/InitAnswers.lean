import Loa.CortexEffects
import Loa.MergeCarriage
import Loa.SenseDaemons
import Loa.TransitionRun
import Mathlib.Data.List.TakeWhile

/-!
# The answers to the asks

Each of the six asks of the cortex earns a full report of every daemon, and all
of them take the path of a fresh reading.  The file settles which reports leave
the cortex as one of them would have left it.
-/

namespace Cortex

open Wire RustText

/-- A full report as it comes in. -/
def reportParts (report : Sense.Report) : Parts :=
  ⟨asBytes report.topic, .encoded (envelope report.body)⟩

/-- A full report is what its daemon's contract lets through. -/
theorem encode_report (report : Sense.Report) :
    encode report.topic (envelope report.body) = .ok (reportParts report) := by
  cases report <;> rfl

def reportMsg (report : Sense.Report) : Msg :=
  ⟨report.topic, envelope report.body⟩

/-- A full report comes in. -/
def Sys.answer (env : Env) (report : Sense.Report) (sys : Sys) : Sys :=
  sys.onInbox env (reportParts report)

theorem answer_fields (env : Env) (report : Sense.Report) (sys : Sys) :
    (sys.answer env report).cx =
        sys.cx.merge (env.clock sys.ticks) (reportMsg report) ∧
      (sys.answer env report).writes =
        sys.writes ++ sampleOf (reportMsg report) := by
  have listed : report.topic ∈ TOPICS := by
    cases report <;> simp [Sense.Report.topic, TOPICS]
  have noFrame : isFrame (reportParts report).topic = false := by
    have read : ∀ topic ∈ ["pir", "sonar", "weather"],
        isFrame (asBytes topic) = false := by decide
    exact read report.topic (by cases report <;> simp [Sense.Report.topic])
  have decoded : decode env.prost (reportParts report) =
      .ok (reportMsg report) :=
    decode_encode env.prost listed (encode_report report)
  unfold Sys.answer Sys.onInbox
  rw [if_neg (by simp [noFrame]), decoded]
  dsimp only
  obtain ⟨ticks, rebuilt⟩ :=
    rebuild_eq env (sys.mergeReading env (reportMsg report)) (reportMsg report)
  rw [rebuilt, mergeReading_eq]
  exact ⟨rfl, rfl⟩

/-- A report moves the readings the same way at any time. -/
theorem merge_report_now (report : Sense.Report) (first second : F64)
    (cx : Cortex) :
    cx.merge first (reportMsg report) = cx.merge second (reportMsg report) := by
  cases report <;> rfl

/-- Where a report was merged into the state, merging it again changes no
field. -/
theorem st_merge_report_again (report : Sense.Report) {first second : F64}
    {cx again : Cortex}
    (merged : again.st = (cx.merge first (reportMsg report)).st) :
    (again.merge second (reportMsg report)).st = again.st := by
  apply eq_of_sameSettings (sameSettings_merge _ _ _)
  rw [readings_merge, merged, merge_report_now report first second,
    readings_merge, PartialUpdate.Patch.apply_apply]

/-- The window never leaves the newest sample behind, so the same sample again
is one sample more. -/
theorem windowed_again (window : List (F64 × F64)) (ts hpa : F64) :
    windowed (windowed window ts hpa) ts hpa =
      windowed window ts hpa ++ [(ts, hpa)] := by
  unfold windowed
  cases left : (window ++ [(ts, hpa)]).dropWhile fun sample =>
      BARO_WINDOW_S < ts - sample.1 with
  | nil =>
      have newest := List.dropWhile_eq_nil_iff.mp left (ts, hpa) (by simp)
      simp [BARO_WINDOW_S] at newest
      norm_num at newest
  | cons oldest rest =>
      have inside : ¬ (BARO_WINDOW_S < ts - oldest.1) := by
        have head := List.head?_dropWhile_not
          (fun sample : F64 × F64 => decide (BARO_WINDOW_S < ts - sample.1))
          (window ++ [(ts, hpa)])
        simpa [left] using head
      rw [List.cons_append, List.dropWhile_cons_of_neg (by simpa using inside)]

/-- The same held: the fields of the state, the window with its trend, and the
samples queued for the store. -/
structure SameHeld (first second : Sys) : Prop where
  st : first.cx.st = second.cx.st
  window : first.cx.baro = second.cx.baro
  trend : first.cx.baroTrend = second.cx.baroTrend
  writes : first.writes = second.writes

/-- A report without a pressure leaves the window and the queue alone. -/
theorem answer_quiet (env : Env) {report : Sense.Report}
    (quiet : report.pressure = none) (sys : Sys) :
    (sys.answer env report).cx.baro = sys.cx.baro ∧
      (sys.answer env report).writes = sys.writes := by
  obtain ⟨merged, queued⟩ := answer_fields env report sys
  have noPressure : pressureOf (reportMsg report) = none := by
    cases report with
    | weather air =>
        have unread : air.full.pressureHpa = none := quiet
        simp [pressureOf, reportMsg, Sense.Report.body, envelope, unread]
    | _ => rfl
  have noSample : sampleOf (reportMsg report) = [] := by
    cases report with
    | weather air =>
        have unread : air.full.pressureHpa = none := quiet
        simp only [sampleOf, reportMsg, Sense.Report.body, envelope, unread]
        cases air.full.ts <;> rfl
    | _ => rfl
  rw [merged, queued, noSample, List.append_nil, baro_merge, noPressure]
  exact ⟨rfl, rfl⟩

theorem st_answer_again (env : Env) (report : Sense.Report) (sys : Sys)
    (times : Nat) :
    ((Sys.answer env report)^[times + 1] sys).cx.st =
      (sys.answer env report).cx.st := by
  induction times with
  | zero => rfl
  | succ times induction =>
      have once := (answer_fields env report sys).1
      have merged : ((Sys.answer env report)^[times + 1] sys).cx.st =
          (sys.cx.merge (env.clock sys.ticks) (reportMsg report)).st := by
        rw [induction, once]
      rw [Function.iterate_succ_apply', (answer_fields env report _).1,
        st_merge_report_again report merged, induction]

/-- However often a full report comes in, it leaves what one of it leaves,
exactly when there is no pressure in it. -/
theorem answers_idempotent_iff (env : Env) (report : Sense.Report)
    (sys : Sys) :
    (∀ times, SameHeld ((Sys.answer env report)^[times + 1] sys)
        (sys.answer env report)) ↔
      report.pressure = none := by
  constructor
  · intro idempotent
    cases report with
    | weather air =>
        by_contra pressed
        obtain ⟨hpa, read⟩ := Option.ne_none_iff_exists'.mp pressed
        have sample : pressureOf (reportMsg (.weather air)) =
            some (air.full.ts.getD 0, hpa) := by
          have read : air.full.pressureHpa = some hpa := read
          simp [pressureOf, reportMsg, Sense.Report.body, envelope, read]
        have twice := (idempotent 1).window
        rw [Function.iterate_succ_apply', Function.iterate_one,
          (answer_fields env _ _).1, baro_merge, sample,
          (answer_fields env _ _).1, baro_merge, sample] at twice
        dsimp only at twice
        rw [windowed_again] at twice
        simp at twice
    | _ => rfl
  · intro quiet times
    have held : ((Sys.answer env report)^[times + 1] sys).cx.baro =
          (sys.answer env report).cx.baro ∧
        ((Sys.answer env report)^[times + 1] sys).writes =
          (sys.answer env report).writes := by
      induction times with
      | zero => exact ⟨rfl, rfl⟩
      | succ times induction =>
          rw [Function.iterate_succ_apply']
          obtain ⟨window, writes⟩ := answer_quiet env quiet
            ((Sys.answer env report)^[times + 1] sys)
          exact ⟨window.trans induction.1, writes.trans induction.2⟩
    refine ⟨st_answer_again env report sys times, held.1, ?_, held.2⟩
    unfold Cortex.baroTrend
    rw [held.1]

namespace Trial

open TransitionRun

/-- A weather daemon that has measured the pressure once. -/
def pressed : Sense.Report :=
  .weather ((({} : Sense.Air).baro 20 1013 10).2)

/-- The second of two equal answers is one more sample in the window and one
more record for the store. -/
theorem answer_counted_again :
    ∃ trace sys, Run (Sys.step env) (boot env true host (server ∅)) trace sys ∧
      trace.map Prod.snd = asks ∧
      (sys.answer env pressed).cx.baro = [(10, 1013)] ∧
      ((Sys.answer env pressed)^[2] sys).cx.baro = [(10, 1013), (10, 1013)] ∧
      (sys.answer env pressed).writes = [.baro 10 1013] ∧
      ((Sys.answer env pressed)^[2] sys).writes =
        [.baro 10 1013, .baro 10 1013] := by
  have followed :
      follow (Sys.step env) (boot env true host (server ∅)) asks =
        some (_, _) := rfl
  refine ⟨_, _, run_of_follow followed, actions_of_follow followed, ?_, ?_, ?_,
    ?_⟩
  · decide +kernel
  · decide +kernel
  · rfl
  · rfl

end Trial

end Cortex
