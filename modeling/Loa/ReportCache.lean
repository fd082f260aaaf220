import Loa.SweepReport
import Loa.WholeReplacement

/-!
# The report file and its readers

The daemon writes each report next to the file and renames it over; `--report`
opens the file, reads it, and prints what it finds.  Both may be stopped between
any two system calls.  What a reader prints is what the newest report said when
the reader opened the file.
-/

namespace FaultDaemon

open RustText
open FileDirectory (Directory)
open TransitionRun (Run)
open WholeReplacement

def FAULTS_PATH : String :=
  "/dev/shm/loa-faults.json"

/-- `write_report`: the temporary file, and the text of a report. -/
def writeReport : Exchange Report where
  file := FAULTS_PATH
  temporary := FAULTS_PATH ++ ".tmp"
  differ := by decide
  text := fun rep => asBytes (reportToJson rep)

/-- `{:<width}`. -/
def padded (width : Nat) (text : String) : String :=
  text ++ String.ofList (List.replicate (width - text.length) ' ')

/-- The text of a report; a quiet one has the faults alone. -/
def formatReport (rep : Report) (timeStr : String) (quiet : Bool) : String :=
  let verb :=
    if 0 < rep.faults then "HURTS"
    else if 0 < rep.warns then "niggles"
    else "quiet"
  let rows := rep.rows.filter fun row => !quiet || row.level == FAULT
  "\n".intercalate
    ((verb ++ " — " ++ timeStr ++ "  boot " ++ rep.boot.getD "") ::
      rows.map fun row =>
        "  " ++ padded 5 row.level ++ " " ++ padded 12 row.code ++ " " ++
          row.text)

/-- The report of a file whose time is a finite number. -/
def Cached.report (read : Cached) : Option Report :=
  read.ts.map fun ts =>
    { ts
      boot := read.boot
      rows := read.rows
      faults := read.faults
      warns := read.warns
      condition := read.condition }

/-- What is printed for a report, and the exit code. -/
def printed (clockString : F64 → String) (quiet : Bool) (now : F64)
    (rep : Report) : String × Nat :=
  (formatReport rep (clockString rep.ts) quiet ++ "\ncondition " ++
      condition (some rep) now,
    if 0 < rep.faults then 1 else 0)

/-- The life of `--report`: the text of the file, if it could be read, makes what
is printed and the exit code.  A time that is no finite number makes nothing
here. -/
def reportLife (clockString : F64 → String) (quiet : Bool) (now : F64)
    (text : Option String) : Option (String × Nat) :=
  match text with
  | none =>
      some ("mute — no sweep on file (never swept or cache cleared)", 1)
  | some text =>
      match parseReport text with
      | none =>
          some ("unreadable sweep cache at " ++ FAULTS_PATH ++
            " — treating it as mute", 1)
      | some read => read.report.map (printed clockString quiet now)

/-- What a finished reader prints. -/
def readerPrints (clockString : F64 → String) (quiet : Bool) (now : F64)
    (reader : Reader) : Option (String × Nat) :=
  reportLife clockString quiet now (fromUtf8 reader.got)

/-- The strings of a report are neither escaped nor taken for an end. -/
structure Report.Faithful (rep : Report) : Prop where
  writable : Writable rep
  rows : ∀ r ∈ rep.rows, ∀ s ∈ strings r, Plain s
  boot : ∀ b ∈ rep.boot, ∀ c ∈ b.toList, Verbatim c

/-- The condition of a report is not in its file, and nothing printed depends on
it. -/
theorem printed_cached {rep : Report} (faithful : rep.Faithful)
    (clockString : F64 → String) (quiet : Bool) (now : F64) :
    reportLife clockString quiet now (some (reportToJson rep)) =
      some (printed clockString quiet now rep) := by
  have parsed := (comes_back_iff faithful.writable).mpr
    ⟨faithful.rows, faithful.boot⟩
  unfold reportLife
  dsimp only
  rw [parsed]
  rfl

theorem writeReport_text (rep : Report) :
    writeReport.text rep = asBytes (reportToJson rep) := by
  simp only [writeReport]

/-- In every run of the daemon that writes its reports, in pieces, stopped or
failing anywhere, and of its readers, who read in pieces: a reader that comes to
the end has the text of the report that was published last when it opened the
file, and prints just what that report says where it is faithful to its text; the
reports are published in the order of their sweeps. -/
theorem reader_prints_newest {directory : Directory}
    {trace : List (Desk Report × Move Report)} {last : Desk Report}
    (absent : directory.file FAULTS_PATH = none)
    (run : Run writeReport.step { directory } trace last)
    (clockString : F64 → String) (quiet : Bool) (now : F64) :
    (∀ reader ∈ last.readers, reader.ended = true →
      ∃ rep, last.published[reader.opened - 1]? = some rep ∧
        fromUtf8 reader.got = some (reportToJson rep) ∧
        (rep.Faithful → readerPrints clockString quiet now reader =
          some (printed clockString quiet now rep))) ∧
      last.published.Sublist last.begun := by
  have sound := writeReport.run_sound absent run
  refine ⟨fun reader member ended => ?_, sound.order⟩
  obtain ⟨rep, -, there, got⟩ := sound.whole member ended
  have text : fromUtf8 reader.got = some (reportToJson rep) := by
    rw [got, writeReport_text, fromUtf8_asBytes]
  refine ⟨rep, there, text, fun faithful => ?_⟩
  unfold readerPrints
  rw [text]
  exact printed_cached faithful clockString quiet now

namespace Overtaken

def early : Report :=
  .new 0 none []

def late : Report :=
  .new 60 none [⟨FAULT, "I2C DOWN", "no i2c", ""⟩]

/-- The reader has opened the first report when the second one is written, at the
second try. -/
def moves : List (Move Report) :=
  [.begin early, .put 4000, .publish, .look, .take 0 7, .begin late, .put 3,
    .quit, .begin late, .put 4000, .publish, .take 0 4000, .take 0 1]

abbrev start : Desk Report where
  directory := Directory.empty

theorem followed :
    (TransitionRun.follow writeReport.step start moves).isSome := by
  decide +kernel

def passed : List (Desk Report × Move Report) × Desk Report :=
  (TransitionRun.follow writeReport.step start moves).get followed

theorem follows_passed : TransitionRun.follow writeReport.step start moves =
    some passed :=
  (Option.some_get followed).symm

theorem run : Run writeReport.step start passed.1 passed.2 := by
  have follows := follows_passed
  generalize passed = found at follows
  exact TransitionRun.run_of_follow follows

theorem faithful_early : early.Faithful where
  writable := ⟨RustFloat.finite_natCast (Nat.zero_le _), by decide,
    by decide⟩
  rows := by simp [early, Report.new]
  boot := by simp [early, Report.new]

/-- The reader prints the report that it opened, not the one that overtook it. -/
theorem reader_prints_newest_overtaken :
    let clockString := fun _ => "00:01:00"
    passed.2.published = [early, late] ∧
      ∃ reader ∈ passed.2.readers, reader.ended = true ∧
        readerPrints clockString false 61 reader =
          some (printed clockString false 61 early) := by
  intro clockString
  have published : passed.2.published = [early, late] := by decide +kernel
  have ended : passed.2.readers.all (fun reader =>
      reader.ended && decide (reader.opened = 1)) = true := by
    decide +kernel
  have some : passed.2.readers ≠ [] := by decide +kernel
  obtain ⟨reader, member⟩ := List.exists_mem_of_ne_nil _ some
  obtain ⟨done, first⟩ := Bool.and_eq_true_iff.mp
    (List.all_eq_true.mp ended reader member)
  obtain ⟨rep, there, -, prints⟩ := (reader_prints_newest rfl run clockString
    false 61).1 reader member done
  rw [published, of_decide_eq_true first] at there
  cases there
  exact ⟨published, reader, member, done, prints faithful_early⟩

end Overtaken

end FaultDaemon
