import Loa.ReportFile

/-!
# The report of a sweep in its file

Of all that a sweep puts in its report only the lines of a bus's holders, the
word for the cortex's unit and the door's port come from outside.  The report
comes back from its file exactly when those of them that are in a row are plain,
and the boot id is.
-/

namespace FaultDaemon

open RustText

/-- The letters of a plain text. -/
def PlainLetter (c : Char) : Prop :=
  Verbatim c ∧ c ≠ ']' ∧ c ≠ '\x7d'

instance (c : Char) : Decidable (PlainLetter c) :=
  inferInstanceAs (Decidable (_ ∧ _))

/-- The letters of a text are checked as a list, which costs less than to take
the text apart. -/
theorem plain_letters {letters : List Char}
    (all : letters.all (fun c => PlainLetter c) = true) :
    Plain (String.ofList letters) := by
  unfold Plain
  rw [String.toList_ofList]
  exact fun c member => of_decide_eq_true (List.all_eq_true.mp all c member)

/-- The texts of a table are checked all at once. -/
theorem plain_texts {texts : List String}
    (all : texts.all (fun s => s.toList.all fun c => PlainLetter c) = true)
    {s : String} (listed : s ∈ texts) : Plain s := fun c member =>
  of_decide_eq_true
    (List.all_eq_true.mp (List.all_eq_true.mp all s listed) c member)

@[simp]
theorem plain_append (front back : String) :
    Plain (front ++ back) ↔ Plain front ∧ Plain back := by
  unfold Plain
  simp only [String.toList_append, List.forall_mem_append]

theorem plain_decimal {s : String}
    (decimal : ∀ c ∈ s.toList, RustFloat.Decimal c) : Plain s := by
  intro c member
  rcases decimal c member with digit | rfl | rfl
  · exact @RustFloat.forall_isDigit PlainLetter _ (by decide) _ digit
  · decide
  · decide

theorem plain_nat (count : Nat) : Plain (toString count) :=
  plain_decimal fun _ => decimal_of_mem_toString

theorem plain_int (value : Int) : Plain (toString value) := by
  cases value with
  | ofNat count => exact plain_nat count
  | negSucc count =>
      have spelled : toString (Int.negSucc count) = "-" ++ toString (count + 1) := rfl
      rw [spelled, plain_append]
      exact ⟨plain_letters (by decide), plain_nat _⟩

theorem plain_display (value : F64) : Plain (RustFloat.display value) :=
  plain_decimal fun _ => RustFloat.decimal_of_mem_display

theorem plain_oneDecimal (value : F64) : Plain (RustFloat.oneDecimal value) := by
  unfold RustFloat.oneDecimal
  simp only [plain_append]
  refine ⟨⟨⟨?_, plain_nat _⟩, plain_letters (by decide)⟩, plain_nat _⟩
  split_ifs <;> exact plain_letters (by decide)

theorem digitChar_of_mem_toDigits {count : Nat} {c : Char}
    (member : c ∈ Nat.toDigits 16 count) : ∃ digit < 16, c = digit.digitChar := by
  induction count using Nat.strongRecOn with
  | ind count induction =>
      rw [Nat.toDigits_eq_if (by decide)] at member
      split_ifs at member with small
      · exact ⟨count, small, List.mem_singleton.mp member⟩
      · rcases List.mem_append.mp member with front | last
        · exact induction _ (Nat.div_lt_self (by omega) (by decide)) front
        · exact ⟨_, Nat.mod_lt _ (by decide), List.mem_singleton.mp last⟩

theorem plain_hex (bits : UInt64) : Plain (hex bits) := by
  unfold hex
  rw [plain_append]
  refine ⟨plain_letters (by decide), fun c member => ?_⟩
  rw [String.toList_ofList] at member
  obtain ⟨digit, small, rfl⟩ := digitChar_of_mem_toDigits member
  have digits : ∀ digit < 16, PlainLetter digit.digitChar := by decide
  exact digits digit small

/-- A row of the checks that is plain whatever came from outside. -/
def PlainRow (r : Row) : Prop :=
  ∀ s ∈ strings r, Plain s

theorem plainRow_iff {r : Row} :
    PlainRow r ↔ Plain r.level ∧ Plain r.code ∧ Plain r.text ∧ Plain r.face := by
  simp [PlainRow, strings]

theorem plain_levels : Plain FAULT ∧ Plain WARN ∧ Plain "" :=
  ⟨plain_letters (by decide), plain_letters (by decide), plain_letters (by decide)⟩

theorem plain_units {unit : String} (listed : unit ∈ UNITS) :
    Plain unit ∧ Plain (short unit) :=
  ⟨plain_texts (by decide) listed,
    @plain_texts (UNITS.map short) (by decide) _ (List.mem_map_of_mem listed)⟩

theorem plain_word (state : SvcState) : Plain state.word := by
  cases state <;> exact plain_letters (by decide)

theorem plain_unitRow {unit : String} {reading : SvcState × Bool} {row : Row}
    (listed : unit ∈ UNITS) (found : unitRow unit reading = some row) :
    PlainRow row := by
  obtain ⟨fault, warn, nothing⟩ := plain_levels
  obtain ⟨plainUnit, plainShort⟩ := plain_units listed
  unfold unitRow at found
  split at found
  · cases found
  · rw [← Option.some.inj found, plainRow_iff]
    simp only [Row.new, plain_append]
    exact ⟨fault, ⟨plainShort, plain_letters (by decide)⟩,
      ⟨⟨⟨⟨plainUnit, plain_letters (by decide)⟩, plain_word _⟩,
        plain_letters (by decide)⟩, plain_letters (by decide)⟩, nothing⟩
  · split at found
    · rw [← Option.some.inj found, plainRow_iff]
      simp only [Row.new, plain_append]
      refine ⟨warn, plain_letters (by decide), ⟨plain_letters (by decide), ?_⟩, nothing⟩
      split_ifs <;> exact plain_letters (by decide)
    · rw [← Option.some.inj found, plainRow_iff]
      simp only [Row.new, plain_append]
      exact ⟨fault, ⟨plainShort, plain_letters (by decide)⟩,
        ⟨⟨plainUnit, plain_letters (by decide)⟩, plain_word _⟩, nothing⟩

theorem plain_railRow {tempVal : Option F64} {throttled : Option UInt64} {row : Row}
    (found : railRow RustFloat.display tempVal throttled = some row) :
    PlainRow row := by
  obtain ⟨fault, warn, nothing⟩ := plain_levels
  unfold railRow at found
  split at found
  · cases found
  · dsimp only at found
    split at found
    · rw [← Option.some.inj found, plainRow_iff]
      simp only [Row.new, plain_append]
      refine ⟨fault, plain_letters (by decide), ⟨⟨⟨⟨plain_letters (by decide), ?_⟩,
        plain_letters (by decide)⟩, plain_hex _⟩, plain_letters (by decide)⟩, nothing⟩
      split_ifs <;> exact plain_letters (by decide)
    · split at found
      · rw [← Option.some.inj found, plainRow_iff]
        simp only [Row.withFace, plain_append]
        refine ⟨fault, ?_, ⟨⟨⟨?_, plain_letters (by decide)⟩, plain_hex _⟩,
          plain_letters (by decide)⟩, ?_⟩
        · split_ifs <;> exact plain_letters (by decide)
        · cases tempVal with
          | none => exact plain_letters (by decide)
          | some t =>
              simp only [plain_append]
              exact ⟨⟨plain_letters (by decide), plain_display t⟩,
                plain_letters (by decide)⟩
        · split
          · simp only [plain_append]
            exact ⟨⟨plain_letters (by decide), plain_int _⟩, plain_letters (by decide)⟩
          · exact plain_letters (by decide)
          · exact plain_letters (by decide)
      · cases found

theorem plain_sensors {sensor : String × String × String}
    (listed : sensor ∈ SENSORS) : Plain sensor.1 ∧ Plain sensor.2.1 :=
  ⟨@plain_texts (SENSORS.map fun sensor => sensor.1) (by decide) _
      (List.mem_map_of_mem listed),
    @plain_texts (SENSORS.map fun sensor => sensor.2.1) (by decide) _
      (List.mem_map_of_mem listed)⟩

theorem plain_sensorRow {label valKey : String} {now : F64}
    {reading : Option F64 × Option F64} {row : Row} (plainLabel : Plain label)
    (plainKey : Plain valKey)
    (found : sensorRow label valKey now reading = some row) : PlainRow row := by
  obtain ⟨fault, warn, nothing⟩ := plain_levels
  unfold sensorRow at found
  split at found
  · cases found
  · rw [← Option.some.inj found, plainRow_iff]
    simp only [plain_append]
    exact ⟨warn, ⟨plainLabel, plain_letters (by decide)⟩,
      ⟨plainKey, plain_letters (by decide)⟩, nothing⟩
  · dsimp only at found
    split_ifs at found
    rw [← Option.some.inj found, plainRow_iff]
    simp only [plain_append]
    exact ⟨warn, ⟨plainLabel, plain_letters (by decide)⟩,
      ⟨⟨⟨plainKey, plain_letters (by decide)⟩, plain_int _⟩,
        plain_letters (by decide)⟩,
      ⟨⟨plainLabel, plain_letters (by decide)⟩, plain_int _⟩,
      plain_letters (by decide)⟩

theorem plain_diskRow {disk : Option (UInt64 × F64 × F64)} {row : Row}
    (found : diskRow disk = some row) : PlainRow row := by
  obtain ⟨fault, warn, nothing⟩ := plain_levels
  unfold diskRow at found
  split at found
  · cases found
  · rename_i usedPct freeGb total
    have used : Plain (toString usedPct) := plain_nat usedPct.toNat
    split at found
    · rw [← Option.some.inj found, plainRow_iff]
      simp only [Row.new, plain_append]
      exact ⟨warn, ⟨⟨plain_letters (by decide), used⟩, plain_letters (by decide)⟩,
        ⟨⟨⟨⟨plain_letters (by decide), used⟩, plain_letters (by decide)⟩,
          plain_oneDecimal _⟩, plain_letters (by decide)⟩, nothing⟩
    · cases found

theorem plain_i2cRow {i : Inputs} {row : Row} (found : i2cRow i = some row) :
    PlainRow row := by
  unfold i2cRow at found
  split_ifs at found
  rw [← Option.some.inj found, plainRow_iff]
  exact ⟨plain_letters (by decide), plain_letters (by decide),
    plain_letters (by decide), plain_letters (by decide)⟩

/-- A text put together with separators is plain when its parts are. -/
theorem plain_intercalate {separator : String} (plain : Plain separator)
    (parts : List String) :
    Plain (separator.intercalate parts) ↔ ∀ part ∈ parts, Plain part := by
  induction parts with
  | nil => simp [Plain]
  | cons first parts induction =>
      cases parts with
      | nil => simp
      | cons second parts =>
          rw [String.intercalate_cons_cons, plain_append, plain_append, induction,
            List.forall_mem_cons]
          simp only [plain, and_true, List.forall_mem_cons]

theorem plain_owners {owner : String × String} (listed : owner ∈ BUS_OWNERS) :
    Plain owner.1 ∧ Plain owner.2 ∧ Plain (busLabel owner.1) ∧
      Plain (lower (busLabel owner.1)) := by
  have named {s : String} (member : s ∈ [owner.1, owner.2, busLabel owner.1,
      lower (busLabel owner.1)]) : Plain s :=
    @plain_texts (BUS_OWNERS.flatMap fun owner => [owner.1, owner.2,
        busLabel owner.1, lower (busLabel owner.1)]) (by decide) _
      (List.mem_flatMap.mpr ⟨owner, listed, member⟩)
  exact ⟨named (by simp), named (by simp), named (by simp), named (by simp)⟩

/-- A bus's row is plain unless it names lines of holders that are not. -/
theorem plain_busRow {owner : String × String} (listed : owner ∈ BUS_OWNERS)
    {reading : Bool × List String} {row : Row}
    (found : busRow owner.1 owner.2 reading = some row) :
    PlainRow row ↔ ∀ holder ∈ reading.2, Plain (trim holder) := by
  obtain ⟨fault, warn, nothing⟩ := plain_levels
  obtain ⟨node, expected, label, lowered⟩ := plain_owners listed
  unfold busRow at found
  split at found
  · cases found
  · rename_i holders
    split at found
    · cases found
    · split at found
      · rw [← Option.some.inj found, plainRow_iff]
        have clash : Plain "BUS CLASH" := plain_letters (by decide)
        have held : Plain " held by something else: " := plain_letters (by decide)
        have bar : Plain " | " := plain_letters (by decide)
        simp only [Row.new, clashText, plain_append, plain_intercalate bar,
          List.forall_mem_map, fault, clash, node, held, nothing, true_and,
          and_true]
      · rename_i empty
        rw [← Option.some.inj found, plainRow_iff, not_not.mp empty]
        simp only [Row.new, plain_append]
        refine iff_of_true ⟨fault, ⟨label, plain_letters (by decide)⟩,
          ⟨⟨⟨⟨⟨⟨plain_letters (by decide), node⟩, plain_letters (by decide)⟩,
            expected⟩, plain_letters (by decide)⟩, lowered⟩,
            plain_letters (by decide)⟩, nothing⟩ (by simp)

theorem plain_apiRow {i : Inputs} {row : Row} (found : apiRow i = some row) :
    PlainRow row ↔ Plain i.cortexState ∧ Plain i.apiPort := by
  obtain ⟨fault, warn, nothing⟩ := plain_levels
  unfold apiRow at found
  split at found
  · rw [← Option.some.inj found, plainRow_iff]
    have port : Plain (if i.apiPort = "" then API_PORT_DEFAULT else i.apiPort) ↔
        Plain i.apiPort := by
      split_ifs with unset
      · rw [unset]
        exact iff_of_true (plain_letters (by decide)) nothing
      · rfl
    have listening : Plain (if i.apiListening then "listening" else "closed") := by
      split_ifs <;> exact plain_letters (by decide)
    have texts : Plain "API DEAD" ∧ Plain "cortex not answering on :" ∧
        Plain " (unit '" ∧ Plain "', port " ∧ Plain ")" :=
      ⟨plain_letters (by decide), plain_letters (by decide),
        plain_letters (by decide), plain_letters (by decide),
        plain_letters (by decide)⟩
    obtain ⟨code, answering, unit, comma, close⟩ := texts
    simp only [Row.new, plain_append, port, listening, fault, code, answering,
      unit, comma, close, nothing, true_and, and_true]
    exact and_comm
  · cases found

/-- What a sweep heard and put in a row is plain: the lines of the holders of a
bus that none of them should hold, and the word and the port of a dead door. -/
structure Printable (i : Inputs) : Prop where
  holders : ∀ owner ∈ BUS_OWNERS, ∀ holders,
    i.bus.lookup owner.1 = some (true, holders) →
      (∀ holder ∈ holders, ¬ Names owner.2 holder) →
        ∀ holder ∈ holders, Plain (trim holder)
  door : i.cortexState ≠ "active" ∨ ¬ i.apiListening →
    Plain i.cortexState ∧ Plain i.apiPort

/-- A bus has a row only when nobody who should hold it does. -/
theorem unnamed_of_busRow {bus expected : String} {holders : List String} {row : Row}
    (found : busRow bus expected (true, holders) = some row) :
    ∀ holder ∈ holders, ¬ Names expected holder := by
  intro holder member names
  have nothing : busRow bus expected (true, holders) = none :=
    busRow_eq_none.mpr fun _ => ⟨holder, member, names⟩
  rw [nothing] at found
  cases found

/-- All rows of the checks are plain exactly when what they name is. -/
theorem plain_checkRows (i : Inputs) :
    (∀ row ∈ checkRows RustFloat.display i, PlainRow row) ↔ Printable i := by
  constructor
  · intro plain
    constructor
    · intro owner listed holders probed unnamed
      by_cases held : holders = []
      · rw [held]
        simp
      · obtain ⟨row, found, -⟩ :=
          @busRow_of_unnamed owner.1 owner.2 holders held unnamed
        refine (plain_busRow listed found).mp (plain row (mem_checkRows.mpr
          (.bus owner listed ?_)))
        rw [probed]
        exact found
    · intro dead
      have found : ∃ row, apiRow i = some row := by
        unfold apiRow
        rw [if_pos dead]
        exact ⟨_, rfl⟩
      obtain ⟨row, found⟩ := found
      exact (plain_apiRow found).mp (plain row (mem_checkRows.mpr (.api found)))
  · intro printable row member
    cases mem_checkRows.mp member with
    | unit unit listed found => exact plain_unitRow listed found
    | bus owner listed found =>
        refine (plain_busRow listed found).mpr ?_
        rcases probed : i.bus.lookup owner.1 with _ | ⟨_ | _, holders⟩
        · simp
        · rw [probed] at found
          cases found
        · rw [probed] at found
          exact printable.holders owner listed holders probed
            (unnamed_of_busRow found)
    | rail found => exact plain_railRow found
    | sensor sensor listed found =>
        obtain ⟨label, key⟩ := plain_sensors listed
        exact plain_sensorRow label key found
    | disk found => exact plain_diskRow found
    | api found =>
        refine (plain_apiRow found).mpr (printable.door ?_)
        by_contra alive
        unfold apiRow at found
        rw [if_neg alive] at found
        cases found
    | i2c found => exact plain_i2cRow found

theorem length_checkRows (display : F64 → String) (i : Inputs) :
    (checkRows display i).length ≤ 15 := by
  have units : (unitRows i.services).length ≤ 7 := List.length_filterMap_le _ _
  have buses : (busRows i.bus).length ≤ 2 := List.length_filterMap_le _ _
  have sensors : (sensorRows i.sensors i.now).length ≤ 2 :=
    List.length_filterMap_le _ _
  have one (row : Option Row) : row.toList.length ≤ 1 := by
    cases row <;> simp
  unfold checkRows
  simp only [List.length_append]
  have rails := one (railRow display i.tempVal i.throttled)
  have disk := one (diskRow i.disk)
  have api := one (apiRow i)
  have i2c := one (i2cRow i)
  omega

/-- The report that a sweep makes. -/
def sweepReport (i : Inputs) (ts : F64) (boot : Option String) : Report :=
  .new ts boot (evaluate RustFloat.display i).1

theorem writable_sweepReport (i : Inputs) {ts : F64} (boot : Option String)
    (finite : RustFloat.Finite ts) : Writable (sweepReport i ts boot) := by
  have length : (evaluate RustFloat.display i).1.length ≤ 15 :=
    (List.length_mergeSort _).trans_le (length_checkRows _ i)
  refine ⟨finite, ?_, ?_⟩
  · exact ((List.length_filter_le _ _).trans length).trans_lt (by norm_num)
  · exact ((List.length_filter_le _ _).trans length).trans_lt (by norm_num)

/-- The report of a sweep comes back from its file exactly when what the sweep
heard and put in a row is plain, and nothing in the boot id is escaped. -/
theorem report_comes_back_iff (i : Inputs) {ts : F64} (boot : Option String)
    (finite : RustFloat.Finite ts) :
    parseReport (reportToJson (sweepReport i ts boot)) =
        some (sweepReport i ts boot).cached ↔
      Printable i ∧ ∀ b ∈ boot, ∀ c ∈ b.toList, Verbatim c := by
  rw [comes_back_iff (writable_sweepReport i boot finite), ← plain_checkRows]
  have rows : (∀ r ∈ (sweepReport i ts boot).rows, ∀ s ∈ strings r, Plain s) ↔
      ∀ row ∈ checkRows RustFloat.display i, PlainRow row :=
    forall_congr' fun row => imp_congr_left mem_evaluate
  exact and_congr_left' rows

namespace Vectors

/-- A stranger whose name has a bracket. -/
def bracketed : String :=
  "/dev/spidev0.0:      root         99 F.... python[2]"

theorem bracketed_unnamed : ¬ Names "loa-oled" bracketed := by
  decide

theorem not_plain_bracketed : ¬ Plain (trim bracketed) := by
  intro plain
  have bracket : ']' ∈ (trim bracketed).toList := by decide
  exact (plain ']' bracket).2.1 rfl

/-- The seconds of one second in September 2026. -/
def someSecond : F64 := (1789905600 : Nat)

theorem finite_someSecond : RustFloat.Finite someSecond :=
  RustFloat.finite_natCast (by norm_num)

/-- The bracket in one holder's line ends all rows. -/
theorem report_cut_short :
    ¬ ∀ (i : Inputs) (ts : F64) (boot : Option String), RustFloat.Finite ts →
      parseReport (reportToJson (sweepReport i ts boot)) =
        some (sweepReport i ts boot).cached := by
  intro claim
  have parsed := claim (heldBy [bracketed]) someSecond none finite_someSecond
  have plain := ((comes_back_iff
    (writable_sweepReport _ none finite_someSecond)).mp parsed).1
  have printable := (plain_checkRows (heldBy [bracketed])).mp fun row member =>
    plain row (mem_evaluate.mpr member)
  refine not_plain_bracketed (printable.holders ("/dev/spidev0.0", "loa-oled")
    (List.mem_cons_self ..) _ (lookup_heldBy _) ?_ _ (List.mem_singleton_self _))
  intro holder member
  rw [List.mem_singleton.mp member]
  exact bracketed_unnamed

/-- A stranger without a bracket. -/
theorem report_comes_back_iff_stranger :
    parseReport (reportToJson (sweepReport (heldBy [stranger]) someSecond none)) =
      some (sweepReport (heldBy [stranger]) someSecond none).cached := by
  refine (report_comes_back_iff (heldBy [stranger]) none finite_someSecond).mpr
    ⟨⟨?_, ?_⟩, by simp⟩
  · intro owner listed holders probed unnamed holder member
    have face : holders = [stranger] := by
      by_cases same : owner.1 = "/dev/spidev0.0"
      · rw [same, lookup_heldBy] at probed
        exact (Prod.mk.inj (Option.some.inj probed)).2.symm
      · have nothing : (heldBy [stranger]).bus.lookup owner.1 = none := by
          unfold heldBy
          rw [AList.lookup_insert_ne same]
          rfl
        rw [nothing] at probed
        cases probed
    rw [face] at member
    rw [List.mem_singleton.mp member]
    exact plain_letters (by decide)
  · rintro (inactive | closed)
    · exact absurd rfl inactive
    · exact absurd rfl closed

end Vectors

end FaultDaemon
