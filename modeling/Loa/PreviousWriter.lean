import Loa.SettingsAdoption

/-!
# The settings of the previous writer

The cortex was a Python program before, and a table that it wrote is read at the
first boot of this one.  Its own boot coerces what is stored for a flag; here a
number is no flag.  The file says which tables the two boots read alike.
-/

namespace Cortex

open Json

/-- The flags among the settings. -/
def BOOL_KEYS : List String :=
  ["oled_dim", "ripperdoc", "snr_on", "oled_flip"]

namespace Previous

/-- The settings that the Python cortex keeps. -/
def SETTING_KEYS : List String :=
  ["mood", "mood_set_at", "ring_state", "oled_mode", "oled_text", "oled_dim",
    "ripperdoc", "page", "snr_on", "expression", "oled_flip"]

/-- The settings among the defaults of its state. -/
def DEFAULTS : Dict Value where
  entries :=
    [⟨"mood", .string "calm"⟩, ⟨"mood_set_at", .null⟩,
      ⟨"page", .string "sensors"⟩, ⟨"expression", .null⟩,
      ⟨"ring_state", .string "home"⟩, ⟨"oled_mode", .string "scope"⟩,
      ⟨"oled_text", .null⟩, ⟨"oled_dim", .bool false⟩,
      ⟨"oled_flip", .bool true⟩, ⟨"ripperdoc", .bool false⟩,
      ⟨"snr_on", .bool true⟩]
  nodupKeys := by
    rw [List.NodupKeys]
    decide

/-- `bool` of a value. -/
def truth : Value → Bool
  | .null => false
  | .bool flag => flag
  | .number (.integer value) => value ≠ 0
  | .number (.double value) => value ≠ 0
  | .string text => text ≠ ""
  | .array values => !values.isEmpty
  | .object fields => !fields.isEmpty

/-- The stored rows of the settings that it keeps. -/
def loadSettings (table : Dict Value) : List (String × Value) :=
  rowsUnder SETTING_KEYS table

/-- What its state takes for a stored value. -/
def coerced (key : String) (value : Value) : Value :=
  if key ∉ ["oled_dim", "ripperdoc", "snr_on", "oled_flip"] then value
  else .bool (truth value)

/-- The settings of its state after a boot from a table. -/
def boot (table : Dict Value) : Dict Value :=
  (loadSettings table).foldl
    (fun state row =>
      if row.1 ∈ SETTING_KEYS then state.insert row.1 (coerced row.1 row.2)
      else state)
    DEFAULTS

theorem lookup_foldl_insert {rows : List (String × Value)}
    (kept : ∀ row ∈ rows, row.1 ∈ SETTING_KEYS)
    (distinct : (rows.map Prod.fst).Nodup) (state : Dict Value) (key : String) :
    (rows.foldl
        (fun state row =>
          if row.1 ∈ SETTING_KEYS then state.insert row.1 (coerced row.1 row.2)
          else state)
        state).lookup key =
      ((rows.lookup key).map (coerced key)).or (state.lookup key) := by
  induction rows generalizing state with
  | nil => rfl
  | cons row rest induction =>
      obtain ⟨name, value⟩ := row
      rw [List.map_cons, List.nodup_cons] at distinct
      have first : name ∈ SETTING_KEYS := kept _ List.mem_cons_self
      rw [List.foldl_cons, if_pos first, lookup_cons_eq,
        induction (fun later member => kept later (List.mem_cons_of_mem _ member))
          distinct.2]
      by_cases same : key = name
      · subst same
        rw [lookup_eq_none_of_key distinct.1, AList.lookup_insert,
          if_pos rfl]
        rfl
      · rw [AList.lookup_insert_ne same, if_neg same]
        rfl

theorem lookup_boot (table : Dict Value) {key : String}
    (kept : key ∈ SETTING_KEYS) :
    (boot table).lookup key =
      ((table.lookup key).map (coerced key)).or (DEFAULTS.lookup key) := by
  unfold boot loadSettings
  rw [lookup_foldl_insert _ (rowsUnder_distinct SETTING_KEYS table),
    lookup_rowsUnder table kept]
  intro row member
  exact of_decide_eq_true (List.mem_filter.mp member).2

end Previous

/-- A table as the Python cortex writes it: a truth value, a zero or a one for a
flag, and a text or a null for every other setting. -/
def Written (table : Dict Value) : Prop :=
  ∀ key ∈ PERSISTED, ∀ value ∈ table.lookup key,
    if key ∈ BOOL_KEYS then
      (∃ flag, value = .bool flag) ∨ value = .number (.integer 0) ∨
        value = .number (.integer 1)
    else value = .null ∨ ∃ text, value = .string text

/-- The setting under a key is the same after both boots. -/
def AgreeAt (table : Dict Value) (key : String) : Prop :=
  (settingsSnapshot (bootFrom table)).lookup key =
    (Previous.boot table).lookup key

/-- A number under this key stands for the flag's default, and a null is stored
for the text of the face alone. -/
def AdoptableAt (table : Dict Value) (key : String) : Prop :=
  ∀ value ∈ table.lookup key,
    (∀ number, value = .number number →
      some (.bool (Previous.truth value)) = Previous.DEFAULTS.lookup key) ∧
    (value = .null → key = "oled_text")

section Keys

variable {found : Option Value}

/-- A text setting: only a null sets the two apart. -/
theorem text_agree (held : String)
    (shape : ∀ value ∈ found, value = .null ∨ ∃ text, value = .string text) :
    some (Value.string (textOr held found)) =
        found.or (some (.string held)) ↔
      ∀ value ∈ found, value ≠ .null := by
  cases found with
  | none => simp [textOr]
  | some value =>
      rcases shape value rfl with rfl | ⟨text, rfl⟩ <;> simp [textOr]

/-- The text of the face: a null is no text on both sides. -/
theorem note_agree
    (shape : ∀ value ∈ found, value = .null ∨ ∃ text, value = .string text) :
    some (Value.ofText (noteOr none found)) = found.or (some .null) := by
  cases found with
  | none => rfl
  | some value =>
      rcases shape value rfl with rfl | ⟨text, rfl⟩ <;> rfl

/-- A flag: only a number that is not the default sets the two apart. -/
theorem flag_agree (held : Bool)
    (shape : ∀ value ∈ found, (∃ flag, value = .bool flag) ∨
      value = .number (.integer 0) ∨ value = .number (.integer 1)) :
    some (Value.bool (flagOr held found)) =
        (found.map fun value => Value.bool (Previous.truth value)).or
          (some (.bool held)) ↔
      ∀ value ∈ found, ∀ number, value = .number number →
        Previous.truth value = held := by
  cases found with
  | none => simp [flagOr]
  | some value =>
      rcases shape value rfl with ⟨flag, rfl⟩ | rfl | rfl
      · simp [flagOr, Previous.truth]
      · simp [flagOr, Previous.truth]
      · simp [flagOr, Previous.truth]

end Keys

section Tables

variable {table : Dict Value} {key : String}

theorem agreeAt_text (held : String)
    (mine : (settingsSnapshot (bootFrom table)).lookup key =
      some (.string (textOr held (table.lookup key))))
    (initial : Previous.DEFAULTS.lookup key = some (.string held))
    (kept : key ∈ Previous.SETTING_KEYS) (unflagged : key ∉ BOOL_KEYS)
    (noNote : key ≠ "oled_text")
    (shape : ∀ value ∈ table.lookup key,
      value = .null ∨ ∃ text, value = .string text) :
    AgreeAt table key ↔ AdoptableAt table key := by
  have same : Previous.coerced key = id := by
    funext value
    exact if_pos unflagged
  unfold AgreeAt AdoptableAt
  rw [mine, Previous.lookup_boot table kept, initial, same, Option.map_id,
    id_eq, text_agree held shape]
  apply forall₂_congr
  intro value member
  constructor
  · intro filled
    refine ⟨?_, fun null => absurd null filled⟩
    rintro number rfl
    rcases shape _ member with impossible | ⟨text, impossible⟩ <;>
      cases impossible
  · intro adoptable null
    exact noNote (adoptable.2 null)

theorem agreeAt_note
    (shape : ∀ value ∈ table.lookup "oled_text",
      value = .null ∨ ∃ text, value = .string text) :
    AgreeAt table "oled_text" ↔ AdoptableAt table "oled_text" := by
  have mine : (settingsSnapshot (bootFrom table)).lookup "oled_text" =
      some (.ofText (noteOr none (table.lookup "oled_text"))) := by
    rw [bootFrom_eq]
    rfl
  have same : Previous.coerced "oled_text" = id := by
    funext value
    exact if_pos (by decide)
  have initial : Previous.DEFAULTS.lookup "oled_text" = some .null := rfl
  have agree : AgreeAt table "oled_text" := by
    unfold AgreeAt
    rw [mine, Previous.lookup_boot table (by decide), initial, same,
      Option.map_id, id_eq, note_agree shape]
  refine ⟨fun _ value member => ⟨?_, fun _ => rfl⟩, fun _ => agree⟩
  rintro number rfl
  rcases shape _ member with impossible | ⟨text, impossible⟩ <;>
    cases impossible

theorem agreeAt_flag (held : Bool)
    (mine : (settingsSnapshot (bootFrom table)).lookup key =
      some (.bool (flagOr held (table.lookup key))))
    (initial : Previous.DEFAULTS.lookup key = some (.bool held))
    (kept : key ∈ Previous.SETTING_KEYS) (flagged : key ∈ BOOL_KEYS)
    (shape : ∀ value ∈ table.lookup key, (∃ flag, value = .bool flag) ∨
      value = .number (.integer 0) ∨ value = .number (.integer 1)) :
    AgreeAt table key ↔ AdoptableAt table key := by
  have same : Previous.coerced key =
      fun value => .bool (Previous.truth value) := by
    funext value
    exact if_neg (not_not.mpr flagged)
  unfold AgreeAt AdoptableAt
  rw [mine, Previous.lookup_boot table kept, initial, same,
    flag_agree held shape]
  apply forall₂_congr
  intro value member
  constructor
  · intro agrees
    refine ⟨fun number isNumber => ?_, ?_⟩
    · rw [agrees number isNumber]
    · rintro rfl
      rcases shape _ member with ⟨flag, impossible⟩ | impossible | impossible <;>
        cases impossible
  · intro adoptable number isNumber
    exact Value.bool.inj (Option.some.inj (adoptable.1 number isNumber))

/-- Over the tables that the Python cortex writes, its boot and this one give
the same nine settings exactly when every number stands for its flag's default
and no text but the face's is null. -/
theorem boots_agree_iff (written : Written table) :
    (∀ key ∈ PERSISTED, AgreeAt table key) ↔
      ∀ key ∈ PERSISTED, AdoptableAt table key := by
  have text (key : String) (kept : key ∈ PERSISTED)
      (unflagged : key ∉ BOOL_KEYS) : ∀ value ∈ table.lookup key,
        value = .null ∨ ∃ text, value = .string text := by
    intro value member
    have shape := written key kept value member
    rwa [if_neg unflagged] at shape
  have flag (key : String) (kept : key ∈ PERSISTED)
      (flagged : key ∈ BOOL_KEYS) : ∀ value ∈ table.lookup key,
        (∃ flag, value = .bool flag) ∨ value = .number (.integer 0) ∨
          value = .number (.integer 1) := by
    intro value member
    have shape := written key kept value member
    rwa [if_pos flagged] at shape
  apply forall₂_congr
  intro key kept
  have kept' := kept
  simp only [PERSISTED, List.mem_cons, List.not_mem_nil, or_false] at kept'
  rcases kept' with rfl | rfl | rfl | rfl | rfl | rfl | rfl | rfl | rfl
  · exact agreeAt_text "calm" (by rw [bootFrom_eq]; rfl) rfl
      (by decide) (by decide) (by decide) (text _ kept (by decide))
  · exact agreeAt_text "sensors" (by rw [bootFrom_eq]; rfl) rfl
      (by decide) (by decide) (by decide) (text _ kept (by decide))
  · exact agreeAt_text "home" (by rw [bootFrom_eq]; rfl) rfl
      (by decide) (by decide) (by decide) (text _ kept (by decide))
  · exact agreeAt_text "scope" (by rw [bootFrom_eq]; rfl) rfl
      (by decide) (by decide) (by decide) (text _ kept (by decide))
  · exact agreeAt_note (text _ kept (by decide))
  · exact agreeAt_flag false (by rw [bootFrom_eq]; rfl) rfl
      (by decide) (by decide) (flag _ kept (by decide))
  · exact agreeAt_flag false (by rw [bootFrom_eq]; rfl) rfl
      (by decide) (by decide) (flag _ kept (by decide))
  · exact agreeAt_flag true (by rw [bootFrom_eq]; rfl) rfl
      (by decide) (by decide) (flag _ kept (by decide))
  · exact agreeAt_flag true (by rw [bootFrom_eq]; rfl) rfl
      (by decide) (by decide) (flag _ kept (by decide))

end Tables

namespace Trial

/-- The console was on when the Python cortex stopped. -/
def consoleRow : Dict Value :=
  AList.singleton "ripperdoc" (.number (.integer 1))

theorem written_consoleRow : Written consoleRow := by
  intro key _ value member
  by_cases same : key = "ripperdoc"
  · subst same
    have one : value = .number (.integer 1) :=
      (Option.some.inj member).symm
    rw [if_pos (by decide)]
    exact Or.inr (Or.inr one)
  · have nothing : consoleRow.lookup key = none := by
      rw [AList.lookup_eq_none, consoleRow, AList.mem_keys, AList.keys_singleton,
        List.mem_singleton]
      exact same
    rw [nothing] at member
    cases member

/-- The Python cortex comes up with the console on, this one with it off. -/
theorem console_lost :
    Written consoleRow ∧
      (Previous.boot consoleRow).lookup "ripperdoc" = some (.bool true) ∧
      (bootFrom consoleRow).st.ripperdoc = false ∧
      ¬ ∀ key ∈ PERSISTED, AgreeAt consoleRow key := by
  have mine : (bootFrom consoleRow).st.ripperdoc = false := rfl
  have other : (Previous.boot consoleRow).lookup "ripperdoc" =
      some (.bool true) := rfl
  refine ⟨written_consoleRow, other, mine, fun agree => ?_⟩
  have same := agree "ripperdoc" (by decide)
  unfold AgreeAt at same
  rw [other] at same
  cases same

theorem boots_agree_iff_consoleRow :
    (∀ key ∈ PERSISTED, AgreeAt consoleRow key) ↔
      ∀ key ∈ PERSISTED, AdoptableAt consoleRow key :=
  boots_agree_iff written_consoleRow

end Trial

end Cortex
