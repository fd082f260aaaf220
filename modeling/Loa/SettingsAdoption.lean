import Loa.CortexStore

/-!
# Settings through the store and back

Adopting stored rows is one step a row; when no key comes twice, what is adopted
depends only on what is found under each key, so not on the order of the rows.
A snapshot then comes back as it went out.
-/

namespace Cortex

open Json

/-- The state with the settings of another one. -/
def withSettings (st settings : State) : State :=
  { st with
    mood := settings.mood
    page := settings.page
    ringState := settings.ringState
    oledMode := settings.oledMode
    oledText := settings.oledText
    oledDim := settings.oledDim
    oledFlip := settings.oledFlip
    ripperdoc := settings.ripperdoc
    snrOn := settings.snrOn }

/-- A text that is found, or the one held. -/
def textOr (held : String) : Option Value → String
  | some (.string text) => text
  | _ => held

/-- A text that may be absent: one that is found, or what is held. -/
def noteOr (held : Option String) : Option Value → Option String
  | some (.string text) => some text
  | _ => held

/-- A flag that is found, or the one held. -/
def flagOr (held : Bool) : Option Value → Bool
  | some (.bool flag) => flag
  | _ => held

/-- The state with what is found under each key, where the shape is right. -/
def adoptedFrom (st : State) (found : String → Option Value) : State :=
  { st with
    mood := textOr st.mood (found "mood")
    page := textOr st.page (found "page")
    ringState := textOr st.ringState (found "ring_state")
    oledMode := textOr st.oledMode (found "oled_mode")
    oledText := noteOr st.oledText (found "oled_text")
    oledDim := flagOr st.oledDim (found "oled_dim")
    oledFlip := flagOr st.oledFlip (found "oled_flip")
    ripperdoc := flagOr st.ripperdoc (found "ripperdoc")
    snrOn := flagOr st.snrOn (found "snr_on") }

theorem adoptedFrom_nothing (st : State) :
    adoptedFrom st (fun _ => none) = st :=
  rfl

theorem adoptedFrom_congr (st : State) {first second : String → Option Value}
    (same : ∀ key ∈ PERSISTED, first key = second key) :
    adoptedFrom st first = adoptedFrom st second := by
  unfold adoptedFrom
  rw [same "mood" (by decide), same "page" (by decide),
    same "ring_state" (by decide), same "oled_mode" (by decide),
    same "oled_text" (by decide), same "oled_dim" (by decide),
    same "oled_flip" (by decide), same "ripperdoc" (by decide),
    same "snr_on" (by decide)]

section Apart

variable {first second : Option Value} (apart : first = none ∨ second = none)

include apart

theorem textOr_textOr (held : String) :
    textOr (textOr held first) second = textOr held (first.or second) := by
  rcases apart with rfl | rfl
  · rfl
  · rw [Option.or_none]
    rfl

theorem noteOr_noteOr (held : Option String) :
    noteOr (noteOr held first) second = noteOr held (first.or second) := by
  rcases apart with rfl | rfl
  · rfl
  · rw [Option.or_none]
    rfl

theorem flagOr_flagOr (held : Bool) :
    flagOr (flagOr held first) second = flagOr held (first.or second) := by
  rcases apart with rfl | rfl
  · rfl
  · rw [Option.or_none]
    rfl

end Apart

theorem adoptedFrom_adoptedFrom (st : State)
    {first second : String → Option Value}
    (apart : ∀ key, first key = none ∨ second key = none) :
    adoptedFrom (adoptedFrom st first) second =
      adoptedFrom st fun key => (first key).or (second key) := by
  simp only [adoptedFrom, textOr_textOr (apart _), noteOr_noteOr (apart _),
    flagOr_flagOr (apart _)]

section Single

variable (value : Value) (key name : String)

theorem textOr_single (held : String) :
    textOr held (if name = key then some value else none) =
      if key = name then textOr held (some value) else held := by
  by_cases same : name = key
  · rw [if_pos same, if_pos same.symm]
  · rw [if_neg same, if_neg (Ne.symm same)]
    rfl

theorem noteOr_single (held : Option String) :
    noteOr held (if name = key then some value else none) =
      if key = name then noteOr held (some value) else held := by
  by_cases same : name = key
  · rw [if_pos same, if_pos same.symm]
  · rw [if_neg same, if_neg (Ne.symm same)]
    rfl

theorem flagOr_single (held : Bool) :
    flagOr held (if name = key then some value else none) =
      if key = name then flagOr held (some value) else held := by
  by_cases same : name = key
  · rw [if_pos same, if_pos same.symm]
  · rw [if_neg same, if_neg (Ne.symm same)]
    rfl

end Single

/-- One row is what is found under its key. -/
theorem adoptSetting_eq (st : State) (key : String) (value : Value) :
    adoptSetting st (key, value) =
      adoptedFrom st fun other => if other = key then some value else none := by
  simp only [adoptedFrom, textOr_single, noteOr_single, flagOr_single]
  cases value with
  | string text =>
      simp only [adoptSetting, textOr, noteOr, flagOr, ite_self]
      split_ifs <;> simp_all
  | bool flag =>
      simp only [adoptSetting, textOr, noteOr, flagOr, ite_self]
      split_ifs <;> simp_all
  | _ => simp only [adoptSetting, textOr, noteOr, flagOr, ite_self]

theorem lookup_cons_eq (key name : String) (value : Value)
    (rows : List (String × Value)) :
    ((name, value) :: rows).lookup key =
      (if key = name then some value else none).or (rows.lookup key) := by
  rw [List.lookup_cons]
  by_cases same : key = name
  · simp [same]
  · rw [if_neg same, beq_eq_false_iff_ne.mpr same]
    rfl

theorem lookup_eq_none_of_key {rows : List (String × Value)} {key : String}
    (absent : key ∉ rows.map Prod.fst) : rows.lookup key = none := by
  rw [List.lookup_eq_none_iff]
  intro row member
  rw [bne_iff_ne]
  rintro rfl
  exact absent (List.mem_map_of_mem member)

theorem lookup_of_mem {rows : List (String × Value)} {key : String}
    {value : Value} (distinct : (rows.map Prod.fst).Nodup)
    (member : (key, value) ∈ rows) : rows.lookup key = some value := by
  induction rows with
  | nil => cases member
  | cons row rest induction =>
      obtain ⟨name, other⟩ := row
      rw [List.map_cons, List.nodup_cons] at distinct
      rw [lookup_cons_eq]
      rcases List.mem_cons.mp member with same | later
      · cases same
        rw [if_pos rfl]
        rfl
      · have differ : key ≠ name := by
          rintro rfl
          exact distinct.1 (List.mem_map.mpr ⟨_, later, rfl⟩)
        rw [if_neg differ, induction distinct.2 later]
        rfl

/-- Rows with distinct keys are adopted key by key. -/
theorem foldl_adoptSetting {rows : List (String × Value)}
    (distinct : (rows.map Prod.fst).Nodup) (st : State) :
    rows.foldl adoptSetting st =
      adoptedFrom st fun key => rows.lookup key := by
  induction rows generalizing st with
  | nil => exact (adoptedFrom_nothing st).symm
  | cons row rest induction =>
      obtain ⟨name, value⟩ := row
      rw [List.map_cons, List.nodup_cons] at distinct
      have apart (key : String) :
          (if key = name then some value else none) = none ∨
            rest.lookup key = none := by
        by_cases same : key = name
        · right
          subst same
          exact lookup_eq_none_of_key distinct.1
        · left
          exact if_neg same
      rw [List.foldl_cons, induction distinct.2, adoptSetting_eq,
        adoptedFrom_adoptedFrom _ apart]
      congr 1
      funext key
      rw [lookup_cons_eq]

/-- The keys of a snapshot, in its order. -/
theorem keys_snapshot (cx : Cortex) :
    (settingsSnapshot cx).map Prod.fst =
      ["mood", "ring_state", "oled_mode", "oled_text", "oled_dim", "oled_flip",
        "ripperdoc", "page", "snr_on"] :=
  rfl

theorem keys_snapshot_nodup (cx : Cortex) :
    ((settingsSnapshot cx).map Prod.fst).Nodup := by
  rw [keys_snapshot]
  decide

theorem persisted_of_mem_snapshot {cx : Cortex} {row : String × Value}
    (member : row ∈ settingsSnapshot cx) : row.1 ∈ PERSISTED := by
  have key := List.mem_map_of_mem (f := Prod.fst) member
  rw [keys_snapshot] at key
  have kept : ∀ name ∈ ["mood", "ring_state", "oled_mode", "oled_text",
      "oled_dim", "oled_flip", "ripperdoc", "page", "snr_on"],
      name ∈ PERSISTED := by decide
  exact kept row.1 key

/-- Adopting what a snapshot says of each key gives its settings. -/
theorem adoptedFrom_snapshot {cx : Cortex} {found : String → Option Value}
    (tells : ∀ row ∈ settingsSnapshot cx, found row.1 = some row.2) :
    adoptedFrom {} found = withSettings {} cx.st := by
  have said (key : String) (value : Value)
      (member : (key, value) ∈ settingsSnapshot cx) :
      found key = some value :=
    tells (key, value) member
  have text : noteOr none (some (.ofText cx.st.oledText)) = cx.st.oledText := by
    cases cx.st.oledText <;> rfl
  unfold adoptedFrom
  rw [said "mood" (.string cx.st.mood) (by simp [settingsSnapshot]),
    said "page" (.string cx.st.page) (by simp [settingsSnapshot]),
    said "ring_state" (.string cx.st.ringState) (by simp [settingsSnapshot]),
    said "oled_mode" (.string cx.st.oledMode) (by simp [settingsSnapshot]),
    said "oled_text" (.ofText cx.st.oledText) (by simp [settingsSnapshot]),
    said "oled_dim" (.bool cx.st.oledDim) (by simp [settingsSnapshot]),
    said "oled_flip" (.bool cx.st.oledFlip) (by simp [settingsSnapshot]),
    said "ripperdoc" (.bool cx.st.ripperdoc) (by simp [settingsSnapshot]),
    said "snr_on" (.bool cx.st.snrOn) (by simp [settingsSnapshot]), text]
  rfl

/-- The rows of a snapshot in any order. -/
theorem adoptSettings_perm {cx : Cortex} {rows : List (String × Value)}
    (stored : rows.Perm (settingsSnapshot cx)) :
    adoptSettings {} rows = { st := withSettings {} cx.st } := by
  have distinct : (rows.map Prod.fst).Nodup :=
    (stored.map Prod.fst).nodup_iff.mpr (keys_snapshot_nodup cx)
  unfold adoptSettings
  rw [foldl_adoptSetting distinct]
  dsimp only
  congr 1
  exact adoptedFrom_snapshot fun row member =>
    lookup_of_mem distinct (stored.mem_iff.mpr member)

/-- The rows of a snapshot in any order with rows of other keys among them: what
passes the filter and is adopted are the nine settings, and everything else is
as at boot. -/
theorem snapshot_restored (cx : Cortex) {rows extra : List (String × Value)}
    (foreign : ∀ row ∈ extra, row.1 ∉ PERSISTED)
    (stored : rows.Perm (settingsSnapshot cx ++ extra)) :
    adoptSettings {} (rows.filter fun row => row.1 ∈ PERSISTED) =
      { st := withSettings {} cx.st } := by
  have kept : (settingsSnapshot cx).filter (fun row => row.1 ∈ PERSISTED) =
      settingsSnapshot cx :=
    List.filter_eq_self.mpr fun row member =>
      decide_eq_true (persisted_of_mem_snapshot member)
  have dropped : extra.filter (fun row => row.1 ∈ PERSISTED) = [] :=
    List.filter_eq_nil_iff.mpr fun row member =>
      mt of_decide_eq_true (foreign row member)
  apply adoptSettings_perm
  have filtered := stored.filter fun row => row.1 ∈ PERSISTED
  rw [List.filter_append, kept, dropped, List.append_nil] at filtered
  exact filtered

/-- An alarmed cortex, its rows stored backwards around a key that nobody
reads. -/
theorem snapshot_restored_alarmed :
    let cx : Cortex := { st := { mood := "alarmed", oledText := some "" } }
    adoptSettings {} (((settingsSnapshot cx).reverse ++
        [("expression", Value.null)]).filter fun row => row.1 ∈ PERSISTED) =
      { st := withSettings {} cx.st } := by
  intro cx
  apply @snapshot_restored cx _ [("expression", Value.null)]
  · simp [PERSISTED]
  · exact (List.reverse_perm _).append_right _

/-- The rows of a table under some keys. -/
def rowsUnder (keys : List String) (table : Dict Value) :
    List (String × Value) :=
  (table.entries.map fun row => (row.1, row.2)).filter fun row => row.1 ∈ keys

theorem rowsUnder_distinct (keys : List String) (table : Dict Value) :
    ((rowsUnder keys table).map Prod.fst).Nodup := by
  have all : (table.entries.map fun row => (row.1, row.2)).map Prod.fst =
      table.keys := by
    simp [AList.keys, List.keys]
  apply List.Nodup.sublist (List.filter_sublist.map Prod.fst)
  rw [all]
  exact table.keys_nodup

theorem lookup_rowsUnder {keys : List String} (table : Dict Value)
    {key : String} (kept : key ∈ keys) :
    (rowsUnder keys table).lookup key = table.lookup key := by
  cases found : table.lookup key with
  | some value =>
      apply lookup_of_mem (rowsUnder_distinct keys table)
      apply List.mem_filter.mpr
      refine ⟨?_, decide_eq_true kept⟩
      have entry : (⟨key, value⟩ : Sigma fun _ : String => Value) ∈
          table.entries :=
        AList.mem_lookup_iff.mp found
      exact List.mem_map_of_mem entry
  | none =>
      apply lookup_eq_none_of_key
      intro member
      obtain ⟨row, inRows, rfl⟩ := List.mem_map.mp member
      obtain ⟨entry, inTable, rfl⟩ :=
        List.mem_map.mp (List.mem_filter.mp inRows).1
      rw [AList.lookup_eq_none] at found
      exact found (AList.mem_keys.mpr (List.mem_map_of_mem inTable))

/-- What a boot adopts from a table. -/
def bootFrom (table : Dict Value) : Cortex :=
  adoptSettings {} (rowsUnder PERSISTED table)

theorem bootFrom_eq (table : Dict Value) :
    bootFrom table = { st := adoptedFrom {} fun key => table.lookup key } := by
  unfold bootFrom adoptSettings
  rw [foldl_adoptSetting (rowsUnder_distinct PERSISTED table)]
  dsimp only
  congr 1
  exact adoptedFrom_congr _ fun key kept => lookup_rowsUnder table kept

theorem loadSettings_of_takes {store : Store}
    (takes : store.takes .readSettings = true) :
    store.loadSettings.1.map (adoptSettings {}) =
      some (bootFrom store.server.settings) := by
  unfold Store.loadSettings
  rw [Store.withConn_of_takes takes]
  rfl

end Cortex
