import Mathlib.Data.List.Basic
import Mathlib.Data.List.TakeWhile

/-!
# Searching a text for a key

The first occurrence of a pattern in a text, and what has to stand in front of a
key for the search to pass over it: characters that are no quote, and strings in
quotes that are not the key.
-/

namespace TextSearch

/-- `str::find`: the text from the first occurrence of a pattern on. -/
def find (pattern : List Char) : List Char → Option (List Char)
  | [] => if pattern = [] then some [] else none
  | letter :: rest =>
      if pattern.isPrefixOf (letter :: rest) then some (letter :: rest)
      else find pattern rest

/-- The text behind the first occurrence of a pattern. -/
def behind (pattern text : List Char) : Option (List Char) :=
  (find pattern text).map fun found => found.drop pattern.length

/-- A name in quotes, a colon, and what the pattern has behind it. -/
def key (name tail : List Char) : List Char :=
  '"' :: (name ++ '"' :: ':' :: tail)

theorem find_here (pattern rest : List Char) :
    find pattern (pattern ++ rest) = some (pattern ++ rest) := by
  cases whole : pattern ++ rest with
  | nil =>
      obtain ⟨rfl, rfl⟩ := List.append_eq_nil_iff.mp whole
      rfl
  | cons letter others =>
      have begins : pattern.isPrefixOf (letter :: others) = true := by
        rw [← whole]
        exact List.isPrefixOf_iff_prefix.mpr (List.prefix_append ..)
      rw [find, if_pos begins]

@[simp]
theorem behind_here (pattern rest : List Char) :
    behind pattern (pattern ++ rest) = some rest := by
  rw [behind, find_here, Option.map_some, List.drop_left]

/-- What is found is an end of the text. -/
theorem suffix_of_find {pattern text found : List Char}
    (search : find pattern text = some found) : found <:+ text := by
  induction text with
  | nil =>
      unfold find at search
      split_ifs at search
      cases search
      exact List.suffix_rfl
  | cons letter rest induction =>
      unfold find at search
      split_ifs at search
      · cases search
        exact List.suffix_rfl
      · exact (induction search).trans (List.suffix_cons ..)

theorem suffix_of_behind {pattern text rest : List Char}
    (search : behind pattern text = some rest) : rest <:+ text := by
  obtain ⟨found, from_, rfl⟩ := Option.map_eq_some_iff.mp search
  exact (List.drop_suffix ..).trans (suffix_of_find from_)

/-- Texts up to their first quotes are told apart by what they begin. -/
theorem append_quote_inj {front other back rest : List Char}
    (bare : '"' ∉ front) (unquoted : '"' ∉ other)
    (same : front ++ '"' :: back = other ++ '"' :: rest) :
    front = other ∧ back = rest := by
  induction front generalizing other with
  | nil =>
      cases other with
      | nil => exact ⟨rfl, (List.cons.inj same).2⟩
      | cons letter other =>
          exact absurd ((List.cons.inj same).1 ▸ List.mem_cons_self) unquoted
  | cons letter front induction =>
      cases other with
      | nil => exact absurd ((List.cons.inj same).1 ▸ List.mem_cons_self) bare
      | cons first other =>
          obtain ⟨rfl, rest⟩ := List.cons.inj same
          obtain ⟨rfl, back⟩ := induction
            (fun member => bare (List.mem_cons_of_mem _ member))
            (fun member => unquoted (List.mem_cons_of_mem _ member)) rest
          exact ⟨rfl, back⟩

section Keys

variable {name tail rest : List Char}

theorem find_key_letter {letter : Char} (other : letter ≠ '"') :
    find (key name tail) (letter :: rest) = find (key name tail) rest := by
  rw [find, if_neg]
  simp [key, other.symm]

/-- A search for a key passes over a text without a quote. -/
theorem find_key_plain {front : List Char} (plain : '"' ∉ front) :
    find (key name tail) (front ++ rest) = find (key name tail) rest := by
  induction front with
  | nil => rfl
  | cons letter front induction =>
      obtain ⟨other, plain⟩ := not_or.mp (mt List.mem_cons.mpr plain)
      rw [List.cons_append, find_key_letter (Ne.symm other), induction plain]

/-- A quote in front of a letter that does not begin the name. -/
theorem find_key_close (named : name ≠ []) (other : rest.head? ≠ name.head?) :
    find (key name tail) ('"' :: rest) = find (key name tail) rest := by
  rw [find, if_neg]
  obtain ⟨first, letters, rfl⟩ := List.exists_cons_of_ne_nil named
  cases rest with
  | nil => simp [key]
  | cons letter rest =>
      have apart : first ≠ letter := fun same => other (by rw [same]; rfl)
      simp [key, apart]

/-- A search for a key passes over a string in quotes that is not the name, or
that no colon follows. -/
theorem find_key_quoted {string : List Char} (named : name ≠ [])
    (bare : '"' ∉ name) (unquoted : '"' ∉ string)
    (apart : string ≠ name ∨ rest.head? ≠ some ':')
    (closed : rest.head? ≠ name.head?) :
    find (key name tail) ('"' :: (string ++ '"' :: rest)) =
      find (key name tail) rest := by
  rw [find, if_neg, find_key_plain unquoted, find_key_close named closed]
  rintro begins
  obtain ⟨back, same⟩ := List.isPrefixOf_iff_prefix.mp begins
  have letters : name ++ '"' :: (':' :: (tail ++ back)) = string ++ '"' :: rest := by
    simpa [key] using same
  obtain ⟨rfl, rfl⟩ := append_quote_inj bare unquoted letters
  exact apart.elim (fun other => other rfl) fun other => other rfl

/-- A name that a search for its key does not meet by accident. -/
def Name (name : List Char) : Prop :=
  name ≠ [] ∧ '"' ∉ name ∧ name.head? ∉ [some ':', some ',', some '\x7d']

instance (name : List Char) : Decidable (Name name) :=
  inferInstanceAs (Decidable (_ ∧ _))

/-- A search for a key passes over another key. -/
theorem find_key_other {other after : List Char} (named : Name name)
    (bare : '"' ∉ other) (apart : other ≠ name) (plain : '"' ∉ after) :
    find (key name tail) (key other after ++ rest) =
      find (key name tail) rest := by
  obtain ⟨nonempty, unquoted, first⟩ := named
  have colon : (':' :: (after ++ rest)).head? ≠ name.head? := fun same =>
    first (same ▸ List.mem_cons_self)
  have spelled : key other after ++ rest =
      '"' :: (other ++ '"' :: (':' :: (after ++ rest))) := by
    simp [key]
  rw [spelled, find_key_quoted nonempty unquoted bare (.inl apart) colon,
    find_key_letter (by decide), find_key_plain plain]

/-- A search for a key passes over a value in quotes. -/
theorem find_key_value {value : List Char} (named : Name name)
    (bare : '"' ∉ value)
    (ends : rest.head? = some ',' ∨ rest.head? = some '\x7d') :
    find (key name tail) ('"' :: (value ++ ['"']) ++ rest) =
      find (key name tail) rest := by
  obtain ⟨nonempty, unquoted, first⟩ := named
  have spelled : '"' :: (value ++ ['"']) ++ rest =
      '"' :: (value ++ '"' :: rest) := by simp
  rw [spelled]
  rcases ends with comma | brace
  · refine find_key_quoted nonempty unquoted bare (.inr ?_) ?_
    · rw [comma]
      decide
    · rw [comma]
      intro same
      exact first (same ▸ List.mem_cons_of_mem _ List.mem_cons_self)
  · refine find_key_quoted nonempty unquoted bare (.inr ?_) ?_
    · rw [brace]
      decide
    · rw [brace]
      intro same
      exact first (same ▸ List.mem_cons_of_mem _
        (List.mem_cons_of_mem _ List.mem_cons_self))

end Keys

/-- Texts with one search have one rest. -/
theorem behind_congr {pattern text other : List Char}
    (same : find pattern text = find pattern other) :
    behind pattern text = behind pattern other := by
  rw [behind, behind, same]

end TextSearch
