import Loa.RustFloat
import Mathlib.Data.List.AList

/-!
# JSON values

The JSON values that the door, the store and the vault pass around, and the
accessors that the code uses on them.

Text is made from a value and a value from text by a library that is not part of
the repository; the two directions are parameters.
-/

/-- A map with text keys. -/
abbrev Dict (V : Type) := AList fun _ : String => V

namespace Dict

variable {V W : Type}

/-- Change every value of a map. -/
def mapVal (change : V → W) (dict : Dict V) : Dict W where
  entries := dict.entries.map fun entry => ⟨entry.1, change entry.2⟩
  nodupKeys := by
    have keysKept :
        (dict.entries.map fun entry =>
          (⟨entry.1, change entry.2⟩ : Sigma fun _ : String => W)).keys =
          dict.entries.keys := by
      simp [List.keys, List.map_map, Function.comp_def]
    rw [List.NodupKeys, keysKept]
    exact dict.nodupKeys

/-- Two maps with the same members, in whatever order. -/
def same [DecidableEq V] (first second : Dict V) : Bool :=
  (first.keys ++ second.keys).all fun key =>
    first.lookup key = second.lookup key

@[simp]
theorem lookup_mapVal (change : V → W) (dict : Dict V) (key : String) :
    (dict.mapVal change).lookup key = (dict.lookup key).map change := by
  obtain ⟨entries, nodup⟩ := dict
  simp only [mapVal, AList.lookup]
  clear nodup
  induction entries with
  | nil => rfl
  | cons entry rest induction =>
      obtain ⟨name, value⟩ := entry
      by_cases same : name = key
      · subst name
        simp
      · rw [List.map_cons, List.dlookup_cons_ne _ _ (Ne.symm same),
          List.dlookup_cons_ne _ _ (Ne.symm same), induction]

end Dict

namespace Json

/-- A JSON number. -/
inductive Number
  | integer (value : Int)
  | double (value : F64)
  deriving DecidableEq

/-- A JSON value; an object has each of its keys once. -/
inductive Value
  | null
  | bool (value : Bool)
  | number (value : Number)
  | string (value : String)
  | array (values : List Value)
  | object (fields : List (String × Value))
  deriving Inhabited

namespace Value

/-- The member of an object. -/
def get (key : String) : Value → Option Value
  | .object fields =>
      (fields.find? fun field => field.1 == key).map Prod.snd
  | _ => none

/-- The text of a string value. -/
def asStr : Value → Option String
  | .string text => some text
  | _ => none

/-- The truth value of a boolean value. -/
def asBool : Value → Option Bool
  | .bool flag => some flag
  | _ => none

/-- The members of an object. -/
def asObject : Value → Option (List (String × Value))
  | .object fields => some fields
  | _ => none

/-- An optional text as a value. -/
def ofText (text : Option String) : Value :=
  (text.map Value.string).getD .null

/-- An optional flag as a value. -/
def ofFlag (flag : Option Bool) : Value :=
  (flag.map Value.bool).getD .null

/-- A count as a value. -/
def ofNat (count : Nat) : Value :=
  .number (.integer count)

/-- Set a member of an object, as assignment through an index does.  On a value
that is neither an object nor null the assignment panics. -/
def set (key : String) (value : Value) : Value → Value
  | .object fields =>
      if fields.any fun field => field.1 == key then
        .object (fields.map fun field =>
          if field.1 == key then (key, value) else field)
      else .object (fields ++ [(key, value)])
  | .null => .object [(key, value)]
  | other => other

end Value

/-- The values that a JSON library holds: the members of an object are in the
order of their keys, each key once. -/
inductive Value.Proper : Value → Prop
  | null : Proper .null
  | bool (value : Bool) : Proper (.bool value)
  | number (value : Number) : Proper (.number value)
  | string (value : String) : Proper (.string value)
  | array {values : List Value} (each : ∀ value ∈ values, Proper value) :
      Proper (.array values)
  | object {fields : List (String × Value)}
      (sorted : (fields.map Prod.fst).Pairwise (· < ·))
      (each : ∀ field ∈ fields, Proper field.2) : Proper (.object fields)

/-- The text forms that libraries make. -/
structure Text where
  /-- The compact text of a value. -/
  display : Value → String
  /-- The text of a value on several lines. -/
  displayPretty : Value → String
  /-- The value that a text stands for, or what is wrong with the text. -/
  parse : String → Except String Value
  /-- A text quoted for a message, as `{:?}` writes it. -/
  quote : String → String

end Json
