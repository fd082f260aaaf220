import Loa.FaultVerdict
import Loa.RustDouble
import Loa.RustWords
import Loa.TextSearch

/-!
# The report in its file

A sweep writes its report as JSON by hand, and the viewer scans the file by hand.
The writer escapes what stands in quotes; the reader takes every string up to
its first quote, every row up to its first closing brace and all rows up to the
first closing bracket.  So the file gives a report back when its strings have
none of these characters and nothing that is escaped.
-/

namespace FaultDaemon

open RustText TextSearch

/-- `esc` on one character. -/
def escChar (c : Char) : List Char :=
  if c = '"' then ['\\', '"']
  else if c = '\\' then ['\\', '\\']
  else if c = '\n' then ['\\', 'n']
  else if c = '\r' then ['\\', 'r']
  else if c = '\t' then ['\\', 't']
  else if c.toNat < 0x20 then
    ['\\', 'u', '0', '0', hexDigit (c.toNat / 16), hexDigit (c.toNat % 16)]
  else [c]

def esc (s : List Char) : List Char :=
  s.flatMap escChar

/-- A string in quotes. -/
def quoted (s : String) : List Char :=
  '"' :: (esc s.toList ++ ['"'])

/-- A key with its colon and the blank behind it. -/
def keyed (name : String) : List Char :=
  key name.toList [' ']

/-- The key of the rows with the bracket that opens them. -/
def ROWS : List Char :=
  key "rows".toList [' ', '[']

/-- One row; the face is left out when there is none. -/
def rowJson (r : Row) : List Char :=
  let face :=
    if r.face = "" then [] else ", ".toList ++ keyed "face" ++ quoted r.face
  '\x7b' :: (keyed "level" ++ quoted r.level ++ ", ".toList ++
    keyed "code" ++ quoted r.code ++ ", ".toList ++
    keyed "text" ++ quoted r.text ++ face ++ ['\x7d'])

def bootJson : Option String → List Char
  | some b => quoted b
  | none => "null".toList

/-- The file's JSON. -/
def reportToJson (rep : Report) : String :=
  String.ofList ('\x7b' :: (keyed "ts" ++ (RustFloat.display rep.ts).toList ++
    ", ".toList ++ keyed "boot" ++ bootJson rep.boot ++
    ", ".toList ++ ROWS ++
      (", ".toList).intercalate (rep.rows.map rowJson) ++ [']'] ++
    ", ".toList ++ keyed "faults" ++ (toString rep.faults).toList ++
    ", ".toList ++ keyed "warns" ++ (toString rep.warns).toList ++ ['\x7d']))

/-- A report off its file; the time is `none` when it is no finite number. -/
structure Cached where
  ts : Option F64
  boot : Option String
  rows : List Row
  faults : Nat
  warns : Nat
  condition : String
  deriving DecidableEq

/-- What does not end a number. -/
def unended (c : Char) : Bool :=
  !(c = ',' || c = '\x7d' || c = ']')

def readTs (body : List Char) : Option (Option F64) :=
  (behind (keyed "ts") body).bind fun rest =>
    RustFloat.parseNearest (trim (String.ofList (rest.takeWhile unended)))

def readBoot (body : List Char) : Option (Option String) :=
  match behind (keyed "boot") body with
  | none => none
  | some rest =>
      if "null".toList.isPrefixOf rest then some none
      else
        match rest with
        | '"' :: s =>
            if '"' ∈ s then
              some (some (String.ofList (s.takeWhile fun c => c ≠ '"')))
            else none
        | _ => none

def scalar (name : String) (body : List Char) : Option Nat :=
  (behind (keyed name) body).bind fun rest =>
    (fromStrRadix 10 (2 ^ 64)
      (trim (String.ofList (rest.takeWhile unended)))).toOption

/-- The string behind a key of a row; empty without the key. -/
def field (name : String) (obj : List Char) : String :=
  match behind (keyed name) obj with
  | none => ""
  | some rest =>
      let s := rest.drop 1
      if '"' ∈ s then String.ofList (s.takeWhile fun c => c ≠ '"') else ""

def readRow (obj : List Char) : Row where
  level := field "level" obj
  code := field "code" obj
  text := field "text" obj
  face := field "face" obj

theorem length_behind_row {cur inside rest : List Char} {brace close : Char}
    (opened : (cur.dropWhile fun c => c ≠ '\x7b') = brace :: inside)
    (closed : (inside.dropWhile fun c => c ≠ '\x7d') = close :: rest) :
    rest.length < cur.length := by
  have first : (cur.dropWhile fun c => c ≠ '\x7b').length ≤ cur.length :=
    (List.dropWhile_sublist _).length_le
  have second : (inside.dropWhile fun c => c ≠ '\x7d').length ≤ inside.length :=
    (List.dropWhile_sublist _).length_le
  rw [opened] at first
  rw [closed] at second
  simp only [List.length_cons] at first second
  omega

/-- The rows, each from an opening brace to the first closing one. -/
def readRows (cur : List Char) : List Row :=
  match opened : cur.dropWhile fun c => c ≠ '\x7b' with
  | [] => []
  | brace :: inside =>
      match closed : inside.dropWhile fun c => c ≠ '\x7d' with
      | [] => []
      | _ :: rest =>
          have : rest.length < cur.length := length_behind_row opened closed
          readRow (brace :: ((inside.takeWhile fun c => c ≠ '\x7d') ++ ['\x7d'])) ::
            readRows rest
termination_by cur.length

def parseReport (text : String) : Option Cached := do
  let body ← find ('\x7b' :: key "ts".toList []) text.toList
  let ts ← readTs body
  let boot ← readBoot body
  let faults ← scalar "faults" body
  let warns ← scalar "warns" body
  let listed ← behind ROWS body
  if ']' ∈ listed then
    some
      { ts := ts
        boot := boot
        rows := readRows (listed.takeWhile fun c => c ≠ ']')
        faults := faults
        warns := warns
        condition := "" }
  else none

/-- What ends a string, the rows and a row. -/
def STOPS : List Char := ['"', ']', '\x7d']

theorem hexDigit_not_stop {value : Nat} (small : value < 16) :
    hexDigit value ∉ STOPS := by
  have all : ∀ value < 16, hexDigit value ∉ STOPS := by decide
  exact all value small

/-- Escaping brings in none of the stops. -/
theorem eq_of_mem_escChar {stop c : Char} (listed : stop ∈ STOPS)
    (member : stop ∈ escChar c) : stop = c := by
  have apart (other : Char) (unlisted : other ∉ STOPS) : stop ≠ other := by
    rintro rfl
    exact unlisted listed
  have slash := apart '\\' (by decide)
  unfold escChar at member
  split_ifs at member with quote back feed ret tab control
  · simpa [quote, slash] using member
  · simp [slash] at member
  · simp [slash, apart 'n' (by decide)] at member
  · simp [slash, apart 'r' (by decide)] at member
  · simp [slash, apart 't' (by decide)] at member
  · have high := apart _ (hexDigit_not_stop (by omega : c.toNat / 16 < 16))
    have low := apart _ (hexDigit_not_stop (by omega : c.toNat % 16 < 16))
    simp [slash, high, low, apart 'u' (by decide),
      apart '0' (by decide)] at member
  · exact List.mem_singleton.mp member

theorem mem_of_mem_esc {stop : Char} {s : List Char} (listed : stop ∈ STOPS)
    (member : stop ∈ esc s) : stop ∈ s := by
  obtain ⟨c, inside, escaped⟩ := List.mem_flatMap.mp member
  exact eq_of_mem_escChar listed escaped ▸ inside

/-- A character that is written as it is. -/
def Verbatim (c : Char) : Prop :=
  c ≠ '"' ∧ c ≠ '\\' ∧ 0x20 ≤ c.toNat

instance (c : Char) : Decidable (Verbatim c) :=
  inferInstanceAs (Decidable (_ ∧ _))

theorem escChar_of_verbatim {c : Char} (verbatim : Verbatim c) :
    escChar c = [c] := by
  obtain ⟨quote, slash, printed⟩ := verbatim
  have control {other : Char} (low : other.toNat < 0x20) : c ≠ other := by
    rintro rfl
    omega
  unfold escChar
  rw [if_neg quote, if_neg slash, if_neg (control (by decide)),
    if_neg (control (by decide)), if_neg (control (by decide)),
    if_neg (by omega)]

theorem length_escChar_of_not_verbatim {c : Char} (escaped : ¬ Verbatim c) :
    2 ≤ (escChar c).length := by
  unfold escChar
  split_ifs with quote slash feed ret tab control
  all_goals try simp
  exact escaped ⟨quote, slash, by omega⟩

theorem length_le_esc (s : List Char) : s.length ≤ (esc s).length := by
  induction s with
  | nil => exact Nat.le_refl _
  | cons c rest induction =>
      unfold esc at induction ⊢
      rw [List.flatMap_cons, List.length_append, List.length_cons]
      by_cases verbatim : Verbatim c
      · rw [escChar_of_verbatim verbatim, List.length_singleton]
        omega
      · have := length_escChar_of_not_verbatim verbatim
        omega

/-- A text is its own escape when all of it is written as it is. -/
theorem esc_eq_self_iff (s : List Char) : esc s = s ↔ ∀ c ∈ s, Verbatim c := by
  induction s with
  | nil => simp [esc]
  | cons c rest induction =>
      have spelled : esc (c :: rest) = escChar c ++ esc rest := by simp [esc]
      rw [spelled, List.forall_mem_cons, ← induction]
      by_cases verbatim : Verbatim c
      · simp [escChar_of_verbatim verbatim, verbatim]
      · simp only [verbatim, false_and, iff_false]
        intro same
        have long := length_escChar_of_not_verbatim verbatim
        have kept := length_le_esc rest
        have counted := congrArg List.length same
        rw [List.length_append, List.length_cons] at counted
        omega

/-- What the file says of a string. -/
def escaped (s : String) : String :=
  String.ofList (esc s.toList)

/-- What the file says of a row. -/
def escapedRow (r : Row) : Row where
  level := escaped r.level
  code := escaped r.code
  text := escaped r.text
  face := escaped r.face

/-- A string without what ends a string, the rows or a row. -/
def Unstopped (s : String) : Prop :=
  ∀ stop ∈ STOPS, stop ∉ s.toList

theorem Unstopped.esc {s : String} (unstopped : Unstopped s) {stop : Char}
    (listed : stop ∈ STOPS) : stop ∉ FaultDaemon.esc s.toList := fun member =>
  unstopped stop listed (mem_of_mem_esc listed member)

/-- A row whose strings have none of the stops. -/
structure UnstoppedRow (r : Row) : Prop where
  level : Unstopped r.level
  code : Unstopped r.code
  text : Unstopped r.text
  face : Unstopped r.face

/-- A search for a key passes over a string that has no quote. -/
theorem find_quoted {name tail rest : List Char} {s : String} (named : Name name)
    (bare : '"' ∉ s.toList)
    (ends : rest.head? = some ',' ∨ rest.head? = some '\x7d') :
    find (key name tail) (quoted s ++ rest) = find (key name tail) rest :=
  find_key_value named (fun member => bare (mem_of_mem_esc (by decide) member))
    ends

theorem find_keyed {name tail rest : List Char} {other : String}
    (named : Name name) (bare : '"' ∉ other.toList) (apart : other.toList ≠ name) :
    find (key name tail) (keyed other ++ rest) = find (key name tail) rest :=
  find_key_other named bare apart (by decide)

theorem find_comma {name tail rest : List Char} :
    find (key name tail) (", ".toList ++ rest) = find (key name tail) rest :=
  find_key_plain (by decide)

/-- A string up to its closing quote. -/
theorem takeWhile_quoted {s : String} (bare : '"' ∉ s.toList) (rest : List Char) :
    (esc s.toList ++ '"' :: rest).takeWhile (fun c => c ≠ '"') = esc s.toList := by
  have unquoted : '"' ∉ esc s.toList := fun member =>
    bare (mem_of_mem_esc (by decide) member)
  rw [List.takeWhile_append_of_pos]
  · simp
  · intro c member
    exact decide_eq_true fun same => unquoted (same ▸ member)

theorem quoted_append (s : String) (rest : List Char) :
    quoted s ++ rest = '"' :: (esc s.toList ++ '"' :: rest) := by
  simp [quoted]

/-- The string behind its key. -/
theorem field_here {name s : String} {text rest : List Char}
    (bare : '"' ∉ s.toList)
    (found : find (keyed name) text =
      find (keyed name) (keyed name ++ (quoted s ++ rest))) :
    field name text = escaped s := by
  have found : behind (keyed name) text = some (quoted s ++ rest) :=
    (behind_congr found).trans (behind_here ..)
  unfold field
  rw [found]
  dsimp only
  rw [quoted_append, List.drop_one, List.tail_cons, if_pos (by simp),
    takeWhile_quoted bare]
  rfl

/-- A search for a key passes over a member with another one. -/
theorem find_member {name tail rest : List Char} {other s : String}
    (named : Name name) (bareKey : '"' ∉ other.toList)
    (apart : other.toList ≠ name) (bare : '"' ∉ s.toList)
    (ends : rest.head? = some ',' ∨ rest.head? = some '\x7d') :
    find (key name tail) (keyed other ++ (quoted s ++ rest)) =
      find (key name tail) rest := by
  rw [find_keyed named bareKey apart, find_quoted named bare ends]

/-- The end of a row, behind its text. -/
def rowEnd (r : Row) : List Char :=
  if r.face = "" then ['\x7d']
  else ", ".toList ++ (keyed "face" ++ (quoted r.face ++ ['\x7d']))

theorem head?_rowEnd (r : Row) (rest : List Char) :
    (rowEnd r ++ rest).head? = some ',' ∨ (rowEnd r ++ rest).head? = some '\x7d' := by
  unfold rowEnd
  split_ifs
  · exact .inr rfl
  · exact .inl rfl

theorem rowJson_eq (r : Row) (rest : List Char) :
    rowJson r ++ rest =
      '\x7b' :: (keyed "level" ++ (quoted r.level ++ (", ".toList ++
        (keyed "code" ++ (quoted r.code ++ (", ".toList ++
          (keyed "text" ++ (quoted r.text ++ (rowEnd r ++ rest))))))))) := by
  unfold rowJson rowEnd
  dsimp only
  split_ifs <;>
    simp only [List.append_assoc, List.cons_append, List.nil_append]

section Row

variable {r : Row}

theorem UnstoppedRow.bare (unstopped : UnstoppedRow r) :
    '"' ∉ r.level.toList ∧ '"' ∉ r.code.toList ∧ '"' ∉ r.text.toList ∧
      '"' ∉ r.face.toList :=
  ⟨unstopped.level _ (by decide), unstopped.code _ (by decide),
    unstopped.text _ (by decide), unstopped.face _ (by decide)⟩

/-- A search for a key passes over the level and the code of a row. -/
theorem find_behind_code {name tail rest : List Char} (unstopped : UnstoppedRow r)
    (named : Name name) (level : "level".toList ≠ name)
    (code : "code".toList ≠ name) :
    find (key name tail) (rowJson r ++ rest) = find (key name tail)
      (keyed "text" ++ (quoted r.text ++ (rowEnd r ++ rest))) := by
  obtain ⟨bareLevel, bareCode, -, -⟩ := unstopped.bare
  rw [rowJson_eq, find_key_letter (by decide),
    find_member named (by decide) level bareLevel (.inl rfl), find_comma,
    find_member named (by decide) code bareCode (.inl rfl), find_comma]

/-- A search for a key that no row has passes over a row. -/
theorem find_row {name tail rest : List Char} (unstopped : UnstoppedRow r)
    (named : Name name)
    (foreign : name ∉ ["level".toList, "code".toList, "text".toList,
      "face".toList]) :
    find (key name tail) (rowJson r ++ rest) = find (key name tail) rest := by
  obtain ⟨-, -, bareText, bareFace⟩ := unstopped.bare
  have apart {other : List Char} (listed : other ∈ ["level".toList,
      "code".toList, "text".toList, "face".toList]) : other ≠ name := by
    rintro rfl
    exact foreign listed
  rw [find_behind_code unstopped named (apart (by simp)) (apart (by simp)),
    find_member named (by decide) (apart (by simp)) bareText (head?_rowEnd r rest)]
  unfold rowEnd
  split_ifs
  · exact find_key_letter (by decide)
  · rw [List.append_assoc, List.append_assoc, List.append_assoc, find_comma,
      find_member named (by decide) (apart (by simp)) bareFace (.inr rfl)]
    exact find_key_letter (by decide)

/-- A row is read off its own text, escaped as it is. -/
theorem readRow_rowJson (unstopped : UnstoppedRow r) :
    readRow (rowJson r) = escapedRow r := by
  obtain ⟨bareLevel, bareCode, bareText, bareFace⟩ := unstopped.bare
  have whole := (List.append_nil (rowJson r)).symm
  have brace : '\x7b' ≠ '"' := by decide
  have level : field "level" (rowJson r) = escaped r.level := by
    apply field_here bareLevel
    rw [whole, rowJson_eq]
    exact find_key_letter brace
  have code : field "code" (rowJson r) = escaped r.code := by
    apply field_here bareCode
    rw [whole, rowJson_eq]
    refine (find_key_letter brace).trans ?_
    rw [find_member (by decide) (by decide) (by decide) bareLevel (.inl rfl),
      find_comma]
    rfl
  have text : field "text" (rowJson r) = escaped r.text := by
    apply field_here bareText
    rw [whole]
    exact find_behind_code unstopped (by decide) (by decide) (by decide)
  have face : field "face" (rowJson r) = escaped r.face := by
    have skipped : find (key "face".toList [' ']) (rowJson r ++ []) =
        find (key "face".toList [' ']) (rowEnd r ++ []) := by
      rw [find_behind_code unstopped (by decide) (by decide) (by decide),
        find_member (by decide) (by decide) (by decide) bareText
          (head?_rowEnd r [])]
    rw [List.append_nil, List.append_nil] at skipped
    by_cases faceless : r.face = ""
    · have absent : behind (keyed "face") (rowJson r) = none := by
        refine (behind_congr skipped).trans ?_
        unfold rowEnd
        rw [if_pos faceless]
        decide
      unfold field
      rw [absent, faceless]
      rfl
    · apply field_here bareFace
      refine skipped.trans ?_
      unfold rowEnd
      rw [if_neg faceless]
      exact find_comma
  unfold readRow escapedRow
  rw [level, code, text, face]

end Row

/-- What is in quotes has no bracket and no brace. -/
theorem not_mem_quoted {s : String} (unstopped : Unstopped s) {stop : Char}
    (listed : stop ∈ STOPS) (other : stop ≠ '"') : stop ∉ quoted s := by
  unfold quoted
  simp only [List.mem_cons, List.mem_append, List.not_mem_nil, or_false, not_or]
  exact ⟨other, unstopped.esc listed, other⟩

theorem UnstoppedRow.not_mem_quoted {r : Row} (unstopped : UnstoppedRow r)
    {stop : Char} (listed : stop ∈ STOPS) (other : stop ≠ '"') :
    stop ∉ quoted r.level ∧ stop ∉ quoted r.code ∧ stop ∉ quoted r.text ∧
      stop ∉ quoted r.face :=
  ⟨FaultDaemon.not_mem_quoted unstopped.level listed other,
    FaultDaemon.not_mem_quoted unstopped.code listed other,
    FaultDaemon.not_mem_quoted unstopped.text listed other,
    FaultDaemon.not_mem_quoted unstopped.face listed other⟩

/-- The inside of a row, between its braces, has no stop but quotes. -/
theorem rowJson_inside {r : Row} (unstopped : UnstoppedRow r) :
    ∃ inside, rowJson r = '\x7b' :: (inside ++ ['\x7d']) ∧
      ']' ∉ inside ∧ '\x7d' ∉ inside := by
  have bracket : ']' ∈ STOPS ∧ ']' ≠ '"' := by decide
  have brace : '\x7d' ∈ STOPS ∧ '\x7d' ≠ '"' := by decide
  refine ⟨_, rfl, ?_, ?_⟩
  · obtain ⟨level, code, text, face⟩ := unstopped.not_mem_quoted bracket.1 bracket.2
    split_ifs <;> simp [keyed, key, level, code, text, face]
  · obtain ⟨level, code, text, face⟩ := unstopped.not_mem_quoted brace.1 brace.2
    split_ifs <;> simp [keyed, key, level, code, text, face]

theorem readRows_row {r : Row} {front rest : List Char}
    (unstopped : UnstoppedRow r) (outside : '\x7b' ∉ front) :
    readRows (front ++ (rowJson r ++ rest)) = escapedRow r :: readRows rest := by
  obtain ⟨inside, spelled, -, closed⟩ := rowJson_inside unstopped
  have opened : (front ++ (rowJson r ++ rest)).dropWhile (fun c => c ≠ '\x7b') =
      '\x7b' :: (inside ++ '\x7d' :: rest) := by
    rw [List.dropWhile_append_of_pos, spelled]
    · simp
    · intro c member
      exact decide_eq_true fun same => outside (same ▸ member)
  have before : ∀ c ∈ inside, decide (c ≠ '\x7d') = true := fun c member =>
    decide_eq_true fun same => closed (same ▸ member)
  have ended : (inside ++ '\x7d' :: rest).dropWhile (fun c => c ≠ '\x7d') =
      '\x7d' :: rest := by
    rw [List.dropWhile_append_of_pos before]
    simp
  have taken : (inside ++ '\x7d' :: rest).takeWhile (fun c => c ≠ '\x7d') =
      inside := by
    rw [List.takeWhile_append_of_pos before]
    simp
  rw [readRows]
  split
  · rename_i nothing
    rw [opened] at nothing
    cases nothing
  · rename_i brace behindBrace found
    rw [opened] at found
    obtain ⟨rfl, rfl⟩ := List.cons.inj found
    split
    · rename_i nothing
      rw [ended] at nothing
      cases nothing
    · rename_i close others found
      rw [ended] at found
      obtain ⟨rfl, rfl⟩ := List.cons.inj found
      rw [taken, ← spelled, readRow_rowJson unstopped]

/-- The rows behind a first one. -/
theorem readRows_more {rows : List Row} (unstopped : ∀ r ∈ rows, UnstoppedRow r) :
    readRows (rows.flatMap fun r => ", ".toList ++ rowJson r) =
      rows.map escapedRow := by
  induction rows with
  | nil =>
      rw [readRows]
      rfl
  | cons r rows induction =>
      rw [List.flatMap_cons, List.append_assoc,
        readRows_row (unstopped r List.mem_cons_self) (by decide),
        induction fun other member =>
          unstopped other (List.mem_cons_of_mem _ member)]
      rfl

theorem intercalate_cons (separator first : List Char)
    (pieces : List (List Char)) :
    separator.intercalate (first :: pieces) =
      first ++ pieces.flatMap (separator ++ ·) := by
  induction pieces generalizing first with
  | nil => simp
  | cons piece pieces induction =>
      rw [List.intercalate_cons_cons, induction, List.flatMap_cons]
      simp only [List.append_assoc]

/-- All rows are read off, escaped as they are. -/
theorem readRows_joined {rows : List Row} (unstopped : ∀ r ∈ rows, UnstoppedRow r) :
    readRows ((", ".toList).intercalate (rows.map rowJson)) =
      rows.map escapedRow := by
  cases rows with
  | nil =>
      rw [readRows]
      rfl
  | cons r rows =>
      have read := @readRows_row r [] (rows.flatMap fun r => ", ".toList ++ rowJson r)
        (unstopped r List.mem_cons_self) (by simp)
      rw [readRows_more fun other member =>
        unstopped other (List.mem_cons_of_mem _ member)] at read
      rw [List.map_cons, intercalate_cons, List.flatMap_map]
      exact read

/-- A number up to the comma or the brace behind it. -/
theorem takeWhile_unended {number rest : List Char}
    (unending : ∀ c ∈ number, unended c)
    (ends : rest.head? = some ',' ∨ rest.head? = some '\x7d') :
    (number ++ rest).takeWhile unended = number := by
  rw [List.takeWhile_append_of_pos unending]
  cases rest with
  | nil => simp
  | cons c rest =>
      have stops : unended c = false := by
        rcases ends with comma | brace
        · rw [Option.some.inj comma]
          rfl
        · rw [Option.some.inj brace]
          rfl
      simp [stops]

theorem decimal_plain {c : Char} (decimal : RustFloat.Decimal c) :
    unended c ∧ isWhitespace c = false ∧ c ≠ '"' := by
  rcases decimal with digit | rfl | rfl
  · exact @RustFloat.forall_isDigit
      (fun c => unended c ∧ isWhitespace c = false ∧ c ≠ '"') _ (by decide) _ digit
  · decide
  · decide

/-- A number has no white space around it. -/
theorem trim_decimal {number : List Char} (nonempty : number ≠ [])
    (decimal : ∀ c ∈ number, RustFloat.Decimal c) :
    trim (String.ofList number) = String.ofList number := by
  have solid : ∀ c ∈ number, isWhitespace c = false := fun c member =>
    (decimal_plain (decimal c member)).2.1
  have kept := @trim_padded [] [] (number.head nonempty) (number.getLast nonempty)
    number (by simp) (by simp) (List.head?_eq_some_head nonempty)
    (solid _ (List.head_mem nonempty)) (List.getLast?_eq_some_getLast nonempty)
    (solid _ (List.getLast_mem nonempty))
  simpa using kept

theorem decimal_of_mem_toString {count : Nat} {c : Char}
    (member : c ∈ (toString count).toList) : RustFloat.Decimal c := by
  rw [Nat.toString_eq_ofList_toDigits, String.toList_ofList] at member
  exact .inl (RustFloat.isDigit_of_mem_toDigits member)

theorem toDigit_of_isDigit {c : Char} (digit : c.isDigit) :
    toDigit 10 c = some (c.toNat - 48) :=
  @RustFloat.forall_isDigit (fun c => toDigit 10 c = some (c.toNat - 48)) _
    (by decide) _ digit

/-- A count is read from its digits. -/
theorem fromStrRadix_toString {count : Nat} (small : count < 2 ^ 64) :
    fromStrRadix 10 (2 ^ 64) (toString count) = .ok count := by
  have digits : ∀ c ∈ Nat.toDigits 10 count, c.isDigit := fun c =>
    RustFloat.isDigit_of_mem_toDigits
  have folded (written : List Char) (all : ∀ c ∈ written, c.isDigit)
      (value : Nat) : digitsValue 10 written value =
        written.foldl (fun value digit => value * 10 + (digit.toNat - 48)) value := by
    induction written generalizing value with
    | nil => rfl
    | cons c rest induction =>
        have next : digitsValue 10 (c :: rest) value =
            digitsValue 10 rest (value * 10 + (c.toNat - 48)) := by
          simp [digitsValue, toDigit_of_isDigit (all c List.mem_cons_self)]
        rw [next, induction fun other member =>
          all other (List.mem_cons_of_mem _ member)]
        rfl
  have value : digitsValue 10 (Nat.toDigits 10 count) 0 = count :=
    (folded _ digits 0).trans (RustFloat.ofDigits_toDigits count)
  have read := @fromStrRadix_digits 10 (2 ^ 64) (by decide) _
    (@Nat.toDigits_ne_nil count 10)
    (fun c member => by rw [toDigit_of_isDigit (digits c member)]; rfl)
    (by rw [value]; exact small)
  rw [value] at read
  rw [Nat.toString_eq_ofList_toDigits]
  exact read

/-- A count behind its key. -/
theorem scalar_here {name : String} {body rest : List Char} {count : Nat}
    (small : count < 2 ^ 64)
    (ends : rest.head? = some ',' ∨ rest.head? = some '\x7d')
    (found : find (keyed name) body =
      find (keyed name) (keyed name ++ ((toString count).toList ++ rest))) :
    scalar name body = some count := by
  have decimal : ∀ c ∈ (toString count).toList, RustFloat.Decimal c := fun c =>
    decimal_of_mem_toString
  have nonempty : (toString count).toList ≠ [] := by
    rw [Nat.toString_eq_ofList_toDigits, String.toList_ofList]
    exact Nat.toDigits_ne_nil
  have behindKey := (behind_congr found).trans (behind_here ..)
  unfold scalar
  rw [behindKey, Option.bind_some, takeWhile_unended
    (fun c member => (decimal_plain (decimal c member)).1) ends,
    trim_decimal nonempty decimal, String.ofList_toList,
    fromStrRadix_toString small]
  rfl

/-- A report whose strings have none of the stops; a boot id is only read up to
its quote. -/
structure UnstoppedReport (rep : Report) : Prop where
  rows : ∀ r ∈ rep.rows, UnstoppedRow r
  boot : ∀ b ∈ rep.boot, '"' ∉ b.toList

/-- The numbers of a report that a file can have. -/
structure Writable (rep : Report) : Prop where
  ts : RustFloat.Finite rep.ts
  faults : rep.faults < 2 ^ 64
  warns : rep.warns < 2 ^ 64

theorem toList_reportToJson (rep : Report) :
    (reportToJson rep).toList =
      '\x7b' :: (keyed "ts" ++ ((RustFloat.display rep.ts).toList ++ (", ".toList ++
        (keyed "boot" ++ (bootJson rep.boot ++ (", ".toList ++
          (ROWS ++ ((", ".toList).intercalate (rep.rows.map rowJson) ++
            (']' :: (", ".toList ++ (keyed "faults" ++
              ((toString rep.faults).toList ++ (", ".toList ++ (keyed "warns" ++
                ((toString rep.warns).toList ++ ['\x7d']))))))))))))))) := by
  unfold reportToJson
  rw [String.toList_ofList]
  simp only [List.append_assoc, List.cons_append, List.nil_append]

section File

variable {rep : Report} {name tail rest : List Char}

theorem find_behind_ts (named : Name name) (other : "ts".toList ≠ name) :
    find (key name tail) ('\x7b' :: (keyed "ts" ++
      ((RustFloat.display rep.ts).toList ++ (", ".toList ++ rest)))) =
        find (key name tail) rest := by
  have plain : '"' ∉ (RustFloat.display rep.ts).toList := fun member =>
    (decimal_plain (RustFloat.decimal_of_mem_display member)).2.2 rfl
  rw [find_key_letter (by decide), find_keyed named (by decide) other,
    find_key_plain plain, find_comma]

theorem find_behind_boot (unstopped : UnstoppedReport rep) (named : Name name)
    (other : "boot".toList ≠ name) :
    find (key name tail) (keyed "boot" ++ (bootJson rep.boot ++
      (", ".toList ++ rest))) = find (key name tail) rest := by
  rw [find_keyed named (by decide) other]
  cases boot : rep.boot with
  | none =>
      rw [bootJson, find_key_plain (by decide), find_comma]
  | some b =>
      rw [bootJson, find_quoted named (unstopped.boot b (boot ▸ rfl)) (.inl rfl),
        find_comma]

theorem find_behind_rows (unstopped : UnstoppedReport rep) (named : Name name)
    (other : "rows".toList ≠ name)
    (foreign : name ∉ ["level".toList, "code".toList, "text".toList,
      "face".toList]) :
    find (key name tail) (ROWS ++ ((", ".toList).intercalate
      (rep.rows.map rowJson) ++ (']' :: (", ".toList ++ rest)))) =
        find (key name tail) rest := by
  have more (rows : List Row) (each : ∀ r ∈ rows, UnstoppedRow r)
      (rest : List Char) : find (key name tail)
        (rows.flatMap (fun r => ", ".toList ++ rowJson r) ++ rest) =
          find (key name tail) rest := by
    induction rows with
    | nil => rfl
    | cons r rows induction =>
        rw [List.flatMap_cons, List.append_assoc, List.append_assoc, find_comma,
          find_row (each r List.mem_cons_self) named foreign,
          induction fun other member => each other (List.mem_cons_of_mem _ member)]
  have listed : find (key name tail) ((", ".toList).intercalate
      (rep.rows.map rowJson) ++ (']' :: (", ".toList ++ rest))) =
        find (key name tail) (']' :: (", ".toList ++ rest)) := by
    have each := unstopped.rows
    cases listed : rep.rows with
    | nil => rfl
    | cons r rows =>
        rw [listed] at each
        rw [List.map_cons, intercalate_cons, List.flatMap_map, List.append_assoc,
          find_row (each r List.mem_cons_self) named foreign,
          more rows fun other member => each other (List.mem_cons_of_mem _ member)]
  rw [ROWS, find_key_other named (by decide) other (by decide), listed,
    find_key_letter (by decide), find_comma]

end File

theorem not_mem_joined {rows : List Row} (each : ∀ r ∈ rows, UnstoppedRow r) :
    ']' ∉ (", ".toList).intercalate (rows.map rowJson) := by
  have apart (r : Row) (unstopped : UnstoppedRow r) : ']' ∉ rowJson r := by
    obtain ⟨inside, spelled, open_, -⟩ := rowJson_inside unstopped
    simp [spelled, open_]
  cases rows with
  | nil => simp
  | cons r rows =>
      rw [List.map_cons, intercalate_cons, List.flatMap_map]
      simp only [List.mem_append, List.mem_flatMap, not_or, not_exists, not_and]
      refine ⟨apart r (each r List.mem_cons_self), fun other member => ⟨by decide, ?_⟩⟩
      exact apart other (each other (List.mem_cons_of_mem _ member))

theorem keyed_eq (name : String) : keyed name = key name.toList [] ++ [' '] := by
  simp [keyed, key]

theorem toList_display_ne_nil {value : F64} (finite : RustFloat.Finite value) :
    (RustFloat.display value).toList ≠ [] := by
  intro nothing
  have read := RustFloat.parseNearest_display finite
  rw [String.toList_eq_nil_iff.mp nothing] at read
  have unread : RustFloat.parseNearest "" = none := by decide
  rw [unread] at read
  cases read

theorem readTs_reportToJson {rep : Report} (writable : Writable rep) :
    readTs (reportToJson rep).toList = some (some rep.ts) := by
  have brace : '\x7b' ≠ '"' := by decide
  obtain ⟨rest, found, ends⟩ : ∃ rest, behind (keyed "ts")
      (reportToJson rep).toList =
        some ((RustFloat.display rep.ts).toList ++ rest) ∧
      rest.head? = some ',' := by
    rw [toList_reportToJson]
    exact ⟨_, (behind_congr (find_key_letter brace)).trans (behind_here ..), rfl⟩
  have decimal : ∀ c ∈ (RustFloat.display rep.ts).toList, RustFloat.Decimal c :=
    fun c => RustFloat.decimal_of_mem_display
  unfold readTs
  rw [found, Option.bind_some, takeWhile_unended
      (fun c member => (decimal_plain (decimal c member)).1) (.inl ends),
    trim_decimal (toList_display_ne_nil writable.ts) decimal,
    String.ofList_toList, RustFloat.parseNearest_display writable.ts]

theorem readBoot_reportToJson {rep : Report} (unstopped : UnstoppedReport rep) :
    readBoot (reportToJson rep).toList = some (rep.boot.map escaped) := by
  obtain ⟨rest, found⟩ : ∃ rest, behind (keyed "boot")
      (reportToJson rep).toList = some (bootJson rep.boot ++ rest) := by
    rw [toList_reportToJson]
    exact ⟨_, (behind_congr (find_behind_ts (by decide) (by decide))).trans
      (behind_here ..)⟩
  unfold readBoot
  rw [found]
  dsimp only
  cases known : rep.boot with
  | none =>
      have absent : "null".toList.isPrefixOf (bootJson none ++ rest) = true :=
        List.isPrefixOf_iff_prefix.mpr (List.prefix_append ..)
      rw [if_pos absent]
      rfl
  | some b =>
      have bare := unstopped.boot b (known ▸ rfl)
      have present : "null".toList.isPrefixOf (bootJson (some b) ++ rest) =
          false := rfl
      rw [present, if_neg Bool.false_ne_true, bootJson, quoted_append]
      change (if '"' ∈ esc b.toList ++ '"' :: rest then
        some (some (String.ofList ((esc b.toList ++ '"' :: rest).takeWhile
          fun c => c ≠ '"'))) else none) = _
      rw [if_pos (by simp), takeWhile_quoted bare]
      rfl

theorem scalar_faults {rep : Report} (writable : Writable rep)
    (unstopped : UnstoppedReport rep) :
    scalar "faults" (reportToJson rep).toList = some rep.faults := by
  apply scalar_here writable.faults
  rotate_left
  · rw [toList_reportToJson]
    refine (find_behind_ts (by decide) (by decide)).trans ?_
    rw [find_behind_boot unstopped (by decide) (by decide),
      find_behind_rows unstopped (by decide) (by decide) (by decide)]
    rfl
  · exact .inl rfl

theorem scalar_warns {rep : Report} (writable : Writable rep)
    (unstopped : UnstoppedReport rep) :
    scalar "warns" (reportToJson rep).toList = some rep.warns := by
  apply scalar_here writable.warns
  rotate_left
  · rw [toList_reportToJson]
    refine (find_behind_ts (by decide) (by decide)).trans ?_
    have plain : '"' ∉ (toString rep.faults).toList := fun member =>
      (decimal_plain (decimal_of_mem_toString member)).2.2 rfl
    rw [find_behind_boot unstopped (by decide) (by decide),
      find_behind_rows unstopped (by decide) (by decide) (by decide),
      find_keyed (by decide) (by decide) (by decide), find_key_plain plain,
      find_comma]
    rfl
  · exact .inr rfl

/-- The rows are found behind their key, up to the bracket that closes them. -/
theorem rows_reportToJson {rep : Report} (unstopped : UnstoppedReport rep) :
    ∃ listed, behind ROWS (reportToJson rep).toList = some listed ∧
      ']' ∈ listed ∧ listed.takeWhile (fun c => c ≠ ']') =
        (", ".toList).intercalate (rep.rows.map rowJson) := by
  rw [toList_reportToJson]
  refine ⟨_, (behind_congr ((find_behind_ts (by decide) (by decide)).trans
    (find_behind_boot unstopped (by decide) (by decide)))).trans
      (behind_here ..), by simp, ?_⟩
  rw [List.takeWhile_append_of_pos]
  · simp
  · intro c member
    exact decide_eq_true fun same =>
      not_mem_joined unstopped.rows (same ▸ member)

/-- What the reader makes of a report whose strings have none of the stops: the
report, its strings escaped as they are. -/
theorem parseReport_reportToJson {rep : Report} (writable : Writable rep)
    (unstopped : UnstoppedReport rep) :
    parseReport (reportToJson rep) = some
      { ts := some rep.ts
        boot := rep.boot.map escaped
        rows := rep.rows.map escapedRow
        faults := rep.faults
        warns := rep.warns
        condition := "" } := by
  have body : find ('\x7b' :: key "ts".toList []) (reportToJson rep).toList =
      some (reportToJson rep).toList := by
    rw [toList_reportToJson, keyed_eq, List.append_assoc, ← List.cons_append]
    exact find_here _ _
  obtain ⟨listed, found, closed, taken⟩ := rows_reportToJson unstopped
  unfold parseReport
  simp only [body, readTs_reportToJson writable, readBoot_reportToJson unstopped,
    scalar_faults writable unstopped, scalar_warns writable unstopped, found,
    Option.bind_eq_bind, Option.bind_some]
  rw [if_pos closed, taken, readRows_joined unstopped.rows]

/-- A field has no quote, and nothing from the brace on that ends its row. -/
theorem mem_field {name : String} {front : List Char} {c : Char}
    (member : c ∈ (field name (front ++ ['\x7d'])).toList) :
    c ∈ front ∧ c ≠ '"' := by
  unfold field at member
  split at member
  · cases member
  · rename_i rest found
    dsimp only at member
    split_ifs at member with closed
    · have suffix : rest.drop 1 <:+ front ++ ['\x7d'] :=
        (List.drop_suffix ..).trans (suffix_of_behind found)
      rw [String.toList_ofList] at member
      rcases List.suffix_concat_iff.mp suffix with nothing | ⟨inside, spelled, inFront⟩
      · rw [nothing] at closed
        cases closed
      · rw [spelled] at member closed
        have quote : '"' ∈ inside := by simpa using closed
        have short : (inside.takeWhile fun c => c ≠ '"').length ≠ inside.length := by
          intro all
          have same := (List.takeWhile_prefix _).eq_of_length all
          rw [← same] at quote
          exact absurd (List.mem_takeWhile_imp quote) (by simp)
        rw [List.takeWhile_append, if_neg short] at member
        have other := List.mem_takeWhile_imp member
        exact ⟨inFront.subset ((List.takeWhile_prefix _).subset member),
          of_decide_eq_true other⟩
    · cases member

/-- The strings of a row. -/
def strings (r : Row) : List String :=
  [r.level, r.code, r.text, r.face]

theorem mem_readRow {front : List Char} {s : String} {c : Char}
    (part : s ∈ strings (readRow (front ++ ['\x7d']))) (member : c ∈ s.toList) :
    c ∈ front ∧ c ≠ '"' := by
  simp only [strings, List.mem_cons, List.not_mem_nil, or_false] at part
  rcases part with rfl | rfl | rfl | rfl
  · exact mem_field member
  · exact mem_field member
  · exact mem_field member
  · exact mem_field member

/-- A row that is read is the first one, or one of the shorter text behind it. -/
theorem readRows_step {cur : List Char} {r : Row} (listed : r ∈ readRows cur) :
    (∃ front, r = readRow (front ++ ['\x7d']) ∧ '\x7d' ∉ front ∧ front ⊆ cur) ∨
      ∃ rest, r ∈ readRows rest ∧ rest.length < cur.length ∧ rest ⊆ cur := by
  rw [readRows] at listed
  split at listed
  · cases listed
  · rename_i brace inside opened
    have openedIn : brace :: inside ⊆ cur := opened ▸ (List.dropWhile_sublist _).subset
    split at listed
    · cases listed
    · rename_i close rest closed
      have closedIn : close :: rest ⊆ inside :=
        closed ▸ (List.dropWhile_sublist _).subset
      rcases List.mem_cons.mp listed with rfl | later
      · refine .inl ⟨brace :: inside.takeWhile fun c => c ≠ '\x7d', rfl, ?_, ?_⟩
        · have first := List.head?_dropWhile_not (fun c => decide (c ≠ '\x7b')) cur
          rw [opened] at first
          have spelled : brace = '\x7b' := by simpa using first
          rw [spelled, List.mem_cons, not_or]
          refine ⟨by decide, fun member => ?_⟩
          have other := List.mem_takeWhile_imp member
          exact absurd other (by simp)
        · refine List.Subset.trans ?_ openedIn
          exact List.cons_subset_cons _ (List.takeWhile_prefix _).subset
      · refine .inr ⟨rest, later, length_behind_row opened closed, ?_⟩
        exact fun c member => openedIn (List.mem_cons_of_mem _
          (closedIn (List.mem_cons_of_mem _ member)))

/-- The rows that are read have no quote and no closing brace, and are made of
what was there. -/
theorem mem_readRows {cur : List Char} {r : Row} (listed : r ∈ readRows cur)
    {s : String} (part : s ∈ strings r) {c : Char} (member : c ∈ s.toList) :
    c ∈ cur ∧ c ≠ '"' ∧ c ≠ '\x7d' := by
  induction length : cur.length using Nat.strongRecOn generalizing cur with
  | ind size induction =>
      rcases readRows_step listed with ⟨front, rfl, closed, inside⟩ |
        ⟨rest, later, shorter, inside⟩
      · obtain ⟨there, other⟩ := mem_readRow part member
        exact ⟨inside there, other, fun same => closed (same ▸ there)⟩
      · obtain ⟨there, others⟩ := induction _ (length ▸ shorter) later rfl
        exact ⟨inside there, others⟩

theorem not_mem_readBoot {body : List Char} {b : String}
    (read : readBoot body = some (some b)) : '"' ∉ b.toList := by
  unfold readBoot at read
  split at read
  · cases read
  · split_ifs at read
    · cases read
    · split at read
      · split_ifs at read
        cases read
        rw [String.toList_ofList]
        intro member
        have other := List.mem_takeWhile_imp member
        exact absurd other (by simp)
      · cases read

/-- The report as it should come back; the file has no condition. -/
def Report.cached (rep : Report) : Cached where
  ts := some rep.ts
  boot := rep.boot
  rows := rep.rows
  faults := rep.faults
  warns := rep.warns
  condition := ""

/-- A string that is neither escaped nor taken for an end. -/
def Plain (s : String) : Prop :=
  ∀ c ∈ s.toList, Verbatim c ∧ c ≠ ']' ∧ c ≠ '\x7d'

theorem Plain.unstopped {s : String} (plain : Plain s) : Unstopped s := by
  intro stop stops inside
  obtain ⟨⟨quote, -, -⟩, bracket, brace⟩ := plain stop inside
  simp only [STOPS, List.mem_cons, List.not_mem_nil, or_false] at stops
  exact stops.elim quote fun others => others.elim bracket brace

theorem UnstoppedRow.ofStrings {r : Row}
    (each : ∀ s ∈ strings r, Unstopped s) : UnstoppedRow r :=
  ⟨each _ (by simp [strings]), each _ (by simp [strings]),
    each _ (by simp [strings]), each _ (by simp [strings])⟩

theorem UnstoppedRow.strings {r : Row} (unstopped : UnstoppedRow r) {s : String}
    (part : s ∈ strings r) : Unstopped s := by
  simp only [FaultDaemon.strings, List.mem_cons, List.not_mem_nil, or_false] at part
  rcases part with rfl | rfl | rfl | rfl
  · exact unstopped.level
  · exact unstopped.code
  · exact unstopped.text
  · exact unstopped.face

/-- What the parts of a report off its file are. -/
theorem parts_of_parseReport {text : String} {read : Cached}
    (parsed : parseReport text = some read) :
    (∃ body, readBoot body = some read.boot) ∧
      ∃ listed : List Char,
        read.rows = readRows (listed.takeWhile fun c => c ≠ ']') := by
  unfold parseReport at parsed
  simp only [Option.bind_eq_bind, Option.bind_eq_some_iff] at parsed
  obtain ⟨body, -, ts, -, boot, booted, faults, -, warns, -, listed, -, finish⟩ :=
    parsed
  split_ifs at finish
  cases finish
  exact ⟨⟨body, booted⟩, listed, rfl⟩

/-- A report off its file has none of the stops. -/
theorem unstopped_of_parseReport {text : String} {rep : Report}
    (parsed : parseReport text = some rep.cached) : UnstoppedReport rep := by
  obtain ⟨⟨body, booted⟩, listed, rows⟩ := parts_of_parseReport parsed
  constructor
  · intro r member
    have read : r ∈ readRows (listed.takeWhile fun c => c ≠ ']') := rows ▸ member
    refine .ofStrings fun s part stop stops inside => ?_
    obtain ⟨there, quote, brace⟩ := mem_readRows read part inside
    have bracket := List.mem_takeWhile_imp there
    simp only [STOPS, List.mem_cons, List.not_mem_nil, or_false] at stops
    rcases stops with rfl | rfl | rfl
    · exact quote rfl
    · exact absurd bracket (by simp)
    · exact brace rfl
  · intro b known
    exact not_mem_readBoot (booted.trans (congrArg some known))

theorem escaped_eq_self_iff (s : String) :
    escaped s = s ↔ ∀ c ∈ s.toList, Verbatim c := by
  rw [← esc_eq_self_iff]
  constructor
  · intro same
    have letters := congrArg String.toList same
    rwa [escaped, String.toList_ofList] at letters
  · intro same
    rw [escaped, same, String.ofList_toList]

theorem escapedRow_eq_self_iff (r : Row) :
    escapedRow r = r ↔ ∀ s ∈ strings r, escaped s = s := by
  cases r
  simp [escapedRow, strings]

/-- A report comes back from its file exactly when its rows are plain and nothing
in its boot id is escaped. -/
theorem comes_back_iff {rep : Report} (writable : Writable rep) :
    parseReport (reportToJson rep) = some rep.cached ↔
      (∀ r ∈ rep.rows, ∀ s ∈ strings r, Plain s) ∧
        ∀ b ∈ rep.boot, ∀ c ∈ b.toList, Verbatim c := by
  constructor
  · intro parsed
    have unstopped := unstopped_of_parseReport parsed
    have same := Option.some.inj
      ((parseReport_reportToJson writable unstopped).symm.trans parsed)
    have rows : rep.rows.map escapedRow = rep.rows := congrArg Cached.rows same
    have boot : rep.boot.map escaped = rep.boot := congrArg Cached.boot same
    constructor
    · intro r member s part c inside
      have kept : escapedRow r = r :=
        List.map_inj_left.mp (rows.trans (List.map_id _).symm) r member
      have verbatim := (escaped_eq_self_iff s).mp
        ((escapedRow_eq_self_iff r).mp kept s part) c inside
      have free := (unstopped.rows r member).strings part
      exact ⟨verbatim, fun same => free ']' (by decide) (same ▸ inside),
        fun same => free '\x7d' (by decide) (same ▸ inside)⟩
    · intro b known
      rw [known, Option.map_some] at boot
      exact (escaped_eq_self_iff b).mp (Option.some.inj boot)
  · rintro ⟨rows, boot⟩
    have unstopped : UnstoppedReport rep := by
      constructor
      · intro r member
        exact .ofStrings fun s part => (rows r member s part).unstopped
      · exact fun b known quote => (boot b known '"' quote).1 rfl
    have keptRows : rep.rows.map escapedRow = rep.rows := by
      refine (List.map_congr_left fun r member => ?_).trans (List.map_id _)
      exact (escapedRow_eq_self_iff r).mpr fun s part =>
        (escaped_eq_self_iff s).mpr fun c inside => (rows r member s part c inside).1
    have keptBoot : rep.boot.map escaped = rep.boot := by
      cases known : rep.boot with
      | none => rfl
      | some b =>
          exact congrArg some ((escaped_eq_self_iff b).mpr (boot b known))
    rw [parseReport_reportToJson writable unstopped, keptRows, keptBoot]
    rfl

end FaultDaemon
