import Loa.CortexBuild
import Loa.JournalFiles
import Loa.JsonPrinter
import Loa.OledRenderState
import Loa.RustDouble
import Loa.RustWords
import Mathlib.Data.List.TakeWhile

/-!
# The seal on its way to the face

The vault's status crosses the wire as a map of words, and the face guesses from
each word what it was.  A flag, a marker and every count that a double holds are
what they were.  The first eight bytes of a digest are a word in hexadecimal
digits, and some of these words are numbers.
-/

namespace RustFloat

/-- The digits of `hex::encode`. -/
def HEX : List Char :=
  "0123456789abcdef".toList

/-- A text that is read as a number although it is in hexadecimal digits: decimal
digits, or decimal digits around one `e`. -/
def NumberLike (text : List Char) : Prop :=
  ∃ whole, whole ≠ [] ∧ (∀ digit ∈ whole, digit.isDigit) ∧
    (text = whole ∨ ∃ power, power ≠ [] ∧ (∀ digit ∈ power, digit.isDigit) ∧
      text = whole ++ 'e' :: power)

/-- What a digit in hexadecimal is not. -/
theorem plain_of_mem_hex {digit : Char} (member : digit ∈ HEX) :
    (digit ≠ '-' ∧ digit ≠ '+') ∧ (digit.toLower ≠ 'i' ∧ digit.toLower ≠ 'n') ∧
      digit ≠ '.' ∧ digit ≠ 'E' := by
  have plain : HEX.all (fun digit =>
      (digit ≠ '-' ∧ digit ≠ '+') ∧
        (digit.toLower ≠ 'i' ∧ digit.toLower ≠ 'n') ∧
        digit ≠ '.' ∧ digit ≠ 'E') = true := by
    decide
  exact of_decide_eq_true (List.all_eq_true.mp plain digit member)

/-- What is behind the digits is read as an exponent. -/
theorem exponent_isSome_iff {rest : List Char}
    (hex : ∀ digit ∈ rest, digit ∈ HEX) :
    (exponent rest).isSome ↔ rest = [] ∨ ∃ power, power ≠ [] ∧
      (∀ digit ∈ power, digit.isDigit) ∧ rest = 'e' :: power := by
  cases rest with
  | nil => simp [exponent]
  | cons mark power =>
      have capital := (plain_of_mem_hex (hex mark List.mem_cons_self)).2.2.2
      have signless : splitSign power = (false, power) := by
        refine splitSign_of_plain ?_ ?_
        · intro minus
          exact (plain_of_mem_hex (hex _ (List.mem_cons_of_mem _
            (List.mem_of_head? minus)))).1.1 rfl
        · intro plus
          exact (plain_of_mem_hex (hex _ (List.mem_cons_of_mem _
            (List.mem_of_head? plus)))).1.2 rfl
      have read : exponent (mark :: power) =
          if mark = 'e' ∧ power ≠ [] ∧ ∀ digit ∈ power, digit.isDigit then
            some (ofDigits power : Int)
          else none := by
        unfold exponent
        dsimp only
        rw [signless]
        by_cases marked : mark = 'e'
        · simp [marked]
        · simp [marked, capital]
      rw [read]
      split_ifs with number
      · obtain ⟨rfl, some, digits⟩ := number
        exact iff_of_true rfl (.inr ⟨power, some, digits, rfl⟩)
      · refine iff_of_false Bool.false_ne_true ?_
        rintro (nothing | ⟨other, some, digits, same⟩)
        · cases nothing
        · obtain ⟨rfl, rfl⟩ := List.cons.inj same
          exact number ⟨rfl, some, digits⟩

theorem unsigned_hex_isSome_iff {text : List Char}
    (hex : ∀ digit ∈ text, digit ∈ HEX) :
    (unsigned text).isSome ↔ NumberLike text := by
  have pieces := @List.takeWhile_append_dropWhile _ Char.isDigit text
  have restHex : ∀ digit ∈ text.dropWhile Char.isDigit, digit ∈ HEX :=
    fun digit member => hex digit ((List.dropWhile_sublist _).subset member)
  have unpointed : (text.dropWhile Char.isDigit).head? ≠ some '.' := fun point =>
    (plain_of_mem_hex (restHex _ (List.mem_of_head? point))).2.2.1 rfl
  have read : unsigned text =
      if text.takeWhile Char.isDigit = [] then none
      else (exponent (text.dropWhile Char.isDigit)).map fun power =>
        (ofDigits (text.takeWhile Char.isDigit) : F64) * 10 ^ power := by
    unfold unsigned
    simp [unpointed]
  have counted : (unsigned text).isSome ↔ text.takeWhile Char.isDigit ≠ [] ∧
      (exponent (text.dropWhile Char.isDigit)).isSome := by
    rw [read]
    split_ifs with nothing <;> simp [nothing]
  rw [counted, exponent_isSome_iff restHex]
  constructor
  · rintro ⟨nonempty, last | ⟨power, some, digits, behind⟩⟩
    · refine ⟨_, nonempty, fun digit => List.mem_takeWhile_imp, .inl ?_⟩
      rw [last, List.append_nil] at pieces
      exact pieces.symm
    · refine ⟨_, nonempty, fun digit => List.mem_takeWhile_imp,
        .inr ⟨power, some, digits, ?_⟩⟩
      rw [behind] at pieces
      exact pieces.symm
  · rintro ⟨whole, nonempty, digits, rfl | ⟨power, some, powers, rfl⟩⟩
    · obtain ⟨front, back⟩ := @takeWhile_digits text [] digits (by simp)
      rw [List.append_nil] at front back
      rw [front, back]
      exact ⟨nonempty, .inl rfl⟩
    · obtain ⟨front, back⟩ := @takeWhile_digits whole ('e' :: power) digits
        (by simp +decide)
      rw [front, back]
      exact ⟨nonempty, .inr ⟨power, some, powers, rfl⟩⟩

/-- A text in hexadecimal digits is read as a number exactly when it looks like
one. -/
theorem parse_hex_isSome_iff {text : String} (nonempty : text ≠ "")
    (hex : ∀ digit ∈ text.toList, digit ∈ HEX) :
    (parse text).isSome ↔ NumberLike text.toList := by
  obtain ⟨first, rest, spelled⟩ := List.exists_cons_of_ne_nil
    (fun nothing => nonempty (String.toList_eq_nil_iff.mp nothing))
  obtain ⟨unsignedText, unnamed, -⟩ := plain_of_mem_hex
    (hex first (spelled ▸ List.mem_cons_self))
  have read := parse_plain false rest unsignedText unnamed
  simp only [Bool.false_eq_true, if_false, List.nil_append, ← spelled,
    String.ofList_toList] at read
  rw [read, Option.isSome_map, unsigned_hex_isSome_iff hex]

end RustFloat

namespace SealMap

open RustText Wire Oled

/-- The first eight bytes of a digest in hexadecimal digits. -/
structure HexWord where
  text : String
  length : text.length = 16
  hex : ∀ digit ∈ text.toList, digit ∈ RustFloat.HEX

/-- What the vault publishes; the marker has the stamp and the reason that a wipe
wrote in it. -/
structure Status where
  sealed : Bool
  entries : UInt64
  accessCount : UInt64
  hash : Option HexWord
  marker : Option (String × String)

namespace Status

/-- The line of a wipe. -/
def markerText (stamp reason : String) : String :=
  "SEALED " ++ stamp ++ " / OPENED BY " ++ reason ++ " / CONTENTS DESTROYED"

/-- The members of `status.json`. -/
def fields (status : Status) : List (String × Json.Value) :=
  [("access_count", .ofNat status.accessCount.toNat),
    ("entries", .ofNat status.entries.toNat),
    ("hash", .ofText (status.hash.map HexWord.text)),
    ("marker", .ofText (status.marker.map fun (stamp, reason) =>
      markerText stamp reason)),
    ("sealed", .bool status.sealed)]

end Status

/-- The scalars as the library prints them. -/
structure Prints (text : Json.Text) : Prop where
  null : text.display .null = "null"
  bool : ∀ flag, text.display (.bool flag) = if flag then "true" else "false"
  count : ∀ count, text.display (.ofNat count) = toString count

/-- A value with its number as a double holds it. -/
def asDouble : Json.Value → Json.Value
  | .number (.double value) => .number (.double (RustFloat.nearest value))
  | value => value

/-- The seal map of a face that holds the cortex's message. -/
def held (text : Json.Text) (rails : Dict F64) (now wall : F64)
    (st : RenderState) (status : Status) : Dict Json.Value :=
  (st.hold wall "power" (envelope
    (Cortex.buildPower text rails status.fields now))).sealMap.mapVal asDouble

/-- The map has what was in the status. -/
structure RoundTrips (status : Status) (map : Dict Json.Value) : Prop where
  sealed : map.lookup "sealed" = some (.bool status.sealed)
  entries : map.lookup "entries" =
    some (.number (.double status.entries.toNat))
  accessCount : map.lookup "access_count" =
    some (.number (.double status.accessCount.toNat))
  hash : map.lookup "hash" = some (.ofText (status.hash.map HexWord.text))
  marker : map.lookup "marker" =
    some (.ofText (status.marker.map fun (stamp, reason) =>
      Status.markerText stamp reason))

/-- What the face makes of one member. -/
def arrived (text : Json.Text) (value : Json.Value) : Json.Value :=
  asDouble (sealValue (Cortex.stringify text value))

theorem lookup_insert_others (frag : Dict String) (text : Json.Text)
    (fields : List (String × Json.Value)) {key : String}
    (others : ∀ field ∈ fields, field.1 ≠ key) :
    (fields.foldl (fun frag field =>
      frag.insert field.1 (Cortex.stringify text field.2)) frag).lookup key =
        frag.lookup key := by
  induction fields generalizing frag with
  | nil => rfl
  | cons field rest induction =>
      rw [List.foldl_cons, induction _ fun other member =>
        others other (List.mem_cons_of_mem _ member)]
      exact AList.lookup_insert_ne (others field List.mem_cons_self).symm

/-- The face holds every member of the status. -/
theorem lookup_held {text : Json.Text} {rails : Dict F64} {now wall : F64}
    {st : RenderState} {status : Status} {key : String} {value : Json.Value}
    {front back : List (String × Json.Value)}
    (fields : status.fields = front ++ (key, value) :: back)
    (others : ∀ field ∈ back, field.1 ≠ key) :
    (held text rails now wall st status).lookup key =
      some (arrived text value) := by
  unfold held
  rw [Dict.lookup_mapVal]
  simp only [RenderState.hold, envelope, Cortex.buildPower,
    RenderState.holdPower, if_true]
  rw [Dict.lookup_mapVal, fields, List.foldl_append, List.foldl_cons,
    lookup_insert_others _ _ _ others, AList.lookup_insert]
  rfl

variable {text : Json.Text}

theorem arrived_bool (prints : Prints text) (flag : Bool) :
    arrived text (.bool flag) = .bool flag := by
  have word : Cortex.stringify text (.bool flag) =
      if flag then "true" else "false" := prints.bool flag
  unfold arrived
  rw [word]
  cases flag <;> rfl

theorem arrived_null (prints : Prints text) : arrived text .null = .null := by
  have word : Cortex.stringify text .null = "null" := prints.null
  unfold arrived
  rw [word]
  rfl

/-- A word that is none of the three is a number or itself. -/
theorem sealValue_other {word : String} (true_ : word ≠ "true")
    (false_ : word ≠ "false") (null : word ≠ "null") :
    sealValue word = match RustFloat.parse word with
      | some (some value) => .number (.double value)
      | some none => .null
      | none => .string word := by
  unfold sealValue
  exact (if_neg true_).trans ((if_neg false_).trans (if_neg null))

/-- A count arrives as the nearest double. -/
theorem arrived_count (prints : Prints text) (count : UInt64) :
    arrived text (.ofNat count.toNat) =
      .number (.double (RustFloat.nearest count.toNat)) := by
  have lettered {word : String} (letter : Char) (member : letter ∈ word.toList)
      (other : ¬ letter.isDigit) : toString count.toNat ≠ word := by
    rintro rfl
    rw [Nat.toString_eq_ofList_toDigits, String.toList_ofList] at member
    exact other (RustFloat.isDigit_of_mem_toDigits member)
  have word : Cortex.stringify text (.ofNat count.toNat) =
      toString count.toNat := prints.count count.toNat
  unfold arrived
  rw [word, sealValue_other (lettered 't' (by decide) (by decide))
    (lettered 'f' (by decide) (by decide))
    (lettered 'n' (by decide) (by decide)),
    RustFloat.parse_toString (RustFloat.natCast_lt_overflow count.toNat_lt)]
  rfl

/-- A word of a digest arrives as itself when it does not look like a number. -/
theorem arrived_hash (hash : HexWord) :
    arrived text (.string hash.text) = .string hash.text ↔
      ¬ RustFloat.NumberLike hash.text.toList := by
  have long {word : String} (short : word.length ≠ 16) : hash.text ≠ word := by
    rintro rfl
    exact short hash.length
  have nonempty : hash.text ≠ "" := long (by decide)
  rw [← RustFloat.parse_hex_isSome_iff nonempty hash.hex]
  unfold arrived
  have word : Cortex.stringify text (.string hash.text) = hash.text := rfl
  rw [word, sealValue_other (long (by decide)) (long (by decide))
    (long (by decide))]
  rcases RustFloat.parse hash.text with _ | _ | value
  · simp [asDouble]
  · simp [asDouble]
  · simp [asDouble]

/-- The line of a wipe is no number. -/
theorem arrived_marker (stamp reason : String) :
    arrived text (.string (Status.markerText stamp reason)) =
      .string (Status.markerText stamp reason) := by
  obtain ⟨rest, spelled⟩ : ∃ rest,
      (Status.markerText stamp reason).toList = 'S' :: rest := by
    unfold Status.markerText
    simp only [String.toList_append]
    exact ⟨_, rfl⟩
  have headed {word : String} (other : word.toList.head? ≠ some 'S') :
      Status.markerText stamp reason ≠ word := by
    rintro rfl
    rw [spelled] at other
    exact other rfl
  have read := @RustFloat.parse_plain false 'S' rest (by decide)
    (by decide)
  have numberless : RustFloat.unsigned ('S' :: rest) = none := by
    simp [RustFloat.unsigned]
  simp only [Bool.false_eq_true, if_false, List.nil_append, ← spelled,
    String.ofList_toList] at read numberless
  rw [numberless, Option.map_none] at read
  unfold arrived
  have word : Cortex.stringify text (.string (Status.markerText stamp reason)) =
      Status.markerText stamp reason := rfl
  rw [word, sealValue_other (headed (by decide)) (headed (by decide))
    (headed (by decide)), read]
  rfl

theorem arrived_hash_ofText (prints : Prints text) (hash : Option HexWord) :
    arrived text (.ofText (hash.map HexWord.text)) =
        .ofText (hash.map HexWord.text) ↔
      ∀ word ∈ hash, ¬ RustFloat.NumberLike word.text.toList := by
  cases hash with
  | none => exact iff_of_true (arrived_null prints) (by simp)
  | some word =>
      simp only [Option.mem_some_iff, forall_eq']
      exact arrived_hash word

theorem arrived_marker_ofText (prints : Prints text)
    (marker : Option (String × String)) :
    arrived text (.ofText (marker.map fun (stamp, reason) =>
        Status.markerText stamp reason)) =
      .ofText (marker.map fun (stamp, reason) =>
        Status.markerText stamp reason) := by
  cases marker with
  | none => exact arrived_null prints
  | some line => exact arrived_marker line.1 line.2

theorem arrived_count_iff (prints : Prints text) (count : UInt64) :
    arrived text (.ofNat count.toNat) = .number (.double count.toNat) ↔
      RustFloat.IsDouble count.toNat := by
  rw [arrived_count prints, ← RustFloat.nearest_eq_self_iff]
  constructor
  · intro same
    exact Json.Number.double.inj (Json.Value.number.inj same)
  · intro fixed
    rw [fixed]

/-- The seal map has what the vault published exactly when both counts are
doubles and the digest does not look like a number. -/
theorem seal_map_round_trips_iff (prints : Prints text) (rails : Dict F64)
    (now wall : F64) (st : RenderState) (status : Status) :
    RoundTrips status (held text rails now wall st status) ↔
      RustFloat.IsDouble status.entries.toNat ∧
        RustFloat.IsDouble status.accessCount.toNat ∧
        ∀ hash ∈ status.hash, ¬ RustFloat.NumberLike hash.text.toList := by
  have accessCount := @lookup_held text rails now wall st status _ _ [] _ rfl
    (by simp)
  have entries := @lookup_held text rails now wall st status _ _ [_] _ rfl
    (by simp)
  have hash := @lookup_held text rails now wall st status _ _ [_, _] _ rfl
    (by simp)
  have marker := @lookup_held text rails now wall st status _ _ [_, _, _] _ rfl
    (by simp)
  have sealed := @lookup_held text rails now wall st status _ _ [_, _, _, _] _ rfl
    (by simp)
  constructor
  · intro trips
    refine ⟨?_, ?_, ?_⟩
    · exact (arrived_count_iff prints _).mp
        (Option.some.inj (entries.symm.trans trips.entries))
    · exact (arrived_count_iff prints _).mp
        (Option.some.inj (accessCount.symm.trans trips.accessCount))
    · exact (arrived_hash_ofText prints _).mp
        (Option.some.inj (hash.symm.trans trips.hash))
  · rintro ⟨entriesDouble, accessDouble, wordy⟩
    exact {
      sealed := sealed.trans (congrArg some (arrived_bool prints _))
      entries := entries.trans
        (congrArg some ((arrived_count_iff prints _).mpr entriesDouble))
      accessCount := accessCount.trans
        (congrArg some ((arrived_count_iff prints _).mpr accessDouble))
      hash := hash.trans
        (congrArg some ((arrived_hash_ofText prints _).mpr wordy))
      marker := marker.trans (congrArg some (arrived_marker_ofText prints _)) }

theorem hexDigit_mem {value : Nat} (small : value < 16) :
    hexDigit value ∈ RustFloat.HEX := by
  have all : ∀ value < 16, hexDigit value ∈ RustFloat.HEX := by decide
  exact all value small

theorem length_hexEncode (bytes : Bytes) :
    (hexEncode bytes).length = 2 * bytes.length := by
  unfold hexEncode
  rw [String.length_ofList]
  induction bytes with
  | nil => rfl
  | cons byte rest induction =>
      rw [List.flatMap_cons, List.length_append, induction]
      simp only [List.length_cons, List.length_nil]
      omega

theorem hex_of_mem_hexEncode {bytes : Bytes} {digit : Char}
    (member : digit ∈ (hexEncode bytes).toList) : digit ∈ RustFloat.HEX := by
  unfold hexEncode at member
  rw [String.toList_ofList] at member
  obtain ⟨byte, -, digits⟩ := List.mem_flatMap.mp member
  have bound := byte.toNat_lt
  simp only [List.mem_cons, List.not_mem_nil, or_false] at digits
  rcases digits with rfl | rfl
  · exact hexDigit_mem (by omega)
  · exact hexDigit_mem (by omega)

/-- The first bytes of a digest. -/
def ofDigest (v : Vault) (bytes : Bytes) : HexWord where
  text := hexEncode ((v.crypto.sha256 bytes).val.take 8)
  length := by
    rw [length_hexEncode, List.length_take, (v.crypto.sha256 bytes).property]
    rfl
  hex := fun _ => hex_of_mem_hexEncode

theorem trim_markerText (stamp reason : String) :
    trim (Status.markerText stamp reason ++ "\n") =
      Status.markerText stamp reason := by
  have spelled : Status.markerText stamp reason ++ "\n" =
      String.ofList ([] ++ ((Status.markerText stamp reason).toList ++ ['\n'])) := by
    simp
  have head : (Status.markerText stamp reason).toList.head? = some 'S' := by
    unfold Status.markerText
    simp only [String.toList_append, List.append_assoc]
    rfl
  have last : (Status.markerText stamp reason).toList.getLast? = some 'D' := by
    unfold Status.markerText
    rw [String.toList_append, List.getLast?_append_of_ne_nil _ (by decide)]
    rfl
  have fed : ∀ space ∈ ['\n'], isWhitespace space :=
    List.forall_mem_singleton.mpr rfl
  rw [spelled, trim_padded (by simp) fed head (by decide) last (by decide),
    String.ofList_toList]

/-- Whatever the files hold, a vault whose marker is a wipe's publishes one of
these. -/
theorem statusOf_fields (v : Vault) (host : FileDirectory.Host)
    (wiped : ∀ content, host.file "marker.txt" = some content →
      ∃ stamp reason,
        content = asBytes (Status.markerText stamp reason ++ "\n"))
    (logged : (Vault.logLines host).length < 2 ^ 64)
    (opened : ∀ entries, v.opened (host.file "key.bin") (host.file "vault.enc") =
      some entries → entries.length < 2 ^ 64) :
    ∃ status : Status, Vault.statusOf v host = .object status.fields := by
  obtain ⟨line, marked⟩ : ∃ line : Option (String × String),
      (((host.file "marker.txt").bind fromUtf8).map trim) =
        line.map fun (stamp, reason) => Status.markerText stamp reason := by
    cases written : host.file "marker.txt" with
    | none => exact ⟨none, rfl⟩
    | some content =>
        obtain ⟨stamp, reason, rfl⟩ := wiped content written
        refine ⟨some (stamp, reason), ?_⟩
        rw [Option.bind_some, fromUtf8_asBytes, Option.map_some,
          trim_markerText]
        rfl
  have count : ((v.opened (host.file "key.bin") (host.file "vault.enc")).map
      List.length).getD 0 < 2 ^ 64 := by
    cases journal : v.opened (host.file "key.bin") (host.file "vault.enc") with
    | none => exact Nat.two_pow_pos 64
    | some entries => exact opened entries journal
  refine ⟨{
    sealed := (v.opened (host.file "key.bin") (host.file "vault.enc")).isSome
    entries := .ofNat (((v.opened (host.file "key.bin")
      (host.file "vault.enc")).map List.length).getD 0)
    accessCount := .ofNat (Vault.logLines host).length
    hash :=
      if ((host.file "vault.enc").getD []).isEmpty then none
      else some (ofDigest v ((host.file "vault.enc").getD []))
    marker := line }, ?_⟩
  unfold Vault.statusOf Status.fields
  rw [marked]
  dsimp only
  rw [UInt64.toNat_ofNat_of_lt' logged, UInt64.toNat_ofNat_of_lt' count]
  split_ifs <;> rfl

theorem printer_prints : Prints Json.Printer.text where
  null := by
    unfold Json.Printer.text
    simp [Json.Printer.compact]
  bool flag := by
    unfold Json.Printer.text
    cases flag <;> simp [Json.Printer.compact]
  count count := by
    unfold Json.Printer.text
    simp [Json.Printer.compact, Json.Value.ofNat, Json.Printer.number,
      Json.Printer.numerator, Json.Printer.fraction, Int.repr,
      Nat.toString_eq_repr, Nat.repr]

theorem mem_hex_of_all {word : String}
    (all : word.toList.all (fun digit => digit ∈ RustFloat.HEX) = true) :
    ∀ digit ∈ word.toList, digit ∈ RustFloat.HEX := by
  simpa using all

/-- A digest in sixteen decimal digits. -/
def decimalHash : HexWord where
  text := "1234567890123456"
  length := by decide
  hex := mem_hex_of_all (by decide)

theorem numberLike_decimalHash : RustFloat.NumberLike decimalHash.text.toList := by
  have digits : decimalHash.text.toList.all Char.isDigit = true := by decide
  exact ⟨_, by decide, List.all_eq_true.mp digits, .inl rfl⟩

/-- A face that has heard nothing. -/
def unlit : RenderState where
  clockNow := 0

/-- A digest in decimal digits arrives as a number. -/
theorem digest_arrives_as_number :
    ¬ ∀ (text : Json.Text) (rails : Dict F64) (now wall : F64)
      (st : RenderState) (status : Status), Prints text →
      RoundTrips status (held text rails now wall st status) := by
  intro claim
  have trips := claim Json.Printer.text ∅ 0 0 unlit
    ⟨true, 1, 2, some decimalHash, none⟩ printer_prints
  have hash := @lookup_held Json.Printer.text ∅ 0 0 unlit
    ⟨true, 1, 2, some decimalHash, none⟩ _ _ [_, _] _ rfl (by simp)
  have same := Option.some.inj (hash.symm.trans trips.hash)
  exact (arrived_hash decimalHash).mp same numberLike_decimalHash

/-- A digest with a letter that no number has. -/
def letteredHash : HexWord where
  text := "5d41402abc4b2a76"
  length := by decide
  hex := mem_hex_of_all (by decide)

theorem not_numberLike_letteredHash :
    ¬ RustFloat.NumberLike letteredHash.text.toList := by
  have lettered : 'd' ∈ letteredHash.text.toList := by decide
  have powerless : 'e' ∉ letteredHash.text.toList := by decide
  rintro ⟨whole, -, digits, same | ⟨power, -, -, same⟩⟩
  · exact absurd (digits 'd' (same ▸ lettered)) (by decide)
  · refine powerless (same ▸ ?_)
    exact List.mem_append_right _ List.mem_cons_self

/-- Seven entries under a digest with a letter. -/
theorem seal_map_round_trips_iff_lettered :
    RoundTrips ⟨true, 7, 9, some letteredHash, none⟩
      (held Json.Printer.text ∅ 0 0 unlit ⟨true, 7, 9, some letteredHash, none⟩) := by
  refine (seal_map_round_trips_iff printer_prints ∅ 0 0 unlit _).mpr ⟨?_, ?_, ?_⟩
  · exact RustFloat.isDouble_natCast (by decide)
  · exact RustFloat.isDouble_natCast (by decide)
  · intro hash member
    rw [← Option.some.inj member]
    exact not_numberLike_letteredHash

end SealMap
