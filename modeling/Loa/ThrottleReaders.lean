import Loa.ConsoleModel
import Loa.CortexBuild
import Loa.JsonPrinter
import Loa.OledFeedBatching
import Loa.OledRenderState
import Loa.RustDouble
import Loa.RustWords

/-!
# One register, two readers and two displays

`vcgencmd get_throttled` prints one register.  The fault daemon and the cortex
parse the line, and the face and the console show what the cortex made of it.
The cortex leaves the `0x` on the digits, so that its map has the register only
if the listing of the rails names it.
-/

namespace Dict

variable {V W : Type}

/-- Change every value of a map, or leave it out. -/
def mapPartial (change : V → Option W) (dict : Dict V) : Dict W where
  entries := dict.entries.filterMap fun entry =>
    (change entry.2).map fun value => ⟨entry.1, value⟩
  nodupKeys := by
    have keys : (dict.entries.filterMap fun entry =>
        (change entry.2).map fun value =>
          (⟨entry.1, value⟩ : Sigma fun _ : String => W)).keys.Sublist
        dict.entries.keys := by
      induction dict.entries with
      | nil => exact List.Sublist.refl _
      | cons entry rest induction =>
          cases changed : change entry.2 with
          | none => simpa [changed] using induction.cons entry.1
          | some value => simpa [changed] using induction.cons_cons entry.1
    exact List.Nodup.sublist keys dict.nodupKeys

@[simp]
theorem lookup_mapPartial (change : V → Option W) (dict : Dict V) (key : String) :
    (dict.mapPartial change).lookup key = (dict.lookup key).bind change := by
  obtain ⟨entries, nodup⟩ := dict
  simp only [mapPartial, AList.lookup]
  induction entries with
  | nil => rfl
  | cons entry rest induction =>
      obtain ⟨name, value⟩ := entry
      have kept := induction (List.nodupKeys_cons.mp nodup).2
      by_cases same : name = key
      · subst name
        cases changed : change value with
        | none =>
            have absent : key ∉ rest.keys := (List.nodupKeys_cons.mp nodup).1
            have nothing : rest.dlookup key = none :=
              List.dlookup_eq_none.mpr absent
            rw [nothing] at kept
            simpa [changed] using kept
        | some other => simp [changed]
      · rw [List.dlookup_cons_ne _ _ (Ne.symm same), ← kept]
        cases changed : change value with
        | none => simp [changed]
        | some other =>
            simp only [List.filterMap_cons, changed, Option.map_some]
            exact List.dlookup_cons_ne _ _ (Ne.symm same)

end Dict

/-- A child that ran to its end: its exit code, if no signal ended it, and what it
printed. -/
structure CommandOutput where
  code : Option Int
  stdout : Bytes

namespace CommandOutput

def success (out : CommandOutput) : Bool :=
  out.code = some 0

def text (out : CommandOutput) : String :=
  RustText.fromUtf8Lossy out.stdout

end CommandOutput

namespace Cortex

open RustText

/-- A reading of a rail; `none` is a number that is not finite. -/
abbrev RailReading := Option F64

/-- The name and the reading in one line of the listing. -/
def pmicLine (line : String) : Option (String × RailReading) :=
  match splitOnce '=' line with
  | none => none
  | some (k, v) =>
      let k := (splitWhitespace k).head?.getD k
      (RustFloat.parseNearest
        (trimEndMatches (fun unit => unit = 'V' || unit = 'A') (trim v))).map
          fun f => (k, f)

def insertLine (out : Dict RailReading) (line : String) : Dict RailReading :=
  match pmicLine line with
  | some (k, f) => out.insert k f
  | none => out

/-- The rails on the body: the listing of the rails, and then the register.  Off
the body there is no listing and no rail. -/
def readRails (pmic throttled : Option CommandOutput) : Dict RailReading :=
  match pmic with
  | none => ∅
  | some pmic =>
      let out :=
        if pmic.success then (lines pmic.text).foldl insertLine ∅ else ∅
      match throttled with
      | none => out
      | some t =>
          if t.success then
            match splitOnce '=' (trim t.text) with
            | none => out
            | some (_, hex) =>
                match fromStrRadix 16 (2 ^ 64) (trim hex) with
                | .ok u => out.insert "throttled" (some (RustFloat.nearest u))
                | .error _ => out
          else out

end Cortex

namespace FaultDaemon

open RustText

/-- The exit code and the trimmed output of a command; `none` is one that could
not be run to its end. -/
def run : Option CommandOutput → Int × String
  | none => (1, "")
  | some out => (out.code.getD (-1), trim out.text)

def probeThrottled (throttled : Option CommandOutput) : Option UInt64 :=
  let (rc, out) := run throttled
  if rc ≠ 0 then none
  else
    ((out.toList.splitOn '=')[1]?.map String.ofList).bind fun hex =>
      (fromStrRadix 16 (2 ^ 64)
        (trimStartMatches "0X" (trimStartMatches "0x" (trim hex)))).toOption.map
          UInt64.ofNat

end FaultDaemon

/-- `as u64`: the fraction goes, and what does not fit saturates. -/
def RustFloat.asU64 (value : F64) : UInt64 :=
  UInt64.ofNat (min (truncate value).toNat (2 ^ 64 - 1))

/-- The rails are doubles, and the bits are the bits. -/
def Console.throttleBits (value : Option F64) : Option UInt64 :=
  value.map RustFloat.asU64

namespace Throttle

open RustText Wire

/-- A message of the cortex after its way over the socket. -/
def carried (prost : Prost) (topic : String) (body : Body) : Option Msg :=
  match encode topic (envelope body) with
  | .error _ => none
  | .ok parts => (decode prost parts).toOption

/-- The message of the rails that have a number. -/
def powerOf (text : Json.Text) (rails : Dict Cortex.RailReading)
    (status : List (String × Json.Value)) (now : F64) : Body :=
  Cortex.buildPower text (rails.mapPartial id) status now

/-- The bits on the face once it holds the message. -/
def faceBits (prost : Prost) (wall : F64) (st : Oled.RenderState) (body : Body) :
    Option UInt32 :=
  match carried prost "power" body with
  | some msg => (st.hold wall msg.topic msg.env).powerThrottled
  | none => st.powerThrottled

/-- The bits on the console once it has applied the message. -/
def consoleBits (prost : Prost) (model : Console.Model) (body : Body) :
    Option UInt64 :=
  match carried prost "power" body with
  | some msg => Console.throttleBits (model.apply msg.topic msg.env).throttle
  | none => Console.throttleBits model.throttle

theorem carried_power (prost : Prost) (m : Power) :
    carried prost "power" (.power m) = some ⟨"power", envelope (.power m)⟩ := by
  have encoded : encode "power" (envelope (.power m)) =
      .ok ⟨asBytes "power", .encoded (envelope (.power m))⟩ := rfl
  have decoded := decode_encode prost (by decide) encoded
  unfold carried
  rw [encoded]
  dsimp only
  rw [decoded]
  rfl

theorem truncate_natCast (count : Nat) : RustFloat.truncate (count : F64) = count := by
  simp [RustFloat.truncate]

/-- A register of 32 bits comes back from its double. -/
theorem asU32_natCast {count : Nat} (small : count < 2 ^ 32) :
    (RustFloat.asU32 count).toNat = count := by
  unfold RustFloat.asU32
  rw [truncate_natCast, Int.toNat_natCast, Nat.min_eq_left (by omega)]
  exact UInt32.toNat_ofNat_of_lt' small

theorem asU64_natCast {count : Nat} (small : count < 2 ^ 32) :
    RustFloat.asU64 count = UInt64.ofNat count := by
  unfold RustFloat.asU64
  rw [truncate_natCast, Int.toNat_natCast, Nat.min_eq_left (by omega)]

/-- The displays show a register that is in the rails. -/
theorem displayed {rails : Dict Cortex.RailReading} {count : Nat}
    (listed : rails.lookup "throttled" = some (some (count : F64)))
    (small : count < 2 ^ 32) (prost : Prost) (text : Json.Text)
    (status : List (String × Json.Value)) (now wall : F64)
    (st : Oled.RenderState) (model : Console.Model) :
    (∃ shown, faceBits prost wall st (powerOf text rails status now) =
        some shown ∧ shown.toNat = count) ∧
      consoleBits prost model (powerOf text rails status now) =
        some (UInt64.ofNat count) := by
  have crossed : (rails.mapPartial id).lookup "throttled" = some (count : F64) := by
    rw [Dict.lookup_mapPartial, listed]
    rfl
  constructor
  · refine ⟨RustFloat.asU32 count, ?_, asU32_natCast small⟩
    unfold faceBits powerOf Cortex.buildPower
    rw [carried_power]
    simp [Oled.RenderState.hold, envelope, Oled.RenderState.holdPower, crossed]
  · unfold consoleBits powerOf Cortex.buildPower
    rw [carried_power]
    simp [Console.Model.apply, envelope, Console.throttleBits, crossed,
      asU64_natCast small]

/-- The output of `get_throttled`: the line of a register of 32 bits, with white
space around it. -/
structure Reports (out : CommandOutput) (digits : List Char) : Prop where
  success : out.code = some 0
  nonempty : digits ≠ []
  hex : ∀ digit ∈ digits, (toDigit 16 digit).isSome
  small : digitsValue 16 digits 0 < 2 ^ 32
  printed : ∃ front back, (∀ space ∈ front, isWhitespace space) ∧
    (∀ space ∈ back, isWhitespace space) ∧
    out.stdout = asBytes (String.ofList
      (front ++ ("throttled=0x".toList ++ digits ++ back)))

/-- What a digit is not. -/
theorem plain_of_digit {digit : Char} (read : (toDigit 16 digit).isSome) :
    isWhitespace digit = false ∧ digit ≠ '=' ∧ digit ≠ 'x' ∧ digit ≠ 'X' := by
  have unread {other : Char} (none : toDigit 16 other = none) : digit ≠ other := by
    rintro rfl
    rw [none] at read
    cases read
  refine ⟨?_, unread (by decide), unread (by decide), unread (by decide)⟩
  have range : (48 ≤ digit.toNat ∧ digit.toNat ≤ 57) ∨
      (97 ≤ digit.toNat ∧ digit.toNat ≤ 122) ∨
      (65 ≤ digit.toNat ∧ digit.toNat ≤ 90) := by
    unfold toDigit at read
    by_contra outside
    simp only [not_or] at outside
    simp [outside] at read
  unfold isWhitespace
  simp only [Bool.or_eq_false_iff, Bool.and_eq_false_iff, decide_eq_false_iff_not,
    beq_eq_false_iff_ne]
  omega

namespace Reports

variable {out : CommandOutput} {digits : List Char}

theorem getLast?_digits (reports : Reports out digits) (front : List Char) :
    ∃ last, (front ++ digits).getLast? = some last ∧
      isWhitespace last = false := by
  refine ⟨digits.getLast reports.nonempty, ?_, ?_⟩
  · rw [List.getLast?_append_of_ne_nil _ reports.nonempty,
      List.getLast?_eq_some_getLast reports.nonempty]
  · exact (plain_of_digit
      (reports.hex _ (List.getLast_mem reports.nonempty))).1

/-- The line without the white space. -/
theorem trim_text (reports : Reports out digits) :
    trim out.text = String.ofList ("throttled=0x".toList ++ digits) := by
  obtain ⟨front, back, before, after, printed⟩ := reports.printed
  obtain ⟨last, tail, solid⟩ := reports.getLast?_digits "throttled=0x".toList
  unfold CommandOutput.text
  rw [printed, fromUtf8Lossy_asBytes]
  exact trim_padded before after rfl (by decide) tail solid

/-- There is no white space around what is behind the equals sign. -/
theorem trim_digits (reports : Reports out digits) :
    trim (String.ofList ('0' :: 'x' :: digits)) =
      String.ofList ('0' :: 'x' :: digits) := by
  obtain ⟨last, tail, solid⟩ := reports.getLast?_digits ['0', 'x']
  have kept := @trim_padded [] [] '0' last ('0' :: 'x' :: digits) (by simp)
    (by simp) rfl (by decide) tail solid
  simpa using kept

/-- The cortex reads the digits with their mark, and that is no number. -/
theorem fromStrRadix_marked (rest : List Char) :
    fromStrRadix 16 (2 ^ 64) (String.ofList ('0' :: 'x' :: rest)) =
      .error .invalidDigit := by
  unfold fromStrRadix
  rw [String.toList_ofList]
  rfl

/-- The register adds nothing to the rails. -/
theorem readRails_eq (reports : Reports out digits) (pmic : CommandOutput) :
    Cortex.readRails (some pmic) (some out) =
      if pmic.success then (lines pmic.text).foldl Cortex.insertLine ∅
      else ∅ := by
  have succeeded : out.success = true := decide_eq_true reports.success
  have split : splitOnce '='
      (String.ofList ("throttled=0x".toList ++ digits)) =
        some ("throttled", String.ofList ('0' :: 'x' :: digits)) := by
    unfold splitOnce
    rw [String.toList_ofList]
    rfl
  unfold Cortex.readRails
  simp only [succeeded, if_true, reports.trim_text, split, reports.trim_digits,
    fromStrRadix_marked]

/-- The fault daemon takes the mark off the digits. -/
theorem probeThrottled_eq (reports : Reports out digits) :
    FaultDaemon.probeThrottled (some out) =
      some (UInt64.ofNat (digitsValue 16 digits 0)) := by
  have apart (other : Char) (unread : other = '=' ∨ other = 'x' ∨ other = 'X') :
      other ∉ digits := by
    intro member
    obtain ⟨-, equals, small, capital⟩ := plain_of_digit (reports.hex other member)
    rcases unread with rfl | rfl | rfl
    · exact equals rfl
    · exact small rfl
    · exact capital rfl
  have behind : '=' ∉ '0' :: 'x' :: digits := by
    simp [apart '=' (.inl rfl)]
  have pieces : (String.ofList ("throttled=0x".toList ++ digits)).toList.splitOn
      '=' = ["throttled".toList, '0' :: 'x' :: digits] := by
    rw [String.toList_ofList]
    exact (List.splitOn_append_cons_self_of_not_mem
      (by decide : '=' ∉ "throttled".toList) _).trans
        (congrArg _ (List.splitOn_eq_singleton behind))
  have begins {mark : Char} (other : mark ∉ digits) :
      ['0', mark].isPrefixOf digits = false := by
    refine Bool.eq_false_iff.mpr fun begun => ?_
    obtain ⟨rest, rfl⟩ := List.isPrefixOf_iff_prefix.mp begun
    exact other (List.mem_cons_of_mem _ List.mem_cons_self)
  have unmarked : trimStartMatches "0X" (trimStartMatches "0x"
      (String.ofList ('0' :: 'x' :: digits))) = String.ofList digits :=
    (congrArg (trimStartMatches "0X") (@trimStartMatches_once "0x" digits
      (by decide) (begins (apart 'x' (.inr (.inl rfl)))))).trans
        (@trimStartMatches_none "0X" digits
          (begins (apart 'X' (.inr (.inr rfl)))))
  have read : fromStrRadix 16 (2 ^ 64) (String.ofList digits) =
      .ok (digitsValue 16 digits 0) :=
    fromStrRadix_digits (by decide) reports.nonempty reports.hex
      (reports.small.trans (by decide))
  have ended : FaultDaemon.run (some out) =
      (0, String.ofList ("throttled=0x".toList ++ digits)) := by
    dsimp only [FaultDaemon.run]
    rw [reports.success, reports.trim_text]
    rfl
  unfold FaultDaemon.probeThrottled
  rw [ended]
  simp only [ne_eq, not_true_eq_false, if_false, pieces, List.getElem?_cons_succ,
    List.getElem?_cons_zero, Option.map_some, Option.bind_some,
    reports.trim_digits, unmarked, read]
  rfl

end Reports

/-- The readings of one rail, in the order of the listing. -/
def readingsOf (key : String) (listing : List String) : List Cortex.RailReading :=
  ((listing.filterMap Cortex.pmicLine).filter fun rail => rail.1 = key).map
    Prod.snd

/-- The listing of the rails has this number as the last reading that it names
after the register. -/
def Listed (pmic : Option CommandOutput) (count : Nat) : Prop :=
  ∃ listing, pmic = some listing ∧ listing.success ∧
    (readingsOf "throttled" (lines listing.text)).getLast? =
      some (some (count : F64))

/-- The rails have the last reading of each. -/
theorem lookup_listing (listing : List String) (key : String) :
    (listing.foldl Cortex.insertLine ∅).lookup key =
      (readingsOf key listing).getLast? := by
  induction listing using List.reverseRecOn with
  | nil => rfl
  | append_singleton listing last induction =>
      rw [List.foldl_append, List.foldl_cons, List.foldl_nil]
      unfold readingsOf Cortex.insertLine at *
      rw [List.filterMap_append]
      cases read : Cortex.pmicLine last with
      | none => simpa [read] using induction
      | some rail =>
          obtain ⟨name, reading⟩ := rail
          by_cases same : name = key
          · subst name
            simp [read]
          · rw [AList.lookup_insert_ne (Ne.symm same), induction]
            simp [read, same]

/-- The two readers and the two displays have one register. -/
def Agree (prost : Prost) (text : Json.Text) (pmic throttled : Option CommandOutput)
    (status : List (String × Json.Value)) (now wall : F64)
    (st : Oled.RenderState) (model : Console.Model) : Prop :=
  let rails := Cortex.readRails pmic throttled
  let body := powerOf text rails status now
  ∃ bits, FaultDaemon.probeThrottled throttled = some bits ∧
    rails.lookup "throttled" = some (some (bits.toNat : F64)) ∧
    (∃ shown, faceBits prost wall st body = some shown ∧
      shown.toNat = bits.toNat) ∧
    consoleBits prost model body = some bits

/-- The readers agree on a register exactly when the listing of the rails has its
number already. -/
theorem readers_agree_iff {out : CommandOutput} {digits : List Char}
    (reports : Reports out digits) (pmic : Option CommandOutput)
    (prost : Prost) (text : Json.Text) (status : List (String × Json.Value))
    (now wall : F64) (st : Oled.RenderState) (model : Console.Model) :
    Agree prost text pmic (some out) status now wall st model ↔
      Listed pmic (digitsValue 16 digits 0) := by
  have count : (UInt64.ofNat (digitsValue 16 digits 0)).toNat =
      digitsValue 16 digits 0 :=
    UInt64.toNat_ofNat_of_lt' (reports.small.trans (by decide))
  unfold Agree
  dsimp only
  rw [reports.probeThrottled_eq]
  constructor
  · rintro ⟨bits, probed, inserted, -, -⟩
    rw [← Option.some.inj probed, count] at inserted
    cases pmic with
    | none => cases inserted
    | some listing =>
        rw [reports.readRails_eq] at inserted
        split_ifs at inserted with succeeded
        · rw [lookup_listing] at inserted
          exact ⟨listing, rfl, succeeded, inserted⟩
        · cases inserted
  · rintro ⟨listing, rfl, succeeded, last⟩
    have inserted : (Cortex.readRails (some listing) (some out)).lookup
        "throttled" = some (some (digitsValue 16 digits 0 : F64)) := by
      rw [reports.readRails_eq, if_pos succeeded, lookup_listing, last]
    obtain ⟨face, console⟩ := displayed inserted reports.small prost text status
      now wall st model
    refine ⟨_, rfl, ?_, ?_, console⟩
    · rw [count]
      exact inserted
    · rw [count]
      exact face

/-- What a body that was throttled since its boot prints. -/
def since : CommandOutput where
  code := some 0
  stdout := asBytes "throttled=0x50000\n"

theorem reports_since : Reports since ['5', '0', '0', '0', '0'] where
  success := rfl
  nonempty := by decide
  hex := by
    have all : ['5', '0', '0', '0', '0'].all (fun digit =>
        (toDigit 16 digit).isSome) = true := by decide
    exact List.all_eq_true.mp all
  small := by decide
  printed := ⟨[], ['\n'], by simp, List.forall_mem_singleton.mpr rfl, rfl⟩

/-- The listing of a body with one rail. -/
def oneRail : CommandOutput where
  code := some 0
  stdout := asBytes "EXT5V_V volt(24)=5.1V\n"

theorem not_listed_oneRail (count : Nat) : ¬ Listed (some oneRail) count := by
  rintro ⟨_, same, -, last⟩
  obtain rfl := Option.some.inj same
  have listing : lines oneRail.text = ["EXT5V_V volt(24)=5.1V"] := by
    unfold CommandOutput.text oneRail
    rw [fromUtf8Lossy_asBytes]
    decide
  have split : splitOnce '=' "EXT5V_V volt(24)=5.1V" =
      some ("EXT5V_V volt(24)", "5.1V") := by decide
  have word : (splitWhitespace "EXT5V_V volt(24)").head? = some "EXT5V_V" := by
    decide
  have member := List.mem_of_getLast? last
  unfold readingsOf at member
  rw [listing] at member
  simp only [List.mem_map, List.mem_filter, List.mem_filterMap,
    List.mem_singleton, decide_eq_true_eq] at member
  obtain ⟨rail, ⟨⟨_, rfl, read⟩, named⟩, -⟩ := member
  unfold Cortex.pmicLine at read
  rw [split] at read
  obtain ⟨reading, -, rfl⟩ := Option.map_eq_some_iff.mp read
  rw [word] at named
  have other : "EXT5V_V" ≠ "throttled" := by decide
  exact other named

/-- The fault daemon has a register that the cortex leaves out. -/
theorem register_left_out :
    ¬ ∀ (out : CommandOutput) (digits : List Char), Reports out digits →
      ∀ (pmic : Option CommandOutput) (prost : Prost) (text : Json.Text)
        (status : List (String × Json.Value)) (now wall : F64)
        (st : Oled.RenderState) (model : Console.Model),
        Agree prost text pmic (some out) status now wall st model := by
  intro claim
  obtain ⟨bits, -, inserted, -⟩ := claim since _ reports_since (some oneRail)
    Oled.noForeignBytes Json.Printer.text [] 0 0 { clockNow := 0 } {}
  rw [reports_since.readRails_eq] at inserted
  have succeeded : oneRail.success = true := rfl
  rw [if_pos succeeded, lookup_listing] at inserted
  exact not_listed_oneRail _ ⟨oneRail, rfl, rfl, inserted⟩

/-- A listing that names the register as if it were a rail. -/
def namesRegister : CommandOutput where
  code := some 0
  stdout := asBytes "throttled=327680\n"

theorem listed_namesRegister :
    Listed (some namesRegister) (digitsValue 16 ['5', '0', '0', '0', '0'] 0) := by
  have listing : lines namesRegister.text = ["throttled=327680"] := by
    unfold CommandOutput.text namesRegister
    rw [fromUtf8Lossy_asBytes]
    decide
  have count : digitsValue 16 ['5', '0', '0', '0', '0'] 0 = 327680 := by decide
  have parsed : RustFloat.parseNearest "327680" =
      some (some ((327680 : Nat) : F64)) := by
    have digits : toString 327680 = "327680" := by decide
    rw [← digits]
    exact RustFloat.parseNearest_toString (by norm_num)
  have split : splitOnce '=' "throttled=327680" = some ("throttled", "327680") := by
    decide
  have word : (splitWhitespace "throttled").head? = some "throttled" := by
    decide
  have bare : trimEndMatches (fun unit => unit = 'V' || unit = 'A')
      (trim "327680") = "327680" := by
    decide
  have line : Cortex.pmicLine "throttled=327680" =
      some ("throttled", some ((327680 : Nat) : F64)) := by
    unfold Cortex.pmicLine
    rw [split]
    dsimp only
    rw [word, bare, parsed]
    rfl
  refine ⟨namesRegister, rfl, rfl, ?_⟩
  rw [listing, count]
  simp [readingsOf, line]

/-- The register comes back when the listing has named it. -/
theorem readers_agree_iff_named :
    Agree Oled.noForeignBytes Json.Printer.text (some namesRegister) (some since)
      [] 0 0 { clockNow := 0 } {} :=
  (readers_agree_iff reports_since (some namesRegister) Oled.noForeignBytes
    Json.Printer.text [] 0 0 { clockNow := 0 } {}).mpr listed_namesRegister

end Throttle
