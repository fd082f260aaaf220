import Loa.FaultSweep
import Mathlib.Data.List.Infix

/-!
# What a sweep makes of its probes

`evaluate` looks at the units, the buses, the rails, the sensors, the disk, the
door and the i2c door in this order, and then puts the faults before the
warnings.  The check of a bus is followed to its end: a bus that is held has one
row of three, and which of them says whether the lines of its holders name the
owner.
-/

namespace FaultDaemon

open RustText

def FAULT : String := "fault"

/-- The units of the body. -/
def UNITS : List String :=
  ["loa-cortex", "loa-oled", "loa-ring", "loa-motion", "loa-sonar",
    "loa-weather", "loa-fault"]

/-- Who should hold which bus. -/
def BUS_OWNERS : List (String × String) :=
  [("/dev/spidev0.0", "loa-oled"), ("/dev/spidev1.0", "loa-ring")]

def BUS_LABEL : List (String × String) :=
  [("/dev/spidev0.0", "FACE"), ("/dev/spidev1.0", "RING")]

def DISK_WARN_PCT : UInt64 := 85

def API_PORT_DEFAULT : String := "8765"

/-- What `systemctl is-active` said about a unit. -/
inductive SvcState
  | active
  | inactive
  | failed
  /-- Running and failing, which is not dead. -/
  | looping
  | unknown
  deriving DecidableEq

namespace SvcState

/-- The word that systemctl printed. -/
def parse (text : String) : SvcState :=
  if text = "active" then .active
  else if text = "inactive" then .inactive
  else if text = "failed" then .failed
  else if text ∈ ["activating", "auto-restart", "reloading"] then .looping
  else .unknown

/-- The word for the row. -/
def word : SvcState → String
  | .active => "active"
  | .inactive => "inactive"
  | .failed => "failed"
  | .looping => "activating"
  | .unknown => "unknown"

end SvcState

/-- For each unit its state, and whether the unit file exists. -/
abbrev Services := Dict (SvcState × Bool)

/-- For each bus whether the node exists, and the lines of its holders. -/
abbrev BusStatus := Dict (Bool × List String)

/-- The probes of one sweep. -/
structure Inputs where
  services : Services
  bus : BusStatus
  /-- The percentage used, and the free and the total gigabytes. -/
  disk : Option (UInt64 × F64 × F64)
  sensors : SensorReadings
  throttled : Option UInt64
  tempVal : Option F64
  cortexState : String
  apiListening : Bool
  apiPort : String
  i2cDoor : Bool
  deviceTree : Bool
  now : F64

def Row.new (level code text : String) : Row :=
  ⟨level, code, text, ""⟩

def Row.withFace (level code text face : String) : Row :=
  ⟨level, code, text, face⟩

def upper (text : String) : String :=
  String.ofList (text.toList.map Char.toUpper)

def lower (text : String) : String :=
  String.ofList (text.toList.map Char.toLower)

/-- The face's word for a unit: the part after the first dash. -/
def short (unit : String) : String :=
  upper (((unit.toList.splitOn '-')[1]?.map String.ofList).getD unit)

example : (short "loa-fault", short "lamp") = ("FAULT", "LAMP") := by
  decide

/-- The row for a unit in this state, if it has one. -/
def unitRow (unit : String) : SvcState × Bool → Option Row
  | (.active, _) => none
  | (.looping, _) =>
      some (.new FAULT (short unit ++ " LOOP")
        (unit ++ " is CRASH-LOOPING (" ++ SvcState.looping.word ++
          ") — running and failing. Check its log before believing " ++
          "anything downstream is broken."))
  | (state, unitFileExists) =>
      if state = .inactive ∧ unit = "loa-ring" then
        some (.new WARN "RING STOPPED"
          ("loa-ring not running — unit file " ++
            if unitFileExists then "present but stopped"
            else "MISSING from /etc/systemd/system"))
      else
        some (.new FAULT (short unit ++ " DOWN")
          (unit ++ " is " ++ state.word))

def unitRows (services : Services) : List Row :=
  UNITS.filterMap fun unit =>
    unitRow unit ((services.lookup unit).getD (.unknown, false))

/-- A line of holders names this owner. -/
def Names (expected holder : String) : Prop :=
  expected.toList <:+: holder.toList

instance (expected holder : String) : Decidable (Names expected holder) :=
  inferInstanceAs (Decidable (_ <:+: _))

/-- The label of a bus; without one, the end of its path. -/
def busLabel (bus : String) : String :=
  (BUS_LABEL.lookup bus).getD
    (upper (String.ofList (bus.toList.drop (bus.length - 3))))

/-- How the text of a clash begins. -/
def clashText (bus : String) : String :=
  bus ++ " held by something else: "

/-- The row for a bus, if it has one. -/
def busRow (bus expected : String) : Bool × List String → Option Row
  | (false, _) => none
  | (true, holders) =>
      if ∃ holder ∈ holders, Names expected holder then none
      else if holders ≠ [] then
        some (.new FAULT "BUS CLASH"
          (clashText bus ++ " | ".intercalate (holders.map trim)))
      else
        some (.new FAULT (busLabel bus ++ " DARK")
          ("nothing is driving " ++ bus ++ " — expected " ++ expected ++
            ", so the " ++ lower (busLabel bus) ++ " is dark"))

def busRows (bus : BusStatus) : List Row :=
  BUS_OWNERS.filterMap fun (node, expected) =>
    busRow node expected ((bus.lookup node).getD (false, []))

/-- `{:#x}`. -/
def hex (bits : UInt64) : String :=
  "0x" ++ String.ofList (Nat.toDigits 16 bits.toNat)

/-- The row for the rails: one for a cause, not one for a bit.  A temperature
that cannot be read counts as hot; `display` writes one as `{}` does. -/
def railRow (display : F64 → String) (tempVal : Option F64) :
    Option UInt64 → Option Row
  | none => none
  | some bits =>
      let thr := bits &&& 0xE
      if bits &&& 0x1 ≠ 0 then
        some (.new FAULT "UNDERVOLT"
          ("5V input sagging RIGHT NOW" ++
            (if thr ≠ 0 then " — SoC throttled to cope" else "") ++
            " (throttled=" ++ hex bits ++ ")"))
      else if thr ≠ 0 then
        let hot := (tempVal.map fun t => decide (80 ≤ t)).getD true
        let face :=
          match hot, tempVal with
          | true, some t => "HOT " ++ toString (RustFloat.rounded t) ++ "C"
          | true, none => "HOT"
          | false, _ => "THROTTLED"
        let cause :=
          (match tempVal with
          | some t =>
              "SoC at " ++ display t ++ "C — freq-capped/throttling to cope"
          | none => "SoC throttling — temperature unreadable") ++
            " (throttled=" ++ hex bits ++ ")"
        some (.withFace FAULT (if hot then "HOT" else "THROTTLED") cause face)
      else none

/-- The row for the disk: one tier, and no second one above it. -/
def diskRow : Option (UInt64 × F64 × F64) → Option Row
  | none => none
  | some (usedPct, freeGb, _) =>
      if DISK_WARN_PCT ≤ usedPct then
        some (.new WARN ("DISK " ++ toString usedPct ++ "%")
          ("root filesystem " ++ toString usedPct ++ "% used (" ++
            RustFloat.oneDecimal freeGb ++ " GB free)"))
      else none

example : (diskRow (some (85, 44 / 10, 30))).map Row.text =
    some "root filesystem 85% used (4.4 GB free)" := by
  decide +kernel

/-- The row for the door: the unit is active and the port is listening. -/
def apiRow (i : Inputs) : Option Row :=
  if i.cortexState ≠ "active" ∨ ¬ i.apiListening then
    some (.new FAULT "API DEAD"
      ("cortex not answering on :" ++
        (if i.apiPort = "" then API_PORT_DEFAULT else i.apiPort) ++
        " (unit '" ++ i.cortexState ++ "', port " ++
        (if i.apiListening then "listening" else "closed") ++ ")"))
  else none

def i2cRow (i : Inputs) : Option Row :=
  if ¬ i.i2cDoor ∧ i.deviceTree then
    some (.new WARN "I2C NO DOOR"
      "/dev/i2c-1 absent — i2c-dev not loaded (a blind bus, not a dead chip)")
  else none

/-- The rows in the order of the checks. -/
def checkRows (display : F64 → String) (i : Inputs) : List Row :=
  unitRows i.services ++ busRows i.bus ++
    (railRow display i.tempVal i.throttled).toList ++
    sensorRows i.sensors i.now ++ (diskRow i.disk).toList ++
    (apiRow i).toList ++ (i2cRow i).toList

/-- Faults first. -/
def order (level : String) : Nat :=
  if level = FAULT then 0 else 1

/-- What a fresh sweep claims about its own rows. -/
def sweepCondition (rows : List Row) : String :=
  if rows.any fun row => row.level == FAULT then "hurts"
  else if rows.any fun row => row.level == WARN then "niggle"
  else "well"

/-- The rows, faults first and otherwise in the order of the checks, and the
condition. -/
def evaluate (display : F64 → String) (i : Inputs) : List Row × String :=
  let rows := (checkRows display i).mergeSort fun first second =>
    order first.level ≤ order second.level
  (rows, sweepCondition rows)

theorem mem_evaluate {display : F64 → String} {i : Inputs} {row : Row} :
    row ∈ (evaluate display i).1 ↔ row ∈ checkRows display i :=
  List.mem_mergeSort

/-- Two texts that end on different letters are different. -/
theorem append_ne {front back code : String}
    (ends : back.toList.getLast? ≠ code.toList.getLast?)
    (nonempty : back ≠ "") : front ++ back ≠ code := by
  rintro rfl
  rw [String.toList_append, List.getLast?_append_of_ne_nil] at ends
  · exact ends rfl
  · exact fun nothing => nonempty (String.toList_eq_nil_iff.mp nothing)

theorem unitRow_code {unit : String} {reading : SvcState × Bool} {row : Row}
    (found : unitRow unit reading = some row) :
    row.code = short unit ++ " LOOP" ∨ row.code = "RING STOPPED" ∨
      row.code = short unit ++ " DOWN" := by
  unfold unitRow at found
  split at found
  · cases found
  · rw [← Option.some.inj found]
    exact .inl rfl
  · split at found
    · rw [← Option.some.inj found]
      exact .inr (.inl rfl)
    · rw [← Option.some.inj found]
      exact .inr (.inr rfl)

theorem railRow_code {display : F64 → String} {tempVal : Option F64}
    {throttled : Option UInt64} {row : Row}
    (found : railRow display tempVal throttled = some row) :
    row.code ∈ ["UNDERVOLT", "HOT", "THROTTLED"] := by
  unfold railRow at found
  split at found
  · cases found
  · dsimp only at found
    split at found
    · rw [← Option.some.inj found]
      exact List.mem_cons_self ..
    · split at found
      · rw [← Option.some.inj found]
        dsimp only [Row.withFace]
        split <;> simp
      · cases found

theorem diskRow_code {disk : Option (UInt64 × F64 × F64)} {row : Row}
    (found : diskRow disk = some row) :
    ∃ front, row.code = front ++ "%" := by
  unfold diskRow at found
  split at found
  · cases found
  · split at found
    · rw [← Option.some.inj found]
      exact ⟨_, rfl⟩
    · cases found

theorem apiRow_code {i : Inputs} {row : Row} (found : apiRow i = some row) :
    row.code = "API DEAD" := by
  unfold apiRow at found
  split at found <;> cases found
  rfl

theorem i2cRow_code {i : Inputs} {row : Row} (found : i2cRow i = some row) :
    row.code = "I2C NO DOOR" := by
  unfold i2cRow at found
  split at found <;> cases found
  rfl

/-- Only the check of the buses has a clash. -/
theorem mem_busRows_of_clash {display : F64 → String} {i : Inputs} {row : Row}
    (reported : row ∈ checkRows display i) (clash : row.code = "BUS CLASH") :
    row ∈ busRows i.bus := by
  unfold checkRows at reported
  simp only [List.mem_append, Option.mem_toList] at reported
  rcases reported with
    (((((units | buses) | rails) | sensors) | disk) | door) | i2c
  · obtain ⟨unit, -, found⟩ := List.mem_filterMap.mp units
    rcases unitRow_code found with code | code | code
    · exact absurd (code.symm.trans clash) (append_ne (by decide) (by decide))
    · exact absurd (code.symm.trans clash) (by decide)
    · exact absurd (code.symm.trans clash) (append_ne (by decide) (by decide))
  · exact buses
  · have code := railRow_code rails
    rw [clash] at code
    exact absurd code (by decide)
  · obtain ⟨sensor, -, found⟩ := List.mem_filterMap.mp sensors
    rcases sensorRow_cases found with code | ⟨code, -⟩
    · exact absurd (code.symm.trans clash) (append_ne (by decide) (by decide))
    · exact absurd (code.symm.trans clash) (append_ne (by decide) (by decide))
  · obtain ⟨front, code⟩ := diskRow_code disk
    exact absurd (code.symm.trans clash) (append_ne (by decide) (by decide))
  · exact absurd ((apiRow_code door).symm.trans clash) (by decide)
  · exact absurd ((i2cRow_code i2c).symm.trans clash) (by decide)

/-- A row that calls a clash on this bus. -/
def Clash (bus : String) (row : Row) : Prop :=
  row.code = "BUS CLASH" ∧ (clashText bus).toList <+: row.text.toList

/-- A bus has a clash when it is held and no line of its holders names the
owner. -/
theorem busRow_clash {bus expected : String} {reading : Bool × List String}
    {row : Row} (found : busRow bus expected reading = some row)
    (clash : row.code = "BUS CLASH") :
    ∃ holders, reading = (true, holders) ∧ holders ≠ [] ∧
      (∀ holder ∈ holders, ¬ Names expected holder) ∧
      row.text = clashText bus ++ " | ".intercalate (holders.map trim) := by
  unfold busRow at found
  split at found
  · cases found
  · rename_i holders
    split at found
    · cases found
    · rename_i unnamed
      split at found
      · rename_i held
        refine ⟨holders, rfl, held, ?_, ?_⟩
        · exact fun holder member names => unnamed ⟨holder, member, names⟩
        · rw [← Option.some.inj found]
          rfl
      · rw [← Option.some.inj found] at clash
        exact absurd clash (append_ne (by decide) (by decide))

theorem busRow_of_unnamed {bus expected : String} {holders : List String}
    (held : holders ≠ [])
    (unnamed : ∀ holder ∈ holders, ¬ Names expected holder) :
    ∃ row, busRow bus expected (true, holders) = some row ∧ Clash bus row := by
  have nobody : ¬ ∃ holder ∈ holders, Names expected holder := by
    rintro ⟨holder, member, names⟩
    exact unnamed holder member names
  unfold busRow
  dsimp only
  rw [if_neg nobody, if_pos held]
  refine ⟨_, rfl, rfl, ?_⟩
  dsimp only [Row.new]
  rw [String.toList_append]
  exact List.prefix_append ..

/-- Paths of one length are told apart by the texts of their clashes. -/
theorem bus_eq_of_text {bus node rest : String}
    (length : bus.toList.length = node.toList.length)
    (begins : (clashText bus).toList <+: (clashText node ++ rest).toList) :
    bus = node := by
  obtain ⟨tail, same⟩ := begins
  unfold clashText at same
  simp only [String.toList_append, List.append_assoc] at same
  exact String.toList_injective (List.append_inj_left same length)

theorem length_of_owned :
    ∀ owner ∈ BUS_OWNERS, owner.1.toList.length = 14 := by
  decide

/-- Each bus has one owner. -/
theorem owner_unique :
    ∀ one ∈ BUS_OWNERS, ∀ other ∈ BUS_OWNERS, one.1 = other.1 →
      one.2 = other.2 := by
  decide

/-- A sweep calls a clash on a bus exactly when the node exists, somebody holds
it, and no line of its holders names the owner. -/
theorem clash_iff (display : F64 → String) (i : Inputs) {bus expected : String}
    (owned : (bus, expected) ∈ BUS_OWNERS) :
    (∃ row ∈ (evaluate display i).1, Clash bus row) ↔
      ∃ holders, i.bus.lookup bus = some (true, holders) ∧ holders ≠ [] ∧
        ∀ holder ∈ holders, ¬ Names expected holder := by
  constructor
  · rintro ⟨row, reported, clash, begins⟩
    have called := mem_busRows_of_clash (mem_evaluate.mp reported) clash
    obtain ⟨⟨node, owner⟩, listed, found⟩ := List.mem_filterMap.mp called
    obtain ⟨holders, reading, held, unnamed, text⟩ := busRow_clash found clash
    rw [text] at begins
    obtain rfl := bus_eq_of_text ((length_of_owned _ owned).trans
      (length_of_owned _ listed).symm) begins
    obtain rfl : expected = owner := owner_unique _ owned _ listed rfl
    refine ⟨holders, ?_, held, unnamed⟩
    cases probed : i.bus.lookup bus with
    | none =>
        rw [probed] at reading
        cases reading
    | some probe =>
        rw [probed] at reading
        exact congrArg some reading
  · rintro ⟨holders, probed, held, unnamed⟩
    obtain ⟨row, found, clash⟩ := @busRow_of_unnamed bus _ _ held unnamed
    refine ⟨row, mem_evaluate.mpr ?_, clash⟩
    have called : row ∈ busRows i.bus := by
      refine List.mem_filterMap.mpr ⟨(bus, expected), owned, ?_⟩
      dsimp only
      rw [probed]
      exact found
    unfold checkRows
    simp only [List.mem_append]
    exact .inl (.inl (.inl (.inl (.inl (.inr called)))))

/-- Lines of holders that name the owner and lines that do not, on one bus. -/
def Mixed (i : Inputs) (bus expected : String) : Prop :=
  ∃ holders, i.bus.lookup bus = some (true, holders) ∧
    (∃ holder ∈ holders, Names expected holder) ∧
    ∃ holder ∈ holders, ¬ Names expected holder

/-- A sweep calls a clash on a bus whenever some line of its holders does not
name the owner, exactly where such lines do not stand beside one that does. -/
theorem clash_called_iff (display : F64 → String) (i : Inputs)
    {bus expected : String} (owned : (bus, expected) ∈ BUS_OWNERS) :
    (∀ holders, i.bus.lookup bus = some (true, holders) →
      (∃ holder ∈ holders, ¬ Names expected holder) →
      ∃ row ∈ (evaluate display i).1, Clash bus row) ↔
      ¬ Mixed i bus expected := by
  constructor
  · rintro called ⟨holders, probed, ⟨owner, member, names⟩, other⟩
    obtain ⟨same, again, -, unnamed⟩ :=
      (clash_iff display i owned).mp (called holders probed other)
    rw [probed] at again
    cases again
    exact unnamed owner member names
  · rintro apart holders probed ⟨other, member, unnamed⟩
    refine (clash_iff display i owned).mpr
      ⟨holders, probed, List.ne_nil_of_mem member, ?_⟩
    intro owner held names
    exact apart ⟨holders, probed, ⟨owner, held, names⟩, other, member, unnamed⟩

namespace Vectors

/-- A body at rest, the face's bus held by these lines. -/
def heldBy (holders : List String) : Inputs where
  services := ∅
  bus := (∅ : BusStatus).insert "/dev/spidev0.0" (true, holders)
  disk := none
  sensors := ∅
  throttled := none
  tempVal := none
  cortexState := "active"
  apiListening := true
  apiPort := API_PORT_DEFAULT
  i2cDoor := true
  deviceTree := false
  now := 0

theorem lookup_heldBy (holders : List String) :
    (heldBy holders).bus.lookup "/dev/spidev0.0" = some (true, holders) :=
  AList.lookup_insert _

def owner : String :=
  "/dev/spidev0.0:      flatline     42 F.... loa-oled"

def stranger : String :=
  "/dev/spidev0.0:      root         99 F.... python3"

theorem owner_names : Names "loa-oled" owner := by
  decide

theorem stranger_unnamed : ¬ Names "loa-oled" stranger := by
  decide

/-- The right hand beside a wrong one: nothing is called. -/
theorem clash_missed_two_writers :
    ¬ ∀ (display : F64 → String) (i : Inputs) (bus expected : String),
      (bus, expected) ∈ BUS_OWNERS →
      ∀ holders, i.bus.lookup bus = some (true, holders) →
        (∃ holder ∈ holders, ¬ Names expected holder) →
        ∃ row ∈ (evaluate display i).1, Clash bus row := by
  intro called
  have owned : ("/dev/spidev0.0", "loa-oled") ∈ BUS_OWNERS :=
    List.mem_cons_self ..
  have reported := called (fun _ => "") (heldBy [owner, stranger]) _ _ owned _
    (lookup_heldBy _)
    ⟨stranger, List.mem_cons_of_mem _ (List.mem_singleton_self _),
      stranger_unnamed⟩
  obtain ⟨holders, probed, -, unnamed⟩ := (clash_iff _ _ owned).mp reported
  rw [lookup_heldBy] at probed
  cases probed
  exact unnamed owner (List.mem_cons_self ..) owner_names

/-- A wrong hand alone is called. -/
theorem clash_called_iff_stranger :
    ∃ row ∈ (evaluate (fun _ => "") (heldBy [stranger])).1,
      Clash "/dev/spidev0.0" row := by
  have owned : ("/dev/spidev0.0", "loa-oled") ∈ BUS_OWNERS :=
    List.mem_cons_self ..
  refine (clash_called_iff (fun _ => "") (heldBy [stranger]) owned).mpr ?_ _
    (lookup_heldBy _) ⟨stranger, List.mem_singleton_self _, stranger_unnamed⟩
  rintro ⟨holders, probed, ⟨holder, member, names⟩, -⟩
  rw [lookup_heldBy] at probed
  cases probed
  rw [List.mem_singleton.mp member] at names
  exact stranger_unnamed names

end Vectors

end FaultDaemon
