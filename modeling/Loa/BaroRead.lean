import Loa.BaroCompensation
import Loa.OperationProgram
import Loa.RustText

/-!
# A read of the pressure sensor

One read is a program of calls to the bus: open the device, fetch the
calibration once, ask for the two raw values, compensate.  A bus may refuse any
call; a read that it answers has as many bytes as were asked for.  Up to the
compensation no read can panic, so that a read panics exactly where the bytes
that the bus returned make the compensation panic.
-/

open RustText

/-- The driver: the device, the address of the sensor on it, and the calibration
once it has been read. -/
structure Baro where
  path : String
  addr : Int32
  cal : Option Cal

namespace Baro

open Program
open I64 (Build Within)

/-- The calls to the bus. -/
inductive Op
  | openDevice (path : String)
  | slave (addr : Int32)
  | writeAll (bytes : Bytes)
  | readExact (count : Nat)
  | sleep (millis : Nat)

/-- What each call answers; `slave` whether the address was taken. -/
abbrev Reply : Op → Type
  | .openDevice _ | .writeAll _ => Except String Unit
  | .slave _ => Bool
  | .readExact count => Except String { bytes : Bytes // bytes.length = count }
  | .sleep _ => Unit

/-- A program of the driver: it may stop with an error, and may panic. -/
abbrev Reading (α : Type) :=
  ExceptT String (StateT Baro (OptionT (Program Op Reply))) α

def call (op : Op) : Reading (Reply op) :=
  ExceptT.lift (StateT.lift (OptionT.lift (perform op)))

/-- A computation that may panic. -/
def orPanic {α : Type} (value : Option α) : Reading α :=
  ExceptT.lift (StateT.lift (OptionT.mk (pure value)))

def MEAS_WAIT : Nat := 5

def openBus (bus : Int) (addr : Int32) : Baro where
  path := "/dev/i2c-" ++ toString bus
  addr := addr
  cal := none

/-- Two lower-case hexadecimal digits, or more. -/
def hex2 (addr : Int32) : String :=
  let digits := Nat.toDigits 16 addr.toUInt32.toNat
  String.ofList (List.replicate (2 - digits.length) '0' ++ digits)

def device : Reading Unit := do
  let baro ← get
  match ← call (.openDevice baro.path) with
  | .error error => throw (baro.path ++ ": " ++ error)
  | .ok () =>
      if ← call (.slave baro.addr) then pure ()
      else
        throw (baro.path ++ ": I2C_SLAVE 0x" ++ hex2 baro.addr ++ " refused")

def writeReg (reg val : UInt8) : Reading Unit := do
  match ← call (.writeAll [reg, val]) with
  | .error error => throw error
  | .ok () => pure ()

def readReg (reg : UInt8) (count : Nat) :
    Reading { bytes : Bytes // bytes.length = count } := do
  match ← call (.writeAll [reg]) with
  | .error error => throw error
  | .ok () =>
      match ← call (.readExact count) with
      | .error error => throw error
      | .ok bytes => pure bytes

/-- `u16::from_be_bytes` of two bytes; nothing where the index panics. -/
def unsigned (bytes : Bytes) (index : Nat) : Option UInt16 := do
  let high ← bytes[index]?
  let low ← bytes[index + 1]?
  pure ((high.toUInt16 <<< 8) ||| low.toUInt16)

/-- `i16::from_be_bytes`. -/
def signed (bytes : Bytes) (index : Nat) : Option Int16 :=
  (unsigned bytes index).map UInt16.toInt16

/-- The eleven words of the calibration. -/
def words (d : Bytes) : Option Cal := do
  pure
    { ac1 := ← signed d 0
      ac2 := ← signed d 2
      ac3 := ← signed d 4
      ac4 := ← unsigned d 6
      ac5 := ← unsigned d 8
      ac6 := ← unsigned d 10
      b1 := ← signed d 12
      b2 := ← signed d 14
      mb := ← signed d 16
      mc := ← signed d 18
      md := ← signed d 20 }

/-- The raw pressure of three bytes. -/
def rawPressure (raw : Bytes) : Option Int := do
  let first ← raw[0]?
  let second ← raw[1]?
  let third ← raw[2]?
  pure ((((first.toNat <<< 16) ||| (second.toNat <<< 8) ||| third.toNat) >>> 8 :
    Nat) : Int)

/-- The calibration, from the sensor the first time. -/
def loadCal : Reading Cal := do
  match (← get).cal with
  | some cal => pure cal
  | none =>
      let d ← readReg 0xAA 22
      if d.val.length ≠ 22 then
        throw ("calibration short: " ++ toString d.val.length ++ " bytes")
      else
        let cal ← orPanic (words d.val)
        modify fun baro => { baro with cal := some cal }
        pure cal

/-- One reading. -/
def read (build : Build) : Reading (F64 × F64) := do
  device
  let cal ← loadCal
  writeReg 0xF4 0x2E
  call (.sleep MEAS_WAIT)
  let t ← readReg 0xF6 2
  let ut ← orPanic (unsigned t.val 0)
  writeReg 0xF4 0x34
  call (.sleep MEAS_WAIT)
  let raw ← readReg 0xF6 3
  let up ← orPanic (rawPressure raw.val)
  orPanic (compensate build cal ut.toNat up)

/-- What a read hands to the compensation. -/
def sample : Reading (Cal × UInt16 × Int) := do
  device
  let cal ← loadCal
  writeReg 0xF4 0x2E
  call (.sleep MEAS_WAIT)
  let t ← readReg 0xF6 2
  let ut ← orPanic (unsigned t.val 0)
  writeReg 0xF4 0x34
  call (.sleep MEAS_WAIT)
  let raw ← readReg 0xF6 3
  let up ← orPanic (rawPressure raw.val)
  pure (cal, ut, up)

theorem read_eq (build : Build) :
    read build = sample >>= fun sampled =>
      orPanic (compensate build sampled.1 sampled.2.1.toNat sampled.2.2) := by
  unfold read sample
  simp only [LawfulMonad.bind_assoc, LawfulMonad.pure_bind]

/-- The outcome of a program on a bus, with the driver it leaves; nothing after
a panic. -/
def outcome {α World : Type} (machine : (op : Op) → World → Reply op × World)
    (program : Reading α) (baro : Baro) (world : World) :
    Option (Except String α × Baro) × World :=
  run machine (program.run.run baro).run world

/-- On every bus the program ends, with an error or with a value that meets the
condition. -/
def Yields {α : Type} (met : α → Prop) (program : Reading α) : Prop :=
  ∀ (World : Type) (machine : (op : Op) → World → Reply op × World) baro world,
    ∃ result after, (outcome machine program baro world).1 =
        some (result, after) ∧
      ∀ value, result = .ok value → met value

section Yields

variable {α β : Type} {met : α → Prop}

theorem outcome_bind {World : Type}
    (machine : (op : Op) → World → Reply op × World) (program : Reading α)
    (next : α → Reading β) (baro : Baro) (world : World) :
    outcome machine (program >>= next) baro world =
      match outcome machine program baro world with
      | (some (.ok value, after), left) =>
          outcome machine (next value) after left
      | (some (.error error, after), left) => (some (.error error, after), left)
      | (none, left) => (none, left) := by
  unfold outcome
  rw [ExceptT.run_bind, StateT.run_bind, OptionT.run_bind, Option.elimM,
    run_bind]
  rcases run machine (program.run.run baro).run world with
    ⟨_ | ⟨_ | _, after⟩, left⟩ <;> rfl

theorem yields_bind {program : Reading α} {next : α → Reading β}
    {wanted : β → Prop} (first : Yields met program)
    (second : ∀ value, met value → Yields wanted (next value)) :
    Yields wanted (program >>= next) := by
  intro World machine baro world
  obtain ⟨result, after, ended, meets⟩ := first World machine baro world
  rw [outcome_bind]
  rcases reached : outcome machine program baro world with ⟨_, left⟩
  rw [reached] at ended
  cases ended
  cases result with
  | ok value => exact second value (meets value rfl) World machine after left
  | error error => exact ⟨_, _, rfl, fun _ impossible => by cases impossible⟩

theorem yields_pure {value : α} (meets : met value) :
    Yields met (pure value) :=
  fun _ _ _ _ => ⟨_, _, rfl, fun _ same => by cases same; exact meets⟩

theorem yields_throw (error : String) :
    Yields met (throw error : Reading α) :=
  fun _ _ _ _ => ⟨_, _, rfl, fun _ impossible => by cases impossible⟩

theorem yields_get : Yields (fun _ : Baro => True) (get : Reading Baro) :=
  fun _ _ _ _ => ⟨_, _, rfl, fun _ _ => trivial⟩

theorem yields_modify (change : Baro → Baro) :
    Yields (fun _ : Unit => True) (modify change : Reading Unit) :=
  fun _ _ _ _ => ⟨_, _, rfl, fun _ _ => trivial⟩

theorem yields_call (op : Op) : Yields (fun _ => True) (call op) :=
  fun _ _ _ _ => ⟨_, _, rfl, fun _ _ => trivial⟩

theorem yields_orPanic {value : α} (meets : met value) :
    Yields met (orPanic (some value)) :=
  fun _ _ _ _ => ⟨_, _, rfl, fun _ same => by cases same; exact meets⟩

theorem yields_device : Yields (fun _ => True) device := by
  apply yields_bind yields_get
  intro baro _
  apply yields_bind (yields_call (.openDevice baro.path))
  intro opened _
  cases opened with
  | error error => exact yields_throw _
  | ok done =>
      apply yields_bind (yields_call (.slave baro.addr))
      intro taken _
      cases taken with
      | true => exact yields_pure trivial
      | false => exact yields_throw _

theorem yields_writeReg (reg val : UInt8) :
    Yields (fun _ => True) (writeReg reg val) := by
  apply yields_bind (yields_call (.writeAll [reg, val]))
  intro written _
  cases written with
  | error error => exact yields_throw _
  | ok done => exact yields_pure trivial

theorem yields_readReg (reg : UInt8) (count : Nat) :
    Yields (fun _ => True) (readReg reg count) := by
  apply yields_bind (yields_call (.writeAll [reg]))
  intro written _
  cases written with
  | error error => exact yields_throw _
  | ok done =>
      apply yields_bind (yields_call (.readExact count))
      intro read _
      cases read with
      | error error => exact yields_throw _
      | ok bytes => exact yields_pure trivial

end Yields

theorem exists_unsigned {bytes : Bytes} {index : Nat}
    (inside : index + 1 < bytes.length) :
    ∃ word, unsigned bytes index = some word := by
  unfold unsigned
  rw [List.getElem?_eq_getElem (by omega), List.getElem?_eq_getElem inside]
  exact ⟨_, rfl⟩

theorem exists_signed {bytes : Bytes} {index : Nat}
    (inside : index + 1 < bytes.length) :
    ∃ word, signed bytes index = some word := by
  obtain ⟨word, found⟩ := exists_unsigned inside
  exact ⟨word.toInt16, by rw [signed, found, Option.map_some]⟩

/-- Twenty-two bytes hold a calibration. -/
theorem exists_words {d : Bytes} (size : d.length = 22) :
    ∃ cal, words d = some cal := by
  have unsignedAt (index : Nat) (inside : index < 21) :
      ∃ word, unsigned d index = some word :=
    exists_unsigned (by omega)
  have signedAt (index : Nat) (inside : index < 21) :
      ∃ word, signed d index = some word :=
    exists_signed (by omega)
  obtain ⟨ac1, atAc1⟩ := signedAt 0 (by omega)
  obtain ⟨ac2, atAc2⟩ := signedAt 2 (by omega)
  obtain ⟨ac3, atAc3⟩ := signedAt 4 (by omega)
  obtain ⟨ac4, atAc4⟩ := unsignedAt 6 (by omega)
  obtain ⟨ac5, atAc5⟩ := unsignedAt 8 (by omega)
  obtain ⟨ac6, atAc6⟩ := unsignedAt 10 (by omega)
  obtain ⟨b1, atB1⟩ := signedAt 12 (by omega)
  obtain ⟨b2, atB2⟩ := signedAt 14 (by omega)
  obtain ⟨mb, atMb⟩ := signedAt 16 (by omega)
  obtain ⟨mc, atMc⟩ := signedAt 18 (by omega)
  obtain ⟨md, atMd⟩ := signedAt 20 (by omega)
  unfold words
  rw [atAc1, atAc2, atAc3, atAc4, atAc5, atAc6, atB1, atB2, atMb, atMc, atMd]
  exact ⟨_, rfl⟩

/-- Three bytes hold a raw pressure of sixteen bits. -/
theorem exists_rawPressure {raw : Bytes} (size : raw.length = 3) :
    ∃ up, rawPressure raw = some up ∧ Within 65535 up := by
  match raw, size with
  | [first, second, third], _ =>
      refine ⟨_, rfl, ?_⟩
      have firstSmall := first.toNat_lt
      have secondSmall := second.toNat_lt
      have thirdSmall := third.toNat_lt
      have joined : (first.toNat <<< 16) ||| (second.toNat <<< 8) |||
          third.toNat < 2 ^ 24 := by
        refine Nat.or_lt_two_pow (Nat.or_lt_two_pow ?_ ?_) (by omega)
        · rw [Nat.shiftLeft_eq]
          omega
        · rw [Nat.shiftLeft_eq]
          omega
      unfold Within
      rw [Int.natAbs_natCast, Nat.shiftRight_eq_div_pow]
      omega

theorem yields_loadCal : Yields (fun _ => True) loadCal := by
  apply yields_bind yields_get
  intro baro _
  cases baro.cal with
  | some cal => exact yields_pure trivial
  | none =>
      apply yields_bind (yields_readReg 0xAA 22)
      intro d _
      obtain ⟨cal, held⟩ := exists_words d.property
      rw [if_neg (not_not.mpr d.property), held]
      apply yields_bind (@yields_orPanic _ (fun _ => True) _ trivial)
      intro cal _
      apply yields_bind (yields_modify _)
      intro _ _
      exact yields_pure trivial

/-- Up to the compensation no read panics, and the raw pressure has sixteen
bits. -/
theorem yields_sample :
    Yields (fun sampled => Within 65535 sampled.2.2) sample := by
  apply yields_bind yields_device
  intro _ _
  apply yields_bind yields_loadCal
  intro cal _
  apply yields_bind (yields_writeReg 0xF4 0x2E)
  intro _ _
  apply yields_bind (yields_call (.sleep MEAS_WAIT))
  intro _ _
  apply yields_bind (yields_readReg 0xF6 2)
  intro t _
  obtain ⟨ut, heldTemp⟩ := @exists_unsigned t.val 0 (by rw [t.property]; omega)
  rw [heldTemp]
  apply yields_bind (@yields_orPanic _ (fun _ => True) _ trivial)
  intro ut _
  apply yields_bind (yields_writeReg 0xF4 0x34)
  intro _ _
  apply yields_bind (yields_call (.sleep MEAS_WAIT))
  intro _ _
  apply yields_bind (yields_readReg 0xF6 3)
  intro raw _
  obtain ⟨up, heldPressure, within⟩ := exists_rawPressure raw.property
  rw [heldPressure]
  apply yields_bind (yields_orPanic within)
  intro up within
  exact yields_pure within

/-- The divisors of the formula are not zero, and the square of the uncorrected
pressure, times 3038, is below `2 ^ 63`. -/
structure Sound (cal : Cal) (ut up : Int) : Prop where
  first : divisor cal ut ≠ 0
  second : b4 cal (b5 (· / ·) cal ut - 4000) ≠ 0
  narrow : Narrow (pressure (· / ·) cal up (b5 (· / ·) cal ut - 4000))

/-- The compensation with every operation checked returns exactly for these
inputs. -/
theorem compensate_debug_isSome {cal : Cal} {ut up : Int}
    (rawTemp : Within 65535 ut) (rawPressure : Within 65535 up) :
    (compensate .debug cal ut up).isSome ↔ Sound cal ut up := by
  rw [compensate_eq rawTemp rawPressure]
  by_cases zero : divisor cal ut = 0
  · rw [if_pos zero]
    exact iff_of_false Bool.false_ne_true fun sound => sound.first zero
  by_cases stuck : b4 cal (b5 (· / ·) cal ut - 4000) = 0
  · rw [if_neg zero, if_pos stuck]
    exact iff_of_false Bool.false_ne_true fun sound => sound.second stuck
  rw [if_neg zero, if_neg stuck, Option.isSome_map]
  by_cases narrow : Narrow (pressure (· / ·) cal up (b5 (· / ·) cal ut - 4000))
  · rw [correct_of_narrow narrow]
    exact iff_of_true rfl ⟨zero, stuck, narrow⟩
  · rw [correct_debug_of_wide narrow]
    exact iff_of_false Bool.false_ne_true fun sound => narrow sound.narrow

/-- A bus that refuses nothing and answers with these bytes. -/
def answering (bytes : (count : Nat) → { bytes : Bytes // bytes.length = count }) :
    (op : Op) → Unit → Reply op × Unit
  | .openDevice _, bus => (.ok (), bus)
  | .slave _, bus => (true, bus)
  | .writeAll _, bus => (.ok (), bus)
  | .readExact count, bus => (.ok (bytes count), bus)
  | .sleep _, bus => ((), bus)

theorem outcome_orPanic {α World : Type}
    (machine : (op : Op) → World → Reply op × World) (value : Option α)
    (baro : Baro) (world : World) :
    outcome machine (orPanic value) baro world =
      (value.map fun value => (.ok value, baro), world) := by
  cases value <;> rfl

/-- What such a bus hands to the compensation. -/
theorem outcome_sample_answering
    (bytes : (count : Nat) → { bytes : Bytes // bytes.length = count })
    (bus : Int) (addr : Int32) :
    ∃ cal ut up after, words (bytes 22) = some cal ∧
      unsigned (bytes 2) 0 = some ut ∧ rawPressure (bytes 3) = some up ∧
      (outcome (answering bytes) sample (openBus bus addr) ()).1 =
        some (.ok (cal, ut, up), after) := by
  obtain ⟨cal, heldCal⟩ := exists_words (bytes 22).property
  obtain ⟨ut, heldTemp⟩ := @exists_unsigned (bytes 2).val 0
    (by rw [(bytes 2).property]; omega)
  obtain ⟨up, heldPressure, -⟩ := exists_rawPressure (bytes 3).property
  let loaded : Baro := { openBus bus addr with cal := some cal }
  refine ⟨cal, ut, up, loaded, heldCal, heldTemp, heldPressure, ?_⟩
  have opened (baro : Baro) : outcome (answering bytes) device baro () =
      (some (.ok (), baro), ()) := rfl
  have writing (reg val : UInt8) (baro : Baro) :
      outcome (answering bytes) (writeReg reg val) baro () =
        (some (.ok (), baro), ()) := rfl
  have reading (reg : UInt8) (count : Nat) (baro : Baro) :
      outcome (answering bytes) (readReg reg count) baro () =
        (some (.ok (bytes count), baro), ()) := rfl
  have sleeping (baro : Baro) :
      outcome (answering bytes) (call (.sleep MEAS_WAIT)) baro () =
        (some (.ok (), baro), ()) := rfl
  have loading : outcome (answering bytes) loadCal (openBus bus addr) () =
      (some (.ok cal, loaded), ()) := by
    change outcome (answering bytes) (readReg 0xAA 22 >>= fun _ => _)
      (openBus bus addr) () = _
    rw [outcome_bind, reading]
    dsimp only
    rw [if_neg (not_not.mpr (bytes 22).property), heldCal]
    rfl
  unfold sample
  simp only [outcome_bind, opened, loading, writing, reading, sleeping,
    heldTemp, heldPressure, outcome_orPanic, Option.map_some]
  rfl

/-- On any bus a read returns exactly when what it sampled, if it sampled, is
sound. -/
theorem isSome_read_iff {World : Type}
    (machine : (op : Op) → World → Reply op × World) (baro : Baro)
    (world : World) :
    (outcome machine (read .debug) baro world).1.isSome ↔
      ∀ cal ut up after,
        (outcome machine sample baro world).1 =
          some (.ok (cal, ut, up), after) →
        Sound cal ut.toNat up := by
  obtain ⟨result, left, ended, sampled⟩ :=
    yields_sample World machine baro world
  rw [read_eq, outcome_bind]
  rcases reached : outcome machine sample baro world with ⟨_, after⟩
  rw [reached] at ended
  cases ended
  cases result with
  | error error =>
      refine iff_of_true rfl ?_
      intro cal ut up after impossible
      cases impossible
  | ok value =>
      obtain ⟨cal, ut, up⟩ := value
      have checked := @compensate_debug_isSome cal _ _
        (within_unsigned ut) (sampled _ rfl)
      dsimp only
      rw [outcome_orPanic, Option.isSome_map, checked]
      constructor
      · intro sound cal ut up after same
        cases same
        exact sound
      · intro every
        exact every cal ut up left rfl

/-- A read returns a reading or an error exactly when what it hands to the
compensation is sound; on a bus that answers, when the bytes of the answers
are. -/
theorem read_returns_iff {World : Type}
    (machine : (op : Op) → World → Reply op × World) (baro : Baro)
    (world : World)
    (bytes : (count : Nat) → { bytes : Bytes // bytes.length = count })
    (bus : Int) (addr : Int32) :
    ((outcome machine (read .debug) baro world).1.isSome ↔
      ∀ cal ut up after,
        (outcome machine sample baro world).1 =
          some (.ok (cal, ut, up), after) →
        Sound cal ut.toNat up) ∧
    ∃ cal ut up, words (bytes 22) = some cal ∧
      unsigned (bytes 2) 0 = some ut ∧ rawPressure (bytes 3) = some up ∧
      ((outcome (answering bytes) (read .debug) (openBus bus addr) ()).1.isSome ↔
        Sound cal ut.toNat up) := by
  refine ⟨isSome_read_iff machine baro world, ?_⟩
  obtain ⟨cal, ut, up, after, heldCal, heldTemp, heldPressure, sampled⟩ :=
    outcome_sample_answering bytes bus addr
  refine ⟨cal, ut, up, heldCal, heldTemp, heldPressure, ?_⟩
  rw [isSome_read_iff, sampled]
  constructor
  · intro every
    exact every cal ut up after rfl
  · intro sound cal ut up after same
    cases same
    exact sound

namespace Vectors

/-- A bus whose every byte is zero: the first divisor is zero, and the read
panics in every build. -/
theorem read_zeros_panics :
    ¬ ∀ (build : Build)
        (bytes : (count : Nat) → { bytes : Bytes // bytes.length = count }),
      (outcome (answering bytes) (read build) (openBus 1 0x77) ()).1.isSome := by
  intro always
  have returned := always .release
    fun count => ⟨List.replicate count 0, List.length_replicate⟩
  have panicked : (outcome (answering fun count =>
      ⟨List.replicate count 0, List.length_replicate⟩) (read .release)
        (openBus 1 0x77) ()).1.isSome = false := rfl
  rw [panicked] at returned
  cases returned

end Vectors

end Baro
