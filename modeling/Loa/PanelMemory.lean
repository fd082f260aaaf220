import Loa.FrameBits
import Loa.LayeredWrites
import Loa.OledPanel
import Loa.PointerMemory

/-!
# The memory of the panel

The driver again, now with the memory of the panel behind its registers.  A frame
goes there page by page, each behind the address of its page, and covers what was
shown as far as it was sent.
-/

namespace Oled

open LayeredWrites TransitionRun

/-- A controller with 132 columns: the column of the pointer moves on by itself
up to the last one. -/
structure Display extends Controller where
  advance : Nat → Nat
  advances : ∀ column < 131, advance column = column + 1

/-- Cells by page and column. -/
abbrev Memory := PointerMemory (Nat × Nat) UInt8

def Display.next (display : Display) (address : Nat × Nat) : Nat × Nat :=
  (address.1, display.advance address.2)

namespace Memory

/-- The commands that move the pointer: the two halves of a column, and a page. -/
def aim (memory : Memory) (byte : UInt8) : Memory :=
  { memory with
    pointer :=
      if byte ≤ 0x0F then
        (memory.pointer.1, memory.pointer.2 / 16 * 16 + byte.toNat)
      else if byte ≤ 0x1F then
        (memory.pointer.1, (byte.toNat - 0x10) * 16 + memory.pointer.2 % 16)
      else if 0xB0 ≤ byte ∧ byte ≤ 0xB7 then
        (byte.toNat - 0xB0, memory.pointer.2)
      else memory.pointer }

@[simp]
theorem aim_cells (memory : Memory) (byte : UInt8) :
    (memory.aim byte).cells = memory.cells :=
  rfl

/-- The cells behind the glass, which begins at the third column, page behind
page. -/
def shown (memory : Memory) (cell : Nat) : UInt8 :=
  memory.cells (cell / WIDTH, 2 + cell % WIDTH)

end Memory

/-- A byte of a command, for the registers and for the pointer. -/
def obey (display : Display) (state : Panel × Memory) (byte : UInt8) :
    Panel × Memory :=
  (state.1.command display.toController byte,
    if state.1.pending.isSome ∨ display.wide byte then state.2
    else state.2.aim byte)

/-- A bench and the memory of its panel. -/
structure Station where
  bench : Bench
  memory : Memory

namespace Station

variable (display : Display)

def deliver (station : Station) (bytes : Bytes) : Station where
  bench := station.bench.deliver display.toController bytes
  memory :=
    if ¬ station.bench.lines.res then station.memory
    else if station.bench.lines.dc then
      station.memory.stream display.next bytes
    else (bytes.foldl (obey display) (station.bench.panel, station.memory)).2

/-- `Lgpio::set`; a reset takes the pointer back and leaves the cells. -/
def set (pin : Pin) (level : Bool) (station : Station) (answers : List Answer) :
    Option (Station × List Answer) :=
  (station.bench.set pin level answers).map fun (bench, answers) =>
    ({ bench
       memory :=
        if bench.lines.res then station.memory
        else { station.memory with pointer := (0, 0) } }, answers)

def writeAll (bytes : Bytes) (station : Station) :
    List Answer → Option (Bool × Station × List Answer)
  | .sent :: rest => some (true, station.deliver display bytes, rest)
  | .cut delivered :: rest =>
      some (false, station.deliver display (bytes.take delivered), rest)
  | _ => none

def cmd (bytes : Bytes) (station : Station) (answers : List Answer) :
    Option (Bool × Station × List Answer) :=
  (station.set .dc false answers).bind fun (station, answers) =>
    station.writeAll display bytes answers

def data (bytes : Bytes) (station : Station) (answers : List Answer) :
    Option (Bool × Station × List Answer) :=
  (station.set .dc true answers).bind fun (station, answers) =>
    station.writeAll display bytes answers

/-- Go on only where the last write returned without an error. -/
def andThen
    (next : Station → List Answer → Option (Bool × Station × List Answer)) :
    Bool × Station × List Answer → Option (Bool × Station × List Answer)
  | (true, station, answers) => next station answers
  | (false, station, answers) => some (false, station, answers)

def cmds : Bytes → Station → List Answer → Option (Bool × Station × List Answer)
  | [], station, answers => some (true, station, answers)
  | code :: codes, station, answers =>
      (station.cmd display [code] answers).bind (andThen (cmds codes))

def showFrom (buf : Bytes) :
    List Nat → Station → List Answer → Option (Bool × Station × List Answer)
  | [], station, answers => some (true, station, answers)
  | page :: pages, station, answers =>
      (station.cmd display [0xB0 ||| UInt8.ofNat page, 0x02, 0x10] answers).bind
        (andThen fun station answers =>
          (station.data display ((buf.drop (page * WIDTH)).take WIDTH)
            answers).bind (andThen (showFrom buf pages)))

def showFrame (buf : Bytes) (station : Station) (answers : List Answer) :
    Option (Bool × Station × List Answer) :=
  station.showFrom display buf (List.range PANEL_PAGES) answers

def clear (station : Station) (answers : List Answer) :
    Option (Bool × Station × List Answer) :=
  station.showFrame display (List.replicate (WIDTH * PANEL_PAGES) 0) answers

def setFlip (flipped : Bool) (station : Station) (answers : List Answer) :
    Option (Bool × Station × List Answer) :=
  if station.bench.driver.flip = some flipped then
    some (true, { station with
      bench := station.bench.skip (.flip flipped station.bench.panel.segment
        station.bench.panel.com) }, answers)
  else
    (station.cmds display (if flipped then FLIP_ON else FLIP_OFF) answers).bind
      (andThen fun station answers => some (true, { station with
        bench := { station.bench with
          driver := { station.bench.driver with flip := some flipped } } },
        answers))

def setContrast (val : Int) (station : Station) (answers : List Answer) :
    Option (Bool × Station × List Answer) :=
  let v := UInt8.ofNat (max 0 (min val 255)).toNat
  if station.bench.driver.contrast = v.toNat then
    some (true, { station with
      bench := station.bench.skip
        (.contrast v.toNat station.bench.panel.contrast) }, answers)
  else
    (station.cmd display [0x81, v] answers).bind
      (andThen fun station answers => some (true, { station with
        bench := { station.bench with
          driver := { station.bench.driver with contrast := v.toNat } } },
        answers))

/-- `Oled::open` from the claimed lines on, over whatever the memory has. -/
def openPanel (panel : Panel) (memory : Memory) (answers : List Answer) :
    Option (Bool × Station × List Answer) :=
  (set .res false ⟨Bench.claimed panel, memory⟩ answers).bind
    fun (station, answers) =>
      (station.set .res true answers).bind fun (station, answers) =>
        (station.cmds display INIT answers).bind
          (andThen fun station answers =>
            station.setFlip display false answers)

/-- What is left without the memory. -/
def forget (result : Bool × Station × List Answer) :
    Bool × Bench × List Answer :=
  (result.1, result.2.1.bench, result.2.2)

/-- A call does to the registers, and to what the driver remembers, what it does
without a memory. -/
def Refines
    (call : Station → List Answer → Option (Bool × Station × List Answer))
    (plain : Bench → List Answer → Option (Bool × Bench × List Answer)) : Prop :=
  ∀ station answers,
    (call station answers).map forget = plain station.bench answers

variable {display}

theorem Refines.andThen
    {first second :
      Station → List Answer → Option (Bool × Station × List Answer)}
    {plain other : Bench → List Answer → Option (Bool × Bench × List Answer)}
    (front : Refines first plain) (back : Refines second other) :
    Refines (fun station answers =>
        (first station answers).bind (Station.andThen second))
      fun bench answers => (plain bench answers).bind (Bench.andThen other) := by
  intro station answers
  dsimp only
  rw [← front station answers, Option.map_bind, Option.bind_map]
  congr 1
  funext result
  obtain ⟨ok, after, rest⟩ := result
  cases ok with
  | false => rfl
  | true => exact back after rest

theorem writeAll_refines (bytes : Bytes) :
    Refines (writeAll display bytes)
      (Bench.writeAll display.toController bytes) := by
  intro station answers
  match answers with
  | [] => rfl
  | .level _ :: _ => rfl
  | .sent :: _ => rfl
  | .cut _ :: _ => rfl

theorem cmd_refines (bytes : Bytes) :
    Refines (cmd display bytes) (Bench.cmd display.toController bytes) := by
  intro station answers
  unfold cmd set Bench.cmd
  rw [Option.map_bind, Option.bind_map]
  congr 1
  funext lowered
  exact writeAll_refines bytes _ _

theorem data_refines (bytes : Bytes) :
    Refines (data display bytes) (Bench.data display.toController bytes) := by
  intro station answers
  unfold data set Bench.data
  rw [Option.map_bind, Option.bind_map]
  congr 1
  funext raised
  exact writeAll_refines bytes _ _

theorem cmds_refines (codes : Bytes) :
    Refines (cmds display codes) (Bench.cmds display.toController codes) := by
  induction codes with
  | nil => exact fun _ _ => rfl
  | cons code codes induction => exact (cmd_refines [code]).andThen induction

theorem showFrom_refines (buf : Bytes) (pages : List Nat) :
    Refines (showFrom display buf pages)
      (Bench.showFrom display.toController buf pages) := by
  induction pages with
  | nil => exact fun _ _ => rfl
  | cons page pages induction =>
      exact (cmd_refines _).andThen ((data_refines _).andThen induction)

theorem setFlip_refines (flipped : Bool) :
    Refines (setFlip display flipped)
      (Bench.setFlip display.toController flipped) := by
  intro station answers
  unfold setFlip Bench.setFlip
  split_ifs with remembered
  · rfl
  all_goals
    exact (cmds_refines _).andThen (fun _ _ => rfl) station answers

theorem setContrast_refines (val : Int) :
    Refines (setContrast display val)
      (Bench.setContrast display.toController val) := by
  intro station answers
  unfold setContrast Bench.setContrast
  dsimp only
  split_ifs with remembered
  · rfl
  · exact (cmd_refines _).andThen (fun _ _ => rfl) station answers

theorem openPanel_refines (panel : Panel) (memory : Memory)
    (answers : List Answer) :
    (openPanel display panel memory answers).map forget =
      Bench.openPanel display.toController panel answers := by
  unfold openPanel Bench.openPanel set
  rw [Option.map_bind, Option.bind_map]
  congr 1
  funext fallen
  dsimp only [Function.comp_apply]
  rw [Option.map_bind, Option.bind_map]
  congr 1
  funext risen
  exact (cmds_refines INIT).andThen (setFlip_refines false) _ _

/-- What a call with the memory returned is what it returns without. -/
theorem Refines.ran
    {call : Station → List Answer → Option (Bool × Station × List Answer)}
    {plain : Bench → List Answer → Option (Bool × Bench × List Answer)}
    (refines : Refines call plain) {station after : Station} {ok : Bool}
    {answers rest : List Answer}
    (ran : call station answers = some (ok, after, rest)) :
    plain station.bench answers = some (ok, after.bench, rest) := by
  rw [← refines station answers, ran]
  rfl

variable {station after : Station} {ok : Bool} {answers rest : List Answer}

theorem obey_cells (codes : Bytes) (panel : Panel) (memory : Memory) :
    (codes.foldl (obey display) (panel, memory)).2.cells = memory.cells := by
  induction codes generalizing panel memory with
  | nil => rfl
  | cons code codes induction =>
      rw [List.foldl_cons, obey, induction]
      split_ifs <;> rfl

/-- Commands without an argument that leave the registers alone move the pointer
alone. -/
theorem obey_inert {codes : Bytes} {panel : Panel}
    (narrow : ∀ code ∈ codes, display.wide code = false)
    (inert : ∀ code ∈ codes, Bench.Inert display.toController code)
    (idle : panel.pending = none) (memory : Memory) :
    codes.foldl (obey display) (panel, memory) =
      (panel, codes.foldl Memory.aim memory) := by
  induction codes generalizing memory with
  | nil => rfl
  | cons code codes induction =>
      have first : obey display (panel, memory) code =
          (panel, memory.aim code) := by
        unfold obey
        dsimp only
        rw [inert code List.mem_cons_self panel idle, idle,
          narrow code List.mem_cons_self, if_neg (by simp)]
      rw [List.foldl_cons, first, List.foldl_cons]
      exact induction
        (fun other member => narrow other (List.mem_cons_of_mem _ member))
        (fun other member => inert other (List.mem_cons_of_mem _ member)) _

theorem narrow_address {page : Nat} (bound : page < PANEL_PAGES) :
    ∀ code ∈ ([0xB0 ||| UInt8.ofNat page, 0x02, 0x10] : Bytes),
      display.wide code = false := by
  have listed : ∀ page < PANEL_PAGES,
      ([0xB0 ||| UInt8.ofNat page, 0x02, 0x10] : Bytes).all (fun code =>
        decide (code ∈ NARROW)) = true := by
    decide
  exact fun code member => display.narrow code
    (of_decide_eq_true (List.all_eq_true.mp (listed page bound) code member))

theorem aim_page {page : Nat} (bound : page < PANEL_PAGES) (memory : Memory) :
    (memory.aim (0xB0 ||| UInt8.ofNat page)).pointer =
      (page, memory.pointer.2) := by
  have number : ∀ page < PANEL_PAGES,
      ¬ (0xB0 ||| UInt8.ofNat page) ≤ 0x0F ∧
        ¬ (0xB0 ||| UInt8.ofNat page) ≤ 0x1F ∧
        (0xB0 ≤ (0xB0 ||| UInt8.ofNat page) ∧
          (0xB0 ||| UInt8.ofNat page) ≤ 0xB7) ∧
        (0xB0 ||| UInt8.ofNat page).toNat - 0xB0 = page := by
    decide
  obtain ⟨notLow, notHigh, isPage, same⟩ := number page bound
  unfold Memory.aim
  dsimp only
  rw [if_neg notLow, if_neg notHigh, if_pos isPage, same]

/-- The two halves of a column leave the third one. -/
theorem aim_column (memory : Memory) :
    ((memory.aim 0x02).aim 0x10).pointer = (memory.pointer.1, 2) := by
  have low : (memory.aim 0x02).pointer =
      (memory.pointer.1, memory.pointer.2 / 16 * 16 + 2) :=
    rfl
  have high : ∀ other : Memory,
      (other.aim 0x10).pointer = (other.pointer.1, other.pointer.2 % 16) := by
    intro other
    exact congrArg (Prod.mk other.pointer.1) (Nat.zero_add _)
  rw [high, low, Nat.mul_comm, Nat.mul_add_mod]

/-- The address of a page brings the pointer to the page's first pixel. -/
theorem obey_address {page : Nat} (bound : page < PANEL_PAGES) {panel : Panel}
    (idle : panel.pending = none) (memory : Memory) :
    (([0xB0 ||| UInt8.ofNat page, 0x02, 0x10] : Bytes).foldl (obey display)
      (panel, memory)).2.pointer = (page, 2) := by
  rw [obey_inert (narrow_address bound)
    (Bench.inert_address display.toController bound) idle]
  change (((memory.aim _).aim 0x02).aim 0x10).pointer = (page, 2)
  rw [aim_column, aim_page bound]

/-- Setting DC leaves the memory alone. -/
theorem set_dc_memory {level : Bool} (steady : station.bench.Steady)
    (sure : .level false ∉ answers)
    (ran : station.set .dc level answers = some (after, rest)) :
    station.bench.set .dc level answers = some (after.bench, rest) ∧
      after.memory = station.memory := by
  obtain ⟨⟨bench, left⟩, ranBench, same⟩ := Option.map_eq_some_iff.mp ran
  have released := (Bench.set_dc steady sure ranBench).1.released
  cases same
  exact ⟨ranBench, if_pos released⟩

/-- What a write brings to the panel. -/
theorem writeAll_cases {bytes : Bytes}
    (ran : station.writeAll display bytes answers = some (ok, after, rest)) :
    ∃ delivered, (ok = true → bytes.length ≤ delivered) ∧
      after = station.deliver display (bytes.take delivered) := by
  unfold writeAll at ran
  split at ran
  · cases ran
    exact ⟨bytes.length, fun _ => Nat.le_refl _, by rw [List.take_length]⟩
  · rename_i delivered others
    cases ran
    exact ⟨delivered, fun wrong => by simp at wrong, rfl⟩
  · cases ran

/-- A command leaves the cells alone, and the pointer where its bytes bring
it. -/
theorem cmd_memory {codes : Bytes} (steady : station.bench.Steady)
    (sure : .level false ∉ answers)
    (ran : station.cmd display codes answers = some (ok, after, rest)) :
    after.memory.cells = station.memory.cells ∧
      (ok = true → after.memory =
        (codes.foldl (obey display) (station.bench.panel, station.memory)).2) := by
  obtain ⟨⟨lowered, left⟩, lower, write⟩ := Option.bind_eq_some_iff.mp ran
  obtain ⟨ranBench, kept⟩ := set_dc_memory steady sure lower
  obtain ⟨steadily, low, -, -, panel, -⟩ := Bench.set_dc steady sure ranBench
  obtain ⟨delivered, whole, rfl⟩ := writeAll_cases write
  have memory : (lowered.deliver display (codes.take delivered)).memory =
      ((codes.take delivered).foldl (obey display)
        (station.bench.panel, station.memory)).2 := by
    unfold deliver
    dsimp only
    rw [if_neg (by simp [steadily.released]), if_neg (by simp [low]), panel, kept]
  refine ⟨?_, fun done => ?_⟩
  · rw [memory, obey_cells]
  · rw [memory, List.take_of_length_le (whole done)]

/-- Pixels go to the cells behind the pointer, as many of them as were sent. -/
theorem data_memory {pixels : Bytes} (steady : station.bench.Steady)
    (sure : .level false ∉ answers)
    (ran : station.data display pixels answers = some (ok, after, rest)) :
    ∃ delivered, (ok = true → pixels.length ≤ delivered) ∧
      after.memory =
        station.memory.stream display.next (pixels.take delivered) := by
  obtain ⟨⟨raised, left⟩, raise, write⟩ := Option.bind_eq_some_iff.mp ran
  obtain ⟨ranBench, kept⟩ := set_dc_memory steady sure raise
  obtain ⟨steadily, high, -, -, -, -⟩ := Bench.set_dc steady sure ranBench
  obtain ⟨delivered, whole, rfl⟩ := writeAll_cases write
  refine ⟨delivered, whole, ?_⟩
  unfold deliver
  dsimp only
  rw [if_neg (by simp [steadily.released]), if_pos high, kept]

theorem iterate_next {page i : Nat} (small : i ≤ WIDTH) :
    display.next^[i] (page, 2) = (page, 2 + i) := by
  induction i with
  | zero => rfl
  | succ i induction =>
      have on : 2 + i < 131 := by
        unfold WIDTH at small
        omega
      rw [Function.iterate_succ_apply', induction (Nat.le_of_succ_le small)]
      exact congrArg (Prod.mk page) (display.advances _ on)

/-- The cells of a page behind some pixels of it. -/
theorem shown_stream {memory : Memory} {page : Nat}
    (aimed : memory.pointer = (page, 2)) {pixels : Bytes}
    (small : pixels.length ≤ WIDTH) (cell : Nat) :
    Memory.shown (memory.stream display.next pixels) cell =
      if page * WIDTH ≤ cell ∧ cell < page * WIDTH + pixels.length then
        pixels.getD (cell - page * WIDTH) 0
      else memory.shown cell := by
  have column : cell % WIDTH < WIDTH := Nat.mod_lt _ (by decide)
  have whole : cell / WIDTH * WIDTH + cell % WIDTH = cell :=
    Nat.div_add_mod' cell WIDTH
  have passes : ∀ i ≤ WIDTH, display.next^[i] memory.pointer = (page, 2 + i) := by
    intro i within
    rw [aimed, iterate_next within]
  unfold Memory.shown
  by_cases here : cell / WIDTH = page ∧ cell % WIDTH < pixels.length
  · obtain ⟨rfl, below⟩ := here
    rw [if_pos (by omega), ← passes _ column.le]
    rw [PointerMemory.stream_passed below]
    · have offset : cell - cell / WIDTH * WIDTH = cell % WIDTH := by omega
      rw [offset, List.getD_eq_getElem _ _ below]
    · intro j belowJ behind same
      rw [passes j (by omega), passes _ column.le, Prod.mk.injEq] at same
      omega
  · rw [PointerMemory.stream_apart, if_neg]
    · rintro ⟨since, before⟩
      apply here
      have samePage : cell / WIDTH = page := by
        apply Nat.div_eq_of_lt_le
        · exact since
        · rw [Nat.succ_mul]
          omega
      subst samePage
      exact ⟨rfl, by omega⟩
    · intro i below same
      rw [passes i (by omega), Prod.mk.injEq] at same
      exact here ⟨same.1.symm, by omega⟩

/-- One page of a frame, as far as its pixels were sent. -/
theorem data_shown {buf : Bytes} {page : Nat} (steady : station.bench.Steady)
    (sure : .level false ∉ answers) (aimed : station.memory.pointer = (page, 2))
    (long : (page + 1) * WIDTH ≤ buf.length)
    (ran : station.data display ((buf.drop (page * WIDTH)).take WIDTH) answers =
      some (ok, after, rest)) :
    ∃ reach, page * WIDTH ≤ reach ∧ reach ≤ (page + 1) * WIDTH ∧
      (ok = true → reach = (page + 1) * WIDTH) ∧
      ∀ cell, after.memory.shown cell =
        if page * WIDTH ≤ cell ∧ cell < reach then buf.getD cell 0
        else station.memory.shown cell := by
  obtain ⟨delivered, whole, stream⟩ := data_memory steady sure ran
  rw [Nat.succ_mul] at long ⊢
  have length : ((buf.drop (page * WIDTH)).take WIDTH).length = WIDTH := by
    rw [List.length_take, List.length_drop]
    omega
  rw [length] at whole
  rw [List.take_take] at stream
  have reached : ((buf.drop (page * WIDTH)).take (min delivered WIDTH)).length =
      min delivered WIDTH := by
    rw [List.length_take, List.length_drop]
    omega
  refine ⟨page * WIDTH + min delivered WIDTH, by omega, by omega, fun done => ?_,
    fun cell => ?_⟩
  · have all := whole done
    omega
  · rw [stream, shown_stream aimed (by omega), reached]
    split_ifs with inside
    · rw [List.getD_eq_getElem?_getD, List.getElem?_take_of_lt (by omega),
        List.getElem?_drop, List.getD_eq_getElem?_getD, Nat.add_sub_of_le inside.1]
    · rfl

/-- The pages of a frame from one on: by induction on how many there are, each
behind the cells of those before it. -/
theorem showFrom_shown {buf : Bytes} {first count : Nat}
    (ends : first + count ≤ PANEL_PAGES)
    (long : (first + count) * WIDTH ≤ buf.length)
    (steady : station.bench.Steady) (idle : station.bench.panel.pending = none)
    (sure : .level false ∉ answers)
    (ran : station.showFrom display buf (List.range' first count) answers =
      some (ok, after, rest)) :
    ∃ reach, first * WIDTH ≤ reach ∧ reach ≤ (first + count) * WIDTH ∧
      (ok = true → reach = (first + count) * WIDTH) ∧
      ∀ cell, after.memory.shown cell =
        if first * WIDTH ≤ cell ∧ cell < reach then buf.getD cell 0
        else station.memory.shown cell := by
  induction count generalizing first station answers with
  | zero =>
      cases ran
      refine ⟨first * WIDTH, Nat.le_refl _, Nat.le_refl _, fun _ => rfl,
        fun cell => ?_⟩
      rw [if_neg (by omega)]
  | succ count induction =>
      have bound : first < PANEL_PAGES := by omega
      have pageEnds : (first + 1) * WIDTH ≤ (first + (count + 1)) * WIDTH :=
        Nat.mul_le_mul_right _ (by omega)
      have pageBegins : first * WIDTH ≤ (first + 1) * WIDTH :=
        Nat.mul_le_mul_right _ (Nat.le_succ first)
      obtain ⟨⟨addressed, aimed, left⟩, ranAddress, ran⟩ :=
        Option.bind_eq_some_iff.mp ran
      obtain ⟨unmoved, sureLeft⟩ := Bench.cmd_unmoved steady idle
        (Bench.inert_address display.toController bound) sure
        ((cmd_refines _).ran ranAddress)
      obtain ⟨cells, pointer⟩ := cmd_memory steady sure ranAddress
      have untouched : ∀ cell,
          aimed.memory.shown cell = station.memory.shown cell := by
        intro cell
        unfold Memory.shown
        rw [cells]
      cases addressed with
      | false =>
          cases ran
          refine ⟨first * WIDTH, Nat.le_refl _, by omega,
            fun wrong => absurd wrong Bool.false_ne_true, fun cell => ?_⟩
          rw [untouched, if_neg (by omega)]
      | true =>
          have onPage : aimed.memory.pointer = (first, 2) := by
            rw [pointer rfl, obey_address bound idle]
          obtain ⟨⟨drawn, page, behind⟩, ranData, ran⟩ :=
            Option.bind_eq_some_iff.mp ran
          obtain ⟨still, sureBehind⟩ := Bench.data_unmoved unmoved.steady
            sureLeft ((data_refines _).ran ranData)
          obtain ⟨reach, above, below, whole, shown⟩ :=
            data_shown unmoved.steady sureLeft onPage (by omega) ranData
          cases drawn with
          | false =>
              cases ran
              refine ⟨reach, above, by omega,
                fun wrong => absurd wrong Bool.false_ne_true, fun cell => ?_⟩
              rw [shown, untouched]
          | true =>
              have full := whole rfl
              subst full
              have both := unmoved.trans still
              obtain ⟨last, aboveLast, belowLast, wholeLast, shownLast⟩ :=
                induction (by omega) (by rw [Nat.add_right_comm]; exact long)
                  both.steady (both.panel ▸ idle) sureBehind ran
              rw [Nat.add_right_comm] at belowLast wholeLast
              refine ⟨last, by omega, belowLast, wholeLast, fun cell => ?_⟩
              rw [shownLast, shown, untouched]
              split_ifs <;> first | rfl | omega

/-- The pixels of a frame by their cells. -/
def content (buf : Bytes) (cell : Nat) : UInt8 :=
  buf.getD cell 0

/-- A frame covers what was shown as far as it was sent. -/
theorem showFrame_shown {buf : Bytes} (long : buf.length = WIDTH * PANEL_PAGES)
    (steady : station.bench.Steady) (idle : station.bench.panel.pending = none)
    (sure : .level false ∉ answers)
    (ran : station.showFrame display buf answers = some (ok, after, rest)) :
    ∃ reach, (ok = true → reach = WIDTH * PANEL_PAGES) ∧
      after.memory.shown =
        cover reach (content buf) station.memory.shown := by
  unfold showFrame at ran
  rw [List.range_eq_range'] at ran
  obtain ⟨reach, -, -, whole, shown⟩ := showFrom_shown (by decide)
    (by rw [long]; decide) steady idle sure ran
  refine ⟨reach, fun done => whole done, funext fun cell => ?_⟩
  rw [shown, cover]
  simp only [Nat.zero_mul, Nat.zero_le, true_and]
  rfl

theorem cmds_cells {codes : Bytes} (steady : station.bench.Steady)
    (sure : .level false ∉ answers)
    (ran : station.cmds display codes answers = some (ok, after, rest)) :
    after.memory.cells = station.memory.cells := by
  induction codes generalizing station answers with
  | nil =>
      cases ran
      rfl
  | cons code codes induction =>
      obtain ⟨⟨first, between, left⟩, ranFirst, ran⟩ :=
        Option.bind_eq_some_iff.mp ran
      have kept := (cmd_memory steady sure ranFirst).1
      obtain ⟨used, seen, split, told⟩ :=
        Bench.cmd_told steady sure ((cmd_refines _).ran ranFirst)
      cases first with
      | false =>
          cases ran
          exact kept
      | true =>
          have sureRest : .level false ∉ left := fun member =>
            sure (split ▸ List.mem_append_right _ member)
          exact (induction told.steady sureRest ran).trans kept

theorem setFlip_cells {flipped : Bool} (steady : station.bench.Steady)
    (sure : .level false ∉ answers)
    (ran : station.setFlip display flipped answers = some (ok, after, rest)) :
    after.memory.cells = station.memory.cells := by
  unfold setFlip at ran
  by_cases remembered : station.bench.driver.flip = some flipped
  · rw [if_pos remembered] at ran
    cases ran
    rfl
  · rw [if_neg remembered] at ran
    obtain ⟨⟨first, between, left⟩, told, ran⟩ := Option.bind_eq_some_iff.mp ran
    have kept := cmds_cells steady sure told
    cases first <;> cases ran <;> exact kept

theorem setContrast_cells {val : Int} (steady : station.bench.Steady)
    (sure : .level false ∉ answers)
    (ran : station.setContrast display val answers = some (ok, after, rest)) :
    after.memory.cells = station.memory.cells := by
  unfold setContrast at ran
  generalize UInt8.ofNat (max 0 (min val 255)).toNat = v at ran
  dsimp only at ran
  by_cases remembered : station.bench.driver.contrast = v.toNat
  · rw [if_pos remembered] at ran
    cases ran
    rfl
  · rw [if_neg remembered] at ran
    obtain ⟨⟨first, between, left⟩, told, ran⟩ := Option.bind_eq_some_iff.mp ran
    have kept := (cmd_memory steady sure told).1
    cases first <;> cases ran <;> exact kept

/-- A flip that returned is the one the driver remembers. -/
theorem setFlip_remembers {flipped : Bool}
    (ran : station.setFlip display flipped answers =
      some (true, after, rest)) :
    after.bench.driver.flip = some flipped := by
  unfold setFlip at ran
  by_cases remembered : station.bench.driver.flip = some flipped
  · rw [if_pos remembered] at ran
    cases ran
    exact remembered
  · rw [if_neg remembered] at ran
    obtain ⟨⟨first, between, left⟩, -, ran⟩ := Option.bind_eq_some_iff.mp ran
    cases first with
    | false => cases ran
    | true =>
        cases ran
        rfl

/-- A call uses its answers from the front, and returns an error only where one
of them was one. -/
def Sound
    (call : Station → List Answer → Option (Bool × Station × List Answer)) :
    Prop :=
  ∀ station answers ok after rest,
    call station answers = some (ok, after, rest) →
      rest <:+ answers ∧ (ok = false → ∃ delivered, .cut delivered ∈ answers)

theorem Sound.andThen
    {first second :
      Station → List Answer → Option (Bool × Station × List Answer)}
    (front : Sound first) (back : Sound second) :
    Sound fun station answers =>
      (first station answers).bind (Station.andThen second) := by
  intro station answers ok after rest ran
  obtain ⟨⟨went, between, left⟩, ranFirst, ran⟩ := Option.bind_eq_some_iff.mp ran
  obtain ⟨suffix, cut⟩ := front _ _ _ _ _ ranFirst
  cases went with
  | false =>
      cases ran
      exact ⟨suffix, cut⟩
  | true =>
      obtain ⟨later, cutLater⟩ := back _ _ _ _ _ ran
      refine ⟨later.trans suffix, fun failed => ?_⟩
      obtain ⟨delivered, member⟩ := cutLater failed
      exact ⟨delivered, suffix.subset member⟩

theorem writeAll_sound (bytes : Bytes) : Sound (writeAll display bytes) := by
  intro station answers ok after rest ran
  unfold writeAll at ran
  split at ran
  · cases ran
    exact ⟨List.suffix_cons _ _, fun wrong => absurd wrong (by decide)⟩
  · cases ran
    exact ⟨List.suffix_cons _ _, fun _ => ⟨_, List.mem_cons_self⟩⟩
  · cases ran

theorem set_suffix {pin : Pin} {level : Bool}
    (ran : station.set pin level answers = some (after, rest)) :
    rest <:+ answers := by
  obtain ⟨⟨bench, left⟩, ranBench, same⟩ := Option.map_eq_some_iff.mp ran
  cases same
  unfold Bench.set at ranBench
  split_ifs at ranBench
  · cases ranBench
    exact List.suffix_rfl
  · split at ranBench
    · cases ranBench
      exact List.suffix_cons _ _
    · cases ranBench

theorem cmd_sound (bytes : Bytes) : Sound (cmd display bytes) := by
  intro station answers ok after rest ran
  obtain ⟨⟨lowered, left⟩, lower, write⟩ := Option.bind_eq_some_iff.mp ran
  have suffix := set_suffix lower
  obtain ⟨later, cut⟩ := writeAll_sound bytes _ _ _ _ _ write
  refine ⟨later.trans suffix, fun failed => ?_⟩
  obtain ⟨delivered, member⟩ := cut failed
  exact ⟨delivered, suffix.subset member⟩

theorem data_sound (bytes : Bytes) : Sound (data display bytes) := by
  intro station answers ok after rest ran
  obtain ⟨⟨raised, left⟩, raise, write⟩ := Option.bind_eq_some_iff.mp ran
  have suffix := set_suffix raise
  obtain ⟨later, cut⟩ := writeAll_sound bytes _ _ _ _ _ write
  refine ⟨later.trans suffix, fun failed => ?_⟩
  obtain ⟨delivered, member⟩ := cut failed
  exact ⟨delivered, suffix.subset member⟩

/-- A call that has nothing to do. -/
theorem Sound.pure (change : Station → Station) :
    Sound fun station answers => some (true, change station, answers) := by
  intro station answers ok after rest ran
  cases ran
  exact ⟨List.suffix_rfl, fun wrong => absurd wrong (by decide)⟩

theorem cmds_sound (codes : Bytes) : Sound (cmds display codes) := by
  induction codes with
  | nil => exact Sound.pure id
  | cons code codes induction => exact (cmd_sound [code]).andThen induction

theorem showFrom_sound (buf : Bytes) (pages : List Nat) :
    Sound (showFrom display buf pages) := by
  induction pages with
  | nil => exact Sound.pure id
  | cons page pages induction =>
      exact (cmd_sound _).andThen ((data_sound _).andThen induction)

theorem setFlip_sound (flipped : Bool) : Sound (setFlip display flipped) := by
  intro station answers ok after rest ran
  unfold setFlip at ran
  split_ifs at ran
  · cases ran
    exact ⟨List.suffix_rfl, fun wrong => absurd wrong (by decide)⟩
  all_goals
    exact (cmds_sound _).andThen (Sound.pure _) _ _ _ _ _ ran

theorem setContrast_sound (val : Int) : Sound (setContrast display val) := by
  intro station answers ok after rest ran
  unfold setContrast at ran
  dsimp only at ran
  split_ifs at ran
  · cases ran
    exact ⟨List.suffix_rfl, fun wrong => absurd wrong (by decide)⟩
  · exact (cmd_sound _).andThen (Sound.pure _) _ _ _ _ _ ran

/-- A contrast that returned is the one the driver remembers. -/
theorem setContrast_remembers {val : Int} (within : 0 ≤ val ∧ val ≤ 255)
    (ran : station.setContrast display val answers =
      some (true, after, rest)) :
    after.bench.driver.contrast = val := by
  have clamped : ((UInt8.ofNat (max 0 (min val 255)).toNat).toNat : Int) = val := by
    rw [UInt8.toNat_ofNat']
    omega
  unfold setContrast at ran
  dsimp only at ran
  rw [clamped] at ran
  by_cases remembered : station.bench.driver.contrast = val
  · rw [if_pos remembered] at ran
    cases ran
    exact remembered
  · rw [if_neg remembered] at ran
    obtain ⟨⟨first, between, left⟩, -, ran⟩ := Option.bind_eq_some_iff.mp ran
    cases first with
    | false => cases ran
    | true =>
        cases ran
        rfl

/-- A contrast leaves the orientation alone. -/
theorem setContrast_flip {val : Int} (steady : station.bench.Steady)
    (sure : .level false ∉ answers)
    (ran : station.setContrast display val answers = some (ok, after, rest)) :
    after.bench.driver.flip = station.bench.driver.flip := by
  unfold setContrast at ran
  generalize UInt8.ofNat (max 0 (min val 255)).toNat = v at ran
  dsimp only at ran
  by_cases remembered : station.bench.driver.contrast = v.toNat
  · rw [if_pos remembered] at ran
    cases ran
    rfl
  · rw [if_neg remembered] at ran
    obtain ⟨⟨first, between, left⟩, command, ran⟩ :=
      Option.bind_eq_some_iff.mp ran
    obtain ⟨used, seen, split, told⟩ :=
      Bench.cmd_told steady sure ((cmd_refines _).ran command)
    cases first <;> cases ran <;> exact told.flip

end Station

end Oled
