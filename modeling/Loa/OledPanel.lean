import Loa.RustText
import Loa.TransitionRun

/-!
# The panel and what the driver remembers of it

The panel cannot be read back, so the driver remembers the registers and the
levels of its lines and skips what it takes for done.  Here the driver runs
against a panel over a bus that may fail at every write, with a record of each
skip and of what was there.
-/

namespace Oled

open TransitionRun

/-- Commands with an argument: the clocks, the rows, the pins and the levels. -/
def TIMING : Bytes :=
  [0xD5, 0xA8, 0xD3, 0xDA, 0xD9, 0xDB]

/-- Commands without one: the columns and pages, the orientation, and what
switches the panel. -/
def NARROW : Bytes :=
  [0x00, 0x02, 0x10, 0x14, 0x2E, 0x40, 0xA0, 0xA1, 0xA4, 0xA6, 0xAE, 0xAF, 0xB0,
    0xB1, 0xB2, 0xB3, 0xB4, 0xB5, 0xB6, 0xB7, 0xC0, 0xC8]

/-- The command set of a panel controller: which commands take an argument. -/
structure Controller where
  wide : UInt8 → Bool
  contrast : wide 0x81 = true
  timing : ∀ code ∈ TIMING, wide code = true
  narrow : ∀ code ∈ NARROW, wide code = false

/-- The registers of the panel that outlive a frame, and a command that waits
for its argument. -/
structure Panel where
  segment : Bool
  com : Bool
  contrast : UInt8
  pending : Option UInt8
  deriving DecidableEq

namespace Panel

/-- The panel after a reset. -/
def reset : Panel := ⟨false, false, 0x80, none⟩

/-- A byte of a command. -/
def command (controller : Controller) (panel : Panel) (byte : UInt8) : Panel :=
  match panel.pending with
  | some code =>
      { panel with
        contrast := if code = 0x81 then byte else panel.contrast
        pending := none }
  | none =>
      if controller.wide byte then { panel with pending := some byte }
      else if byte = 0xA0 ∨ byte = 0xA1 then
        { panel with segment := byte = 0xA1 }
      else if 0xC0 ≤ byte ∧ byte ≤ 0xCF then
        { panel with com := decide (0xC8 ≤ byte) }
      else panel

end Panel

def WIDTH : Nat := 128

def PANEL_PAGES : Nat := 8

def BRIGHT : Int := 0xCF

def DIM : Int := 0x18

def INIT : Bytes :=
  [0xAE, 0xD5, 0x80, 0xA8, 0x3F, 0xD3, 0x00, 0x40, 0x8D, 0x14, 0x20, 0x00, 0xDA,
    0x12, 0x81, 0xCF, 0xD9, 0xF1, 0xDB, 0x40, 0xA4, 0xA6, 0x2E, 0xA0, 0xC0, 0xAF]

def FLIP_ON : Bytes := [0xA1, 0xC8]

def FLIP_OFF : Bytes := [0xA0, 0xC0]

/-- The levels of the two lines, as they are or as they are remembered. -/
structure Lines where
  dc : Bool
  res : Bool
  deriving DecidableEq

inductive Pin
  | dc
  | res
  deriving DecidableEq

def Lines.get (lines : Lines) : Pin → Bool
  | .dc => lines.dc
  | .res => lines.res

def Lines.put (lines : Lines) (level : Bool) : Pin → Lines
  | .dc => { lines with dc := level }
  | .res => { lines with res := level }

/-- `Oled`: what the driver remembers. -/
structure Driver where
  gpio : Lines
  flip : Option Bool
  contrast : Int
  deriving DecidableEq

/-- A write that was skipped: what was remembered, and what was there. -/
inductive Skip
  | line (remembered level : Bool)
  | flip (remembered segment com : Bool)
  | contrast (remembered : Int) (register : UInt8)
  deriving DecidableEq

/-- What was remembered was there. -/
def Skip.Holds : Skip → Prop
  | .line remembered level => level = remembered
  | .flip remembered segment com => segment = remembered ∧ com = remembered
  | .contrast remembered register => (register.toNat : Int) = remembered

/-- What the system answers to a write: whether a line took its level, that all
bytes were sent, or an error after some of them reached the panel. -/
inductive Answer
  | level (took : Bool)
  | sent
  | cut (delivered : Nat)
  deriving DecidableEq

/-- The driver, the lines and the panel, and the skips so far. -/
structure Bench where
  driver : Driver
  lines : Lines
  panel : Panel
  skips : List Skip
  deriving DecidableEq

namespace Bench

variable (controller : Controller)

/-- Bytes on the wire: they are commands while DC is low, and a panel held in
reset takes nothing. -/
def deliver (bench : Bench) (bytes : Bytes) : Bench :=
  if bench.lines.dc ∨ ¬ bench.lines.res then bench
  else { bench with panel := bytes.foldl (Panel.command controller) bench.panel }

/-- A line takes a level; a panel whose reset line falls is reset. -/
def move (bench : Bench) (pin : Pin) (level : Bool) : Bench :=
  { bench with
    lines := bench.lines.put level pin
    panel := if pin = .res ∧ level = false then Panel.reset else bench.panel }

def remember (bench : Bench) (pin : Pin) (level : Bool) : Bench :=
  { bench with
    driver := { bench.driver with gpio := bench.driver.gpio.put level pin } }

def skip (bench : Bench) (skipped : Skip) : Bench :=
  { bench with skips := bench.skips ++ [skipped] }

/-- `Lgpio::set`: a level is written only when it changes, and remembered
whatever comes of the write. -/
def set (pin : Pin) (level : Bool) (bench : Bench) (answers : List Answer) :
    Option (Bench × List Answer) :=
  if bench.driver.gpio.get pin = level then
    some (bench.skip (.line level (bench.lines.get pin)), answers)
  else
    match answers with
    | .level took :: rest =>
        some ((if took then bench.move pin level else bench).remember pin level,
          rest)
    | _ => none

/-- `Write::write_all` on the bus, and whether it returned without an error. -/
def writeAll (bytes : Bytes) (bench : Bench) :
    List Answer → Option (Bool × Bench × List Answer)
  | .sent :: rest => some (true, bench.deliver controller bytes, rest)
  | .cut delivered :: rest =>
      some (false, bench.deliver controller (bytes.take delivered), rest)
  | _ => none

def cmd (bytes : Bytes) (bench : Bench) (answers : List Answer) :
    Option (Bool × Bench × List Answer) :=
  (bench.set .dc false answers).bind fun (bench, answers) =>
    bench.writeAll controller bytes answers

def data (bytes : Bytes) (bench : Bench) (answers : List Answer) :
    Option (Bool × Bench × List Answer) :=
  (bench.set .dc true answers).bind fun (bench, answers) =>
    bench.writeAll controller bytes answers

/-- Go on only where the last write returned without an error. -/
def andThen (next : Bench → List Answer → Option (Bool × Bench × List Answer)) :
    Bool × Bench × List Answer → Option (Bool × Bench × List Answer)
  | (true, bench, answers) => next bench answers
  | (false, bench, answers) => some (false, bench, answers)

/-- Commands of one byte, one after the other. -/
def cmds : Bytes → Bench → List Answer → Option (Bool × Bench × List Answer)
  | [], bench, answers => some (true, bench, answers)
  | code :: codes, bench, answers =>
      (bench.cmd controller [code] answers).bind (andThen (cmds codes))

/-- The pages of a frame from one on, each an address and its pixels. -/
def showFrom (buf : Bytes) :
    List Nat → Bench → List Answer → Option (Bool × Bench × List Answer)
  | [], bench, answers => some (true, bench, answers)
  | page :: pages, bench, answers =>
      (bench.cmd controller [0xB0 ||| UInt8.ofNat page, 0x02, 0x10] answers).bind
        (andThen fun bench answers =>
          (bench.data controller ((buf.drop (page * WIDTH)).take WIDTH)
            answers).bind (andThen (showFrom buf pages)))

def showFrame (buf : Bytes) (bench : Bench) (answers : List Answer) :
    Option (Bool × Bench × List Answer) :=
  bench.showFrom controller buf (List.range PANEL_PAGES) answers

/-- A flip is two commands, and is remembered behind both. -/
def setFlip (flipped : Bool) (bench : Bench) (answers : List Answer) :
    Option (Bool × Bench × List Answer) :=
  if bench.driver.flip = some flipped then
    some (true,
      bench.skip (.flip flipped bench.panel.segment bench.panel.com), answers)
  else
    (bench.cmds controller (if flipped then FLIP_ON else FLIP_OFF) answers).bind
      (andThen fun bench answers => some (true, { bench with
        driver := { bench.driver with flip := some flipped } }, answers))

def setContrast (val : Int) (bench : Bench) (answers : List Answer) :
    Option (Bool × Bench × List Answer) :=
  let v := UInt8.ofNat (max 0 (min val 255)).toNat
  if bench.driver.contrast = v.toNat then
    some (true, bench.skip (.contrast v.toNat bench.panel.contrast), answers)
  else
    (bench.cmd controller [0x81, v] answers).bind
      (andThen fun bench answers => some (true, { bench with
        driver := { bench.driver with contrast := v.toNat } }, answers))

/-- The driver right after it has claimed its lines, which sets both. -/
def claimed (panel : Panel) : Bench where
  driver := ⟨⟨true, true⟩, none, BRIGHT⟩
  lines := ⟨true, true⟩
  panel := panel
  skips := []

/-- `Oled::open` from the claimed lines on: a reset, the start sequence and the
natural orientation. -/
def openPanel (panel : Panel) (answers : List Answer) :
    Option (Bool × Bench × List Answer) :=
  ((claimed panel).set .res false answers).bind fun (bench, answers) =>
    (bench.set .res true answers).bind fun (bench, answers) =>
      (bench.cmds controller INIT answers).bind
        (andThen fun bench answers => bench.setFlip controller false answers)

end Bench

/-- A call of the driver. -/
inductive Call
  | setFlip (flipped : Bool)
  | setContrast (val : Int)
  | show (buf : { bytes : Bytes // bytes.length = WIDTH * PANEL_PAGES })

def Call.run (controller : Controller) :
    Call → Bench → List Answer → Option (Bool × Bench × List Answer)
  | .setFlip flipped => Bench.setFlip controller flipped
  | .setContrast val => Bench.setContrast controller val
  | .show buf => Bench.showFrame controller buf

/-- A call together with all that the system answers while it runs; whether it
returned an error is of no consequence to the calls behind it. -/
def step (controller : Controller) (bench : Bench)
    (action : Call × List Answer) : Option Bench :=
  match action.1.run controller bench action.2 with
  | some (_, after, []) => some after
  | _ => none

/-- A transfer that fails has brought no byte to the panel, and no other was
sent before it. -/
def Clean (answers : List Answer) : Prop :=
  ∀ delivered, .cut delivered ∈ answers → delivered = 0 ∧ .sent ∉ answers

/-- No line write fails, and a flip or a contrast that fails has not begun. -/
def Unhalved (action : Call × List Answer) : Prop :=
  .level false ∉ action.2 ∧
    match action.1 with
    | .show _ => True
    | _ => Clean action.2

namespace Bench

/-- The lines are as they are remembered, the panel is not in reset, and nothing
was skipped in error. -/
structure Steady (bench : Bench) : Prop where
  lines : bench.lines = bench.driver.gpio
  released : bench.lines.res = true
  skips : ∀ skip ∈ bench.skips, skip.Holds

/-- All that the driver remembers is so. -/
structure Truthful (bench : Bench) : Prop extends bench.Steady where
  idle : bench.panel.pending = none
  flip : ∀ flipped ∈ bench.driver.flip,
    bench.panel.segment = flipped ∧ bench.panel.com = flipped
  contrast : (bench.panel.contrast.toNat : Int) = bench.driver.contrast

/-- What is left of a bench after some commands: the panel has seen the first of
them, all where there was no error. -/
structure Told (controller : Controller) (before : Bench) (used : List Answer)
    (codes seen : Bytes) (ok : Bool) (after : Bench) : Prop where
  steady : after.Steady
  flip : after.driver.flip = before.driver.flip
  contrast : after.driver.contrast = before.driver.contrast
  panel : after.panel = seen.foldl (Panel.command controller) before.panel
  front : seen <+: codes
  whole : ok = true → seen = codes
  sent : ok = true → codes ≠ [] → .sent ∈ used
  failed : ok = false → ∃ delivered, .cut delivered ∈ used
  unbegun : ok = false → Clean used → seen = []

variable {controller : Controller} {bench after : Bench} {ok : Bool}
  {answers rest : List Answer}

theorem Steady.skip {skipped : Skip} (steady : bench.Steady)
    (held : skipped.Holds) : (bench.skip skipped).Steady where
  lines := steady.lines
  released := steady.released
  skips := by
    intro other member
    obtain earlier | last := List.mem_append.mp member
    · exact steady.skips other earlier
    · rw [List.mem_singleton.mp last]
      exact held

/-- Setting DC brings it to its level, by a write or by a skip. -/
theorem set_dc {level : Bool} (steady : bench.Steady)
    (sure : .level false ∉ answers)
    (ran : bench.set .dc level answers = some (after, rest)) :
    after.Steady ∧ after.lines.dc = level ∧
      after.driver.flip = bench.driver.flip ∧
      after.driver.contrast = bench.driver.contrast ∧
      after.panel = bench.panel ∧
      (answers = rest ∨ answers = .level true :: rest) := by
  have agrees := steady.lines
  unfold set at ran
  by_cases remembered : bench.driver.gpio.get .dc = level
  · rw [if_pos remembered] at ran
    cases ran
    have there : bench.lines.dc = level := by
      rw [agrees]
      exact remembered
    exact ⟨steady.skip there, there, rfl, rfl, rfl, Or.inl rfl⟩
  · rw [if_neg remembered] at ran
    split at ran
    · rename_i took others
      cases took with
      | false => exact absurd List.mem_cons_self sure
      | true =>
          cases ran
          refine ⟨⟨?_, steady.released, steady.skips⟩, rfl, rfl, rfl, rfl,
            Or.inr rfl⟩
          change bench.lines.put level .dc = bench.driver.gpio.put level .dc
          rw [agrees]
    · cases ran

theorem deliver_command (steady : bench.Steady) (low : bench.lines.dc = false)
    (bytes : Bytes) : bench.deliver controller bytes =
      { bench with
        panel := bytes.foldl (Panel.command controller) bench.panel } := by
  unfold deliver
  rw [if_neg (by simp [low, steady.released])]

theorem deliver_pixels (high : bench.lines.dc = true) (bytes : Bytes) :
    bench.deliver controller bytes = bench :=
  if_pos (Or.inl high)

/-- What a write to the bus consumes of the answers, and what it delivers. -/
theorem writeAll_cases {bytes : Bytes}
    (ran : bench.writeAll controller bytes answers = some (ok, after, rest)) :
    (ok = true ∧ answers = .sent :: rest ∧
        after = bench.deliver controller bytes) ∨
      ∃ delivered, ok = false ∧ answers = .cut delivered :: rest ∧
        after = bench.deliver controller (bytes.take delivered) := by
  unfold writeAll at ran
  split at ran
  · cases ran
    exact Or.inl ⟨rfl, rfl, rfl⟩
  · cases ran
    exact Or.inr ⟨_, rfl, rfl, rfl⟩
  · cases ran

theorem cmd_told {codes : Bytes} (steady : bench.Steady)
    (sure : .level false ∉ answers)
    (ran : bench.cmd controller codes answers = some (ok, after, rest)) :
    ∃ used seen, answers = used ++ rest ∧
      Told controller bench used codes seen ok after := by
  obtain ⟨⟨lowered, left⟩, lower, write⟩ := Option.bind_eq_some_iff.mp ran
  obtain ⟨steadily, low, flip, contrast, panel, took⟩ :=
    set_dc steady sure lower
  obtain ⟨front, noTransfer, split⟩ : ∃ front : List Answer,
      (∀ answer ∈ front, answer = .level true) ∧ answers = front ++ left := by
    obtain same | same := took
    · exact ⟨[], by simp, same⟩
    · exact ⟨[.level true], by simp, same⟩
  obtain ⟨rfl, taken, rfl⟩ | ⟨delivered, rfl, taken, rfl⟩ := writeAll_cases write
  · rw [deliver_command steadily low]
    refine ⟨front ++ [.sent], codes, by simp [split, taken], ?_⟩
    exact
      { steady := ⟨steadily.lines, steadily.released, steadily.skips⟩
        flip := flip
        contrast := contrast
        panel := by rw [panel]
        front := List.prefix_rfl
        whole := fun _ => rfl
        sent := fun _ _ => by simp
        failed := fun wrong => by cases wrong
        unbegun := fun wrong => by cases wrong }
  · rw [deliver_command steadily low]
    refine ⟨front ++ [.cut delivered], codes.take delivered,
      by simp [split, taken], ?_⟩
    exact
      { steady := ⟨steadily.lines, steadily.released, steadily.skips⟩
        flip := flip
        contrast := contrast
        panel := by rw [panel]
        front := List.take_prefix _ _
        whole := fun wrong => by cases wrong
        sent := fun wrong => by cases wrong
        failed := fun _ => ⟨delivered, by simp⟩
        unbegun := fun _ clean => by
          have none := (clean delivered (by simp)).1
          rw [none, List.take_zero] }

/-- Commands one after the other: by induction on them, with the first one's
answers in front. -/
theorem cmds_told {codes : Bytes} (steady : bench.Steady)
    (sure : .level false ∉ answers)
    (ran : bench.cmds controller codes answers = some (ok, after, rest)) :
    ∃ used seen, answers = used ++ rest ∧
      Told controller bench used codes seen ok after := by
  induction codes generalizing bench answers with
  | nil =>
      cases ran
      exact ⟨[], [], rfl,
        { steady := steady
          flip := rfl
          contrast := rfl
          panel := rfl
          front := List.prefix_rfl
          whole := fun _ => rfl
          sent := fun _ nonempty => absurd rfl nonempty
          failed := fun wrong => by cases wrong
          unbegun := fun _ _ => rfl }⟩
  | cons code codes induction =>
      obtain ⟨⟨first, between, left⟩, ranFirst, ranRest⟩ :=
        Option.bind_eq_some_iff.mp ran
      obtain ⟨used, seen, split, told⟩ := cmd_told steady sure ranFirst
      cases first with
      | false =>
          cases ranRest
          exact ⟨used, seen, split,
            { told with
              front := told.front.trans (List.prefix_append [code] codes)
              whole := fun wrong => by cases wrong
              sent := fun wrong => by cases wrong }⟩
      | true =>
          have sureRest : .level false ∉ left := fun member =>
            sure (split ▸ List.mem_append_right _ member)
          obtain ⟨more, heard, splitRest, later⟩ :=
            induction told.steady sureRest ranRest
          have sentFirst : .sent ∈ used := told.sent rfl (by simp)
          refine ⟨used ++ more, code :: heard, by simp [split, splitRest], ?_⟩
          exact
            { steady := later.steady
              flip := later.flip.trans told.flip
              contrast := later.contrast.trans told.contrast
              panel := by
                rw [later.panel, told.panel, told.whole rfl]
                rfl
              front := List.cons_prefix_cons.mpr ⟨rfl, later.front⟩
              whole := fun done => by rw [later.whole done]
              sent := fun _ _ => List.mem_append_left _ sentFirst
              failed := fun stopped => by
                obtain ⟨delivered, cut⟩ := later.failed stopped
                exact ⟨delivered, List.mem_append_right _ cut⟩
              unbegun := fun stopped clean => by
                obtain ⟨delivered, cut⟩ := later.failed stopped
                have begun := (clean delivered (List.mem_append_right _ cut)).2
                exact absurd (List.mem_append_left _ sentFirst) begun }

/-- A command that leaves the registers alone. -/
def Inert (controller : Controller) (code : UInt8) : Prop :=
  ∀ panel : Panel, panel.pending = none →
    panel.command controller code = panel

theorem foldl_inert {codes : Bytes} {panel : Panel}
    (inert : ∀ code ∈ codes, Inert controller code)
    (idle : panel.pending = none) :
    codes.foldl (Panel.command controller) panel = panel := by
  induction codes with
  | nil => rfl
  | cons code codes induction =>
      rw [List.foldl_cons, inert code List.mem_cons_self panel idle]
      exact induction fun other member =>
        inert other (List.mem_cons_of_mem _ member)

/-- The address of a page is inert. -/
theorem inert_address (controller : Controller) {page : Nat}
    (bound : page < PANEL_PAGES) :
    ∀ code ∈ ([0xB0 ||| UInt8.ofNat page, 0x02, 0x10] : Bytes),
      Inert controller code := by
  have listed : ∀ page < PANEL_PAGES,
      ([0xB0 ||| UInt8.ofNat page, 0x02, 0x10] : Bytes).all (fun code =>
        decide (code ∈ NARROW ∧ ¬ (code = 0xA0 ∨ code = 0xA1) ∧
          ¬ (0xC0 ≤ code ∧ code ≤ 0xCF))) = true := by
    decide
  intro code member panel idle
  obtain ⟨known, notSegment, notCom⟩ :=
    of_decide_eq_true (List.all_eq_true.mp (listed page bound) code member)
  unfold Panel.command
  rw [idle]
  dsimp only
  rw [controller.narrow code known, if_neg Bool.false_ne_true,
    if_neg notSegment, if_neg notCom]

/-- What the calls leave alone in the registers. -/
structure Unmoved (before after : Bench) : Prop where
  steady : after.Steady
  flip : after.driver.flip = before.driver.flip
  contrast : after.driver.contrast = before.driver.contrast
  panel : after.panel = before.panel

theorem Unmoved.trans {middle : Bench} (first : Unmoved bench middle)
    (second : Unmoved middle after) : Unmoved bench after where
  steady := second.steady
  flip := second.flip.trans first.flip
  contrast := second.contrast.trans first.contrast
  panel := second.panel.trans first.panel

theorem Unmoved.truthful (unmoved : Unmoved bench after)
    (truthful : bench.Truthful) : after.Truthful where
  toSteady := unmoved.steady
  idle := by
    rw [unmoved.panel]
    exact truthful.idle
  flip := by
    rw [unmoved.panel, unmoved.flip]
    exact truthful.flip
  contrast := by
    rw [unmoved.panel, unmoved.contrast]
    exact truthful.contrast

/-- A command that failed before it had begun. -/
theorem Told.unmoved {used : List Answer} {codes seen : Bytes}
    (told : Told controller bench used codes seen false after)
    (clean : Clean used) : Unmoved bench after where
  steady := told.steady
  flip := told.flip
  contrast := told.contrast
  panel := by
    rw [told.panel, told.unbegun rfl clean]
    rfl

theorem cmd_unmoved {codes : Bytes} (steady : bench.Steady)
    (idle : bench.panel.pending = none)
    (inert : ∀ code ∈ codes, Inert controller code)
    (sure : .level false ∉ answers)
    (ran : bench.cmd controller codes answers = some (ok, after, rest)) :
    Unmoved bench after ∧ .level false ∉ rest := by
  obtain ⟨used, seen, split, told⟩ := cmd_told steady sure ran
  refine ⟨⟨told.steady, told.flip, told.contrast, ?_⟩, fun member =>
    sure (split ▸ List.mem_append_right _ member)⟩
  rw [told.panel]
  exact foldl_inert (fun code member =>
    inert code (told.front.subset member)) idle

theorem data_unmoved {pixels : Bytes} (steady : bench.Steady)
    (sure : .level false ∉ answers)
    (ran : bench.data controller pixels answers = some (ok, after, rest)) :
    Unmoved bench after ∧ .level false ∉ rest := by
  obtain ⟨⟨raised, left⟩, raise, write⟩ := Option.bind_eq_some_iff.mp ran
  obtain ⟨steadily, high, flip, contrast, panel, took⟩ :=
    set_dc steady sure raise
  have sureLeft : .level false ∉ left := by
    obtain same | same := took
    · exact same ▸ sure
    · exact fun member => sure (same ▸ List.mem_cons_of_mem _ member)
  have unmoved : Unmoved bench raised := ⟨steadily, flip, contrast, panel⟩
  obtain ⟨-, taken, rfl⟩ | ⟨delivered, -, taken, rfl⟩ := writeAll_cases write
  · rw [deliver_pixels high]
    exact ⟨unmoved, fun member =>
      sureLeft (taken ▸ List.mem_cons_of_mem _ member)⟩
  · rw [deliver_pixels high]
    exact ⟨unmoved, fun member =>
      sureLeft (taken ▸ List.mem_cons_of_mem _ member)⟩

/-- A frame leaves the registers alone, wherever it fails: by induction on the
pages. -/
theorem showFrom_unmoved {buf : Bytes} {pages : List Nat}
    (bounds : ∀ page ∈ pages, page < PANEL_PAGES) (steady : bench.Steady)
    (idle : bench.panel.pending = none) (sure : .level false ∉ answers)
    (ran : bench.showFrom controller buf pages answers =
      some (ok, after, rest)) : Unmoved bench after := by
  induction pages generalizing bench answers with
  | nil =>
      cases ran
      exact ⟨steady, rfl, rfl, rfl⟩
  | cons page pages induction =>
      obtain ⟨⟨addressed, first, left⟩, ranAddress, ran⟩ :=
        Option.bind_eq_some_iff.mp ran
      obtain ⟨unmoved, sureLeft⟩ := cmd_unmoved steady idle
        (inert_address controller (bounds page List.mem_cons_self)) sure
        ranAddress
      cases addressed with
      | false =>
          cases ran
          exact unmoved
      | true =>
          obtain ⟨⟨drawn, second, behind⟩, ranData, ran⟩ :=
            Option.bind_eq_some_iff.mp ran
          obtain ⟨still, sureBehind⟩ :=
            data_unmoved unmoved.steady sureLeft ranData
          have both := unmoved.trans still
          cases drawn with
          | false =>
              cases ran
              exact both
          | true =>
              have later := induction
                (fun other member => bounds other (List.mem_cons_of_mem _ member))
                both.steady (both.panel ▸ idle) sureBehind ran
              exact both.trans later

theorem showFrame_truthful {buf : Bytes} (truthful : bench.Truthful)
    (sure : .level false ∉ answers)
    (ran : bench.showFrame controller buf answers = some (ok, after, rest)) :
    after.Truthful :=
  (showFrom_unmoved (fun _ member => List.mem_range.mp member)
    truthful.toSteady truthful.idle sure ran).truthful truthful

/-- The two commands of a flip turn both registers. -/
theorem foldl_flip (controller : Controller) {panel : Panel}
    (idle : panel.pending = none) (flipped : Bool) :
    (if flipped then FLIP_ON else FLIP_OFF).foldl (Panel.command controller)
      panel = { panel with segment := flipped, com := flipped } := by
  have narrow := controller.narrow
  cases flipped with
  | false =>
      simp [FLIP_OFF, Panel.command, idle, narrow 0xA0 (by decide),
        narrow 0xC0 (by decide)]
  | true =>
      simp [FLIP_ON, Panel.command, idle, narrow 0xA1 (by decide),
        narrow 0xC8 (by decide)]

theorem foldl_contrast (controller : Controller) {panel : Panel}
    (idle : panel.pending = none) (v : UInt8) :
    ([0x81, v] : Bytes).foldl (Panel.command controller) panel =
      { panel with contrast := v } := by
  simp [Panel.command, idle, controller.contrast]

/-- A flip that fails before it has begun leaves all as it was. -/
theorem setFlip_truthful {flipped : Bool} (truthful : bench.Truthful)
    (sure : .level false ∉ answers) (clean : ok = false → Clean answers)
    (ran : bench.setFlip controller flipped answers = some (ok, after, [])) :
    after.Truthful := by
  unfold setFlip at ran
  by_cases remembered : bench.driver.flip = some flipped
  · rw [if_pos remembered] at ran
    cases ran
    have held := truthful.flip flipped remembered
    exact { truthful with toSteady := truthful.toSteady.skip held }
  · rw [if_neg remembered] at ran
    obtain ⟨⟨first, between, left⟩, told, ran⟩ :=
      Option.bind_eq_some_iff.mp ran
    obtain ⟨used, seen, split, heard⟩ := cmds_told truthful.toSteady sure told
    cases first with
    | false =>
        cases ran
        rw [List.append_nil] at split
        exact (heard.unmoved (split ▸ clean rfl)).truthful truthful
    | true =>
        cases ran
        have panel : between.panel =
            { bench.panel with segment := flipped, com := flipped } := by
          rw [heard.panel, heard.whole rfl, foldl_flip controller truthful.idle]
        refine ⟨⟨heard.steady.lines, heard.steady.released,
          heard.steady.skips⟩, ?_, ?_, ?_⟩
        · rw [panel]
          exact truthful.idle
        · intro other member
          cases member
          rw [panel]
          exact ⟨rfl, rfl⟩
        · have kept := heard.contrast
          dsimp only
          rw [panel, kept]
          exact truthful.contrast

theorem setContrast_truthful {val : Int} (truthful : bench.Truthful)
    (sure : .level false ∉ answers) (clean : Clean answers)
    (ran : bench.setContrast controller val answers = some (ok, after, [])) :
    after.Truthful := by
  unfold setContrast at ran
  generalize UInt8.ofNat (max 0 (min val 255)).toNat = v at ran
  dsimp only at ran
  by_cases remembered : bench.driver.contrast = v.toNat
  · rw [if_pos remembered] at ran
    cases ran
    have held := truthful.contrast.trans remembered
    exact { truthful with toSteady := truthful.toSteady.skip held }
  · rw [if_neg remembered] at ran
    obtain ⟨⟨first, between, left⟩, told, ran⟩ :=
      Option.bind_eq_some_iff.mp ran
    obtain ⟨used, seen, split, heard⟩ := cmd_told truthful.toSteady sure told
    cases first with
    | false =>
        cases ran
        rw [List.append_nil] at split
        exact (heard.unmoved (split ▸ clean)).truthful truthful
    | true =>
        cases ran
        have panel : between.panel = { bench.panel with contrast := v } := by
          rw [heard.panel, heard.whole rfl,
            foldl_contrast controller truthful.idle]
        refine ⟨⟨heard.steady.lines, heard.steady.released,
          heard.steady.skips⟩, ?_, ?_, ?_⟩
        · rw [panel]
          exact truthful.idle
        · have kept := heard.flip
          dsimp only
          rw [panel, kept]
          exact truthful.flip
        · dsimp only
          rw [panel]

/-- The start sequence leaves the natural orientation and the bright contrast,
whether or not the controller knows the two codes of other controllers in it. -/
theorem foldl_init (controller : Controller) :
    INIT.foldl (Panel.command controller) Panel.reset =
      ⟨false, false, 0xCF, none⟩ := by
  have narrow := controller.narrow
  have timing := controller.timing
  cases pump : controller.wide 0x8D <;> cases mode : controller.wide 0x20 <;>
    simp [INIT, Panel.command, Panel.reset, pump, mode, controller.contrast,
      narrow 0x00 (by decide), narrow 0x14 (by decide), narrow 0x2E (by decide),
      narrow 0x40 (by decide), narrow 0xA0 (by decide), narrow 0xA4 (by decide),
      narrow 0xA6 (by decide), narrow 0xAE (by decide), narrow 0xAF (by decide),
      narrow 0xC0 (by decide), timing 0xD5 (by decide), timing 0xA8 (by decide),
      timing 0xD3 (by decide), timing 0xDA (by decide), timing 0xD9 (by decide),
      timing 0xDB (by decide)]

/-- A write that has to be made, with the line taking its level. -/
theorem set_moves {pin : Pin} {level : Bool}
    (apart : bench.driver.gpio.get pin ≠ level) (sure : .level false ∉ answers)
    (ran : bench.set pin level answers = some (after, rest)) :
    after = (bench.move pin level).remember pin level ∧
      .level false ∉ rest := by
  unfold set at ran
  rw [if_neg apart] at ran
  split at ran
  · rename_i took others
    cases took with
    | false => exact absurd List.mem_cons_self sure
    | true =>
        cases ran
        exact ⟨rfl, fun member => sure (List.mem_cons_of_mem _ member)⟩
  · cases ran

theorem open_truthful {panel : Panel} (sure : .level false ∉ answers)
    (ran : openPanel controller panel answers = some (true, after, [])) :
    after.Truthful := by
  obtain ⟨⟨fallen, left⟩, fall, ran⟩ := Option.bind_eq_some_iff.mp ran
  obtain ⟨⟨risen, behind⟩, rise, ran⟩ := Option.bind_eq_some_iff.mp ran
  obtain ⟨rfl, sure⟩ := set_moves (by simp [claimed, Lines.get]) sure fall
  obtain ⟨rfl, sure⟩ := set_moves (by simp [move, remember, Lines.put, Lines.get])
    sure rise
  obtain ⟨⟨first, between, left⟩, started, ran⟩ :=
    Option.bind_eq_some_iff.mp ran
  have steady : Steady ((((claimed panel).move .res false).remember .res
      false).move .res true |>.remember .res true) := by
    refine ⟨rfl, rfl, fun skip member => ?_⟩
    cases member
  obtain ⟨used, seen, split, told⟩ := cmds_told steady sure started
  cases first with
  | false => cases ran
  | true =>
      have start : between.panel = ⟨false, false, 0xCF, none⟩ := by
        rw [told.panel, told.whole rfl]
        exact foldl_init controller
      have truthful : between.Truthful := by
        refine ⟨told.steady, ?_, ?_, ?_⟩
        · rw [start]
        · intro flipped member
          rw [told.flip] at member
          cases member
        · rw [start, told.contrast]
          rfl
      have sureBehind : .level false ∉ left := fun member =>
        sure (split ▸ List.mem_append_right _ member)
      exact setFlip_truthful truthful sureBehind (fun wrong => by cases wrong) ran

theorem step_truthful {action : Call × List Answer} (truthful : bench.Truthful)
    (unhalved : Unhalved action)
    (stepped : step controller bench action = some after) :
    after.Truthful := by
  obtain ⟨call, answers⟩ := action
  obtain ⟨sure, clean⟩ := unhalved
  unfold step at stepped
  split at stepped
  · rename_i ok last ran
    cases stepped
    cases call with
    | setFlip flipped => exact setFlip_truthful truthful sure (fun _ => clean) ran
    | setContrast val => exact setContrast_truthful truthful sure clean ran
    | «show» buf => exact showFrame_truthful truthful sure ran
  · cases stepped

end Bench

/-- In every run in which no line write fails, and no flip or contrast fails
once it has begun, whatever the driver skips is there already. -/
theorem panel_memory_truthful {controller : Controller} {panel : Panel}
    {answers : List Answer} {opened last : Bench}
    {trace : List (Bench × (Call × List Answer))}
    (sure : .level false ∉ answers)
    (opens : Bench.openPanel controller panel answers = some (true, opened, []))
    (run : Run (step controller) opened trace last)
    (along : Along (fun _ action => Unhalved action) trace) :
    ∀ skip ∈ last.skips, skip.Holds := by
  have truthful : last.Truthful :=
    run.invariant along (Bench.open_truthful sure opens)
      fun _ _ _ unhalved stepped truthful =>
        Bench.step_truthful truthful unhalved stepped
  exact truthful.skips

/-- The panel's own controller. -/
def sh1106 : Controller where
  wide code := decide (code ∈ (0x81 :: 0xAD :: TIMING))
  contrast := by decide
  timing code member :=
    decide_eq_true (List.mem_cons_of_mem _ (List.mem_cons_of_mem _ member))
  narrow code member := by
    have apart : NARROW.all (fun code =>
        !decide (code ∈ (0x81 :: 0xAD :: TIMING))) = true := by decide
    simpa using List.all_eq_true.mp apart code member

/-- Every write of the open succeeds. -/
def opening : List Answer :=
  List.replicate 3 (.level true) ++ List.replicate 28 .sent

/-- The bench after such an open: every later command found DC low. -/
def opened : Bench where
  driver := ⟨⟨false, true⟩, some false, 0xCF⟩
  lines := ⟨false, true⟩
  panel := ⟨false, false, 0xCF, none⟩
  skips := List.replicate 27 (.line false false)

theorem opens_opened :
    Bench.openPanel sh1106 Panel.reset opening = some (true, opened, []) := by
  decide +kernel

/-- A flip whose second command fails, and a flip back. -/
def halfFlip : List (Call × List Answer) :=
  [(.setFlip true, [.sent, .cut 0]), (.setFlip false, [])]

def halfTurned : Bench :=
  { opened with
    panel := ⟨true, false, 0xCF, none⟩
    skips := opened.skips ++
      [.line false false, .line false false, .flip false true false] }

/-- The flip back is skipped while half of the panel is turned. -/
theorem panel_half_turned :
    ¬ ∀ (controller : Controller) (panel : Panel) (answers : List Answer)
        (first last : Bench) (trace : List (Bench × (Call × List Answer))),
      Bench.openPanel controller panel answers = some (true, first, []) →
      Run (step controller) first trace last →
        ∀ skip ∈ last.skips, skip.Holds := by
  intro always
  have followed : (follow (step sh1106) opened halfFlip).map Prod.snd =
      some halfTurned := by
    decide +kernel
  obtain ⟨⟨trace, last⟩, found, rfl⟩ := Option.map_eq_some_iff.mp followed
  have held := always sh1106 _ _ _ _ _ opens_opened (run_of_follow found)
    (.flip false true false) (by decide)
  exact absurd held.1 (by decide)

/-- A frame that stops in the pixels of its first page. -/
def cutFrame : Call × List Answer :=
  (.show ⟨List.replicate 1024 0, List.length_replicate⟩,
    [.sent, .level true, .cut 5])

def interrupted : Bench :=
  { opened with
    driver := ⟨⟨true, true⟩, some false, 0xCF⟩
    lines := ⟨true, true⟩
    skips := opened.skips ++ [.line false false] }

def dimming : Call × List Answer :=
  (.setContrast DIM, [.level true, .sent])

def dimmed : Bench :=
  { interrupted with
    driver := ⟨⟨false, true⟩, some false, 0x18⟩
    lines := ⟨false, true⟩
    panel := ⟨false, false, 0x18, none⟩ }

theorem step_cutFrame : step sh1106 opened cutFrame = some interrupted := by
  decide +kernel

theorem step_dimming : step sh1106 interrupted dimming = some dimmed := by
  decide +kernel

theorem panel_memory_truthful_dimmed :
    dimmed.skips ≠ [] ∧ ∀ skip ∈ dimmed.skips, skip.Holds :=
  ⟨by decide, panel_memory_truthful (by decide) opens_opened
    ((Run.stay.move step_cutFrame).move step_dimming) (by
      intro entry member
      simp only [List.nil_append, List.cons_append, List.mem_cons,
        List.not_mem_nil, or_false] at member
      obtain rfl | rfl := member
      · exact ⟨by decide, trivial⟩
      · refine ⟨by decide, fun delivered cut => ?_⟩
        simp [dimming] at cut)⟩

end Oled
