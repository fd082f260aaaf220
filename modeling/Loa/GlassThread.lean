import Loa.OledGlass
import Loa.PanelMemory

/-!
# The thread that owns the glass

A frame may stop anywhere on its way, so the glass shows a stack of frames, the
newest in front.  Nothing below the last frame that was written is ever seen, and
a pass without a failure leaves just its own frame, turned and lit as it asks.
-/

namespace Oled

open LayeredWrites TransitionRun

/-- The thread's panel, and the frames so far with whether each was written. -/
structure Worker where
  station : Station
  drawn : List (Bytes × Bool)

/-- One blit, and what the system answers to each of its three calls. -/
structure Pass where
  blit : Blit
  sized : blit.buf.length = WIDTH * PANEL_PAGES
  flip : List Answer
  contrast : List Answer
  pixels : List Answer

/-- No line write fails, and no flip or contrast fails once it has begun. -/
structure Pass.Unhalved (pass : Pass) : Prop where
  flip : .level false ∉ pass.flip ∧ Clean pass.flip
  contrast : .level false ∉ pass.contrast ∧ Clean pass.contrast
  pixels : .level false ∉ pass.pixels

namespace Worker

variable (display : Display)

/-- A call that has used all of its answers. -/
def settled : Option (Bool × Station × List Answer) → Option (Bool × Station)
  | some (ok, station, []) => some (ok, station)
  | _ => none

/-- The thread clears the panel first, and goes on even where that fails. -/
def start (station : Station) (answers : List Answer) : Option Worker :=
  (settled (station.clear display answers)).map fun (ok, station) =>
    { station, drawn := [(List.replicate (WIDTH * PANEL_PAGES) 0, ok)] }

/-- One pass of `glass_worker`: a flip that fails ends it, a contrast that fails
does not. -/
def pass (worker : Worker) (entry : Pass) : Option Worker :=
  (settled (worker.station.setFlip display entry.blit.flip entry.flip)).bind
    fun (turned, station) =>
      if turned then
        (settled (station.setContrast display
          (if entry.blit.dim then DIM else BRIGHT) entry.contrast)).bind
          fun (_, station) =>
            (settled (station.showFrame display entry.blit.buf
              entry.pixels)).map fun (ok, station) =>
                { station, drawn := worker.drawn ++ [(entry.blit.buf, ok)] }
      else
        some { station, drawn := worker.drawn ++ [(entry.blit.buf, false)] }

/-- A write of the memory that a frame of the thread made. -/
def Wrote (write : Nat × (Nat → UInt8)) (entry : Bytes × Bool) : Prop :=
  write.2 = Station.content entry.1 ∧
    (entry.2 = true → write.1 = WIDTH * PANEL_PAGES)

theorem contents_eq {writes : List (Nat × (Nat → UInt8))}
    {drawn : List (Bytes × Bool)} (wrote : List.Forall₂ Wrote writes drawn) :
    writes.map Prod.snd = drawn.map fun entry => Station.content entry.1 := by
  induction wrote with
  | nil => rfl
  | cons one _ induction => rw [List.map_cons, List.map_cons, one.1, induction]

/-- The memory shows the writes of the thread's frames, and all that the driver
remembers is so. -/
structure Stacked (initial : Nat → UInt8) (worker : Worker) : Prop where
  truthful : worker.station.bench.Truthful
  layers : ∃ writes, List.Forall₂ Wrote writes worker.drawn ∧
    worker.station.memory.shown = picture initial writes

variable {display} {station after : Station} {ok : Bool}
  {answers rest : List Answer} {initial : Nat → UInt8} {worker later : Worker}

theorem settled_eq_some {result : Option (Bool × Station × List Answer)} :
    settled result = some (ok, after) ↔ result = some (ok, after, []) := by
  unfold settled
  split
  · simp
  · rename_i unsettled
    refine ⟨fun wrong => by simp at wrong, fun same => ?_⟩
    exact absurd same (unsettled _ _)

/-- One more frame over the others. -/
theorem Stacked.covered {drawn : List (Bytes × Bool)} {buf : Bytes}
    {writes : List (Nat × (Nat → UInt8))} {reach : Nat}
    (wrote : List.Forall₂ Wrote writes drawn)
    (shown : station.memory.shown = picture initial writes)
    (truthful : after.bench.Truthful)
    (whole : ok = true → reach = WIDTH * PANEL_PAGES)
    (covers : after.memory.shown =
      cover reach (Station.content buf) station.memory.shown) :
    Stacked initial { station := after, drawn := drawn ++ [(buf, ok)] } where
  truthful := truthful
  layers := by
    refine ⟨writes ++ [(reach, Station.content buf)],
      List.rel_append wrote (.cons ⟨rfl, whole⟩ .nil), ?_⟩
    rw [picture_concat, ← shown]
    exact covers

/-- A frame of the thread, as far as it is sent. -/
theorem showFrame_stacked {drawn : List (Bytes × Bool)} {buf : Bytes}
    (sized : buf.length = WIDTH * PANEL_PAGES)
    {writes : List (Nat × (Nat → UInt8))}
    (wrote : List.Forall₂ Wrote writes drawn)
    (shown : station.memory.shown = picture initial writes)
    (truthful : station.bench.Truthful) (sure : .level false ∉ answers)
    (ran : station.showFrame display buf answers = some (ok, after, rest)) :
    Stacked initial { station := after, drawn := drawn ++ [(buf, ok)] } := by
  obtain ⟨reach, whole, covers⟩ := Station.showFrame_shown sized
    truthful.toSteady truthful.idle sure ran
  exact Stacked.covered wrote shown
    (Bench.showFrame_truthful truthful sure
      ((Station.showFrom_refines buf _).ran ran)) whole covers

theorem start_stacked (truthful : station.bench.Truthful)
    (sure : .level false ∉ answers)
    (starts : start display station answers = some worker) :
    Stacked station.memory.shown worker := by
  obtain ⟨⟨ok, after⟩, cleared, rfl⟩ := Option.map_eq_some_iff.mp starts
  exact @showFrame_stacked display station after ok answers []
    station.memory.shown [] _ List.length_replicate [] .nil rfl truthful sure
    (settled_eq_some.mp cleared)

theorem pass_stacked {entry : Pass} (stacked : Stacked initial worker)
    (unhalved : entry.Unhalved)
    (passed : worker.pass display entry = some later) :
    Stacked initial later := by
  obtain ⟨truthful, writes, wrote, shown⟩ := stacked
  obtain ⟨⟨turned, flipped⟩, ranFlip, passed⟩ :=
    Option.bind_eq_some_iff.mp passed
  have ranFlip := settled_eq_some.mp ranFlip
  have truthfulFlip := Bench.setFlip_truthful truthful unhalved.flip.1
    (fun _ => unhalved.flip.2) ((Station.setFlip_refines _).ran ranFlip)
  have cellsFlip := Station.setFlip_cells truthful.toSteady unhalved.flip.1 ranFlip
  have shownFlip : flipped.memory.shown = picture initial writes := by
    rw [← shown]
    funext cell
    exact congrFun cellsFlip _
  cases turned with
  | false =>
      cases passed
      -- A flip that failed leaves the frame unsent.
      have unsent : flipped.memory.shown =
          cover 0 (Station.content entry.blit.buf) flipped.memory.shown := by
        funext cell
        rw [cover, if_neg (Nat.not_lt_zero cell)]
      exact Stacked.covered wrote shownFlip truthfulFlip
        (fun wrong => absurd wrong Bool.false_ne_true) unsent
  | true =>
      obtain ⟨⟨lit, dimmed⟩, ranContrast, passed⟩ :=
        Option.bind_eq_some_iff.mp passed
      have ranContrast := settled_eq_some.mp ranContrast
      have truthfulContrast := Bench.setContrast_truthful truthfulFlip
        unhalved.contrast.1 unhalved.contrast.2
        ((Station.setContrast_refines _).ran ranContrast)
      have cellsContrast := Station.setContrast_cells truthfulFlip.toSteady
        unhalved.contrast.1 ranContrast
      have shownContrast : dimmed.memory.shown = picture initial writes := by
        rw [← shownFlip]
        funext cell
        exact congrFun cellsContrast _
      obtain ⟨⟨ok, last⟩, ranShow, rfl⟩ := Option.map_eq_some_iff.mp passed
      exact showFrame_stacked entry.sized wrote shownContrast truthfulContrast
        unhalved.pixels (settled_eq_some.mp ranShow)

theorem open_truthful {panel : Panel} {memory : Memory}
    (sure : .level false ∉ answers)
    (opens : Station.openPanel display panel memory answers =
      some (true, station, [])) : station.bench.Truthful := by
  have refines := @Station.openPanel_refines display panel memory answers
  rw [opens] at refines
  exact Bench.open_truthful sure refines.symm

theorem run_stacked {first last : Worker} {trace : List (Worker × Pass)}
    (stacked : Stacked initial first)
    (run : Run (pass display) first trace last)
    (along : Along (fun _ entry => entry.Unhalved) trace) :
    Stacked initial last :=
  run.invariant along stacked fun _ _ _ unhalved passed stacked =>
    pass_stacked stacked unhalved passed

end Worker

/-- The frames in the order in which they cover each other. -/
def Worker.frames (initial : Nat → UInt8) (worker : Worker) :
    List (Nat → UInt8) :=
  initial :: worker.drawn.map fun entry => Station.content entry.1

/-- In every run of the thread that owns the glass in which no line write fails,
and no flip or contrast fails once it has begun, the cells behind the glass show
a stack of its frames, newer ones in front, with nothing below the last frame
that was written. -/
theorem glass_shows_newest {display : Display} {panel : Panel} {memory : Memory}
    {opening clearing : List Answer} {station : Station} {first last : Worker}
    {trace : List (Worker × Pass)} (sureOpening : .level false ∉ opening)
    (opens : Station.openPanel display panel memory opening =
      some (true, station, []))
    (sureClearing : .level false ∉ clearing)
    (starts : Worker.start display station clearing = some first)
    (run : Run (Worker.pass display) first trace last)
    (along : Along (fun _ entry => entry.Unhalved) trace) :
    ∃ layer : Nat → Nat, Antitone layer ∧
      (∀ cell, some (last.station.memory.shown cell) =
        ((last.frames station.memory.shown)[layer cell]?).map
          fun content => content cell) ∧
      ∀ number, (last.drawn[number]?).map Prod.snd = some true →
        ∀ cell < WIDTH * PANEL_PAGES, number + 1 ≤ layer cell := by
  obtain ⟨-, writes, wrote, shown⟩ := Worker.run_stacked
    (Worker.start_stacked (Worker.open_truthful sureOpening opens) sureClearing
      starts) run along
  have contents := Worker.contents_eq wrote
  refine ⟨layer writes, layer_antitone writes, fun cell => ?_,
    fun number written cell inside => ?_⟩
  · rw [shown, picture_eq, contents]
    rfl
  · obtain ⟨entry, there, done⟩ := Option.map_eq_some_iff.mp written
    obtain ⟨within, same⟩ := List.getElem?_eq_some_iff.mp there
    have bound : number < writes.length := wrote.length_eq ▸ within
    have one := wrote.get bound within
    apply le_layer bound
    rw [List.get_eq_getElem, List.get_eq_getElem, same] at one
    rw [one.2 done]
    exact inside

/-- A pixel of the glass: the segment outputs may run from the other side, and
the rows from the other end. -/
def Station.glass (station : Station) (x y : Nat) : Bool :=
  let column := if station.bench.panel.segment then 131 - (2 + x) else 2 + x
  let row := if station.bench.panel.com then 63 - y else y
  litAt (station.memory.cells (row / 8, column)) (row % 8)

/-- A blit's frame. -/
def Pass.frame (pass : Pass) : Frame where
  buf := pass.blit.buf
  sized := pass.sized

/-- No write of a pass fails. -/
def Pass.Clear (pass : Pass) : Prop :=
  ∀ answer ∈ pass.flip ++ pass.contrast ++ pass.pixels,
    answer = .sent ∨ answer = .level true

theorem Pass.Clear.unhalved {entry : Pass} (clear : entry.Clear) :
    entry.Unhalved := by
  have none : ∀ answers, (∀ answer ∈ answers,
      answer ∈ entry.flip ++ entry.contrast ++ entry.pixels) →
      .level false ∉ answers ∧ Clean answers := by
    intro answers among
    refine ⟨fun member => ?_, fun delivered member => ?_⟩
    · obtain wrong | wrong := clear _ (among _ member) <;> cases wrong
    · obtain wrong | wrong := clear _ (among _ member) <;> cases wrong
  exact
    { flip := none _ fun answer member => by simp [member]
      contrast := none _ fun answer member => by simp [member]
      pixels := (none _ fun answer member => by simp [member]).1 }

/-- A call whose answers are no errors returned. -/
theorem Station.Sound.returned
    {call : Station → List Answer → Option (Bool × Station × List Answer)}
    (sound : Station.Sound call) {station after : Station} {ok : Bool}
    {answers rest : List Answer}
    (clear : ∀ answer ∈ answers, answer = .sent ∨ answer = .level true)
    (ran : call station answers = some (ok, after, rest)) : ok = true := by
  cases ok with
  | true => rfl
  | false =>
      obtain ⟨delivered, member⟩ := (sound _ _ _ _ _ ran).2 rfl
      obtain wrong | wrong := clear _ member <;> cases wrong

/-- What the glass shows of a panel whose memory has a frame. -/
theorem Station.glass_frame {station : Station} {frame : Frame} {flipped : Bool}
    (shown : ∀ cell < WIDTH * PANEL_PAGES,
      station.memory.shown cell = Station.content frame.buf cell)
    (segment : station.bench.panel.segment = flipped)
    (com : station.bench.panel.com = flipped) {x y : Nat}
    (xOn : x < FRAME_WIDTH) (yOn : y < FRAME_HEIGHT) :
    station.glass x y =
      frame.bit (if flipped then FRAME_WIDTH - 1 - x else x)
        (if flipped then FRAME_HEIGHT - 1 - y else y) := by
  have pixel : ∀ column row, column < FRAME_WIDTH → row < FRAME_HEIGHT →
      litAt (station.memory.cells (row / 8, 2 + column)) (row % 8) =
        frame.bit column row := by
    intro column row columnOn rowOn
    have cell := shown (row / 8 * WIDTH + column) (by
      unfold FRAME_WIDTH FRAME_HEIGHT at *
      unfold WIDTH PANEL_PAGES
      omega)
    have place : (row / 8 * WIDTH + column) / WIDTH = row / 8 ∧
        (row / 8 * WIDTH + column) % WIDTH = column := by
      unfold FRAME_WIDTH at columnOn
      unfold WIDTH
      omega
    unfold Memory.shown Station.content at cell
    rw [place.1, place.2] at cell
    rw [cell, Frame.bit, Nat.shiftRight_eq_div_pow]
    rfl
  unfold Station.glass
  dsimp only
  rw [segment, com]
  cases flipped with
  | false => exact pixel x y xOn yOn
  | true =>
      have mirrored : 131 - (2 + x) = 2 + (FRAME_WIDTH - 1 - x) := by
        unfold FRAME_WIDTH at *
        omega
      have turned : 63 - y = FRAME_HEIGHT - 1 - y := rfl
      simp only [if_true, mirrored, turned]
      apply pixel
      · unfold FRAME_WIDTH at *
        omega
      · unfold FRAME_HEIGHT at *
        omega

namespace Worker

variable {display : Display} {worker later : Worker} {entry : Pass}

/-- A pass without a failure leaves its frame in the cells, and its orientation
and its contrast in the driver. -/
theorem pass_whole (truthful : worker.station.bench.Truthful)
    (clear : entry.Clear) (passed : worker.pass display entry = some later) :
    later.drawn = worker.drawn ++ [(entry.blit.buf, true)] ∧
      later.station.bench.driver.flip = some entry.blit.flip ∧
      later.station.bench.driver.contrast =
        (if entry.blit.dim then DIM else BRIGHT) ∧
      ∀ cell < WIDTH * PANEL_PAGES,
        later.station.memory.shown cell = Station.content entry.blit.buf cell := by
  have unhalved := clear.unhalved
  obtain ⟨⟨turned, flipped⟩, ranFlip, passed⟩ :=
    Option.bind_eq_some_iff.mp passed
  have ranFlip := settled_eq_some.mp ranFlip
  obtain rfl : turned = true := (Station.setFlip_sound _).returned
    (fun answer member => clear answer (by simp [member])) ranFlip
  have truthfulFlip := Bench.setFlip_truthful truthful unhalved.flip.1
    (fun _ => unhalved.flip.2) ((Station.setFlip_refines _).ran ranFlip)
  have flip := Station.setFlip_remembers ranFlip
  obtain ⟨⟨lit, dimmed⟩, ranContrast, passed⟩ := Option.bind_eq_some_iff.mp passed
  have ranContrast := settled_eq_some.mp ranContrast
  obtain rfl : lit = true := (Station.setContrast_sound _).returned
    (fun answer member => clear answer (by simp [member])) ranContrast
  have truthfulContrast := Bench.setContrast_truthful truthfulFlip
    unhalved.contrast.1 unhalved.contrast.2
    ((Station.setContrast_refines _).ran ranContrast)
  have contrast := Station.setContrast_remembers
    (by cases entry.blit.dim <;> decide) ranContrast
  obtain ⟨⟨ok, last⟩, ranShow, rfl⟩ := Option.map_eq_some_iff.mp passed
  have ranShow := settled_eq_some.mp ranShow
  obtain rfl : ok = true := (Station.showFrom_sound _ _).returned
    (fun answer member => clear answer (by simp [member])) ranShow
  have kept := Bench.showFrom_unmoved (fun _ member => List.mem_range.mp member)
    truthfulContrast.toSteady truthfulContrast.idle unhalved.pixels
    ((Station.showFrom_refines _ _).ran ranShow)
  have turn := Station.setContrast_flip truthfulFlip.toSteady
    unhalved.contrast.1 ranContrast
  obtain ⟨reach, whole, covers⟩ := Station.showFrame_shown entry.sized
    truthfulContrast.toSteady truthfulContrast.idle unhalved.pixels ranShow
  refine ⟨rfl, kept.flip.trans (turn.trans flip), kept.contrast.trans contrast,
    fun cell inside => ?_⟩
  change last.memory.shown cell = _
  rw [covers, cover, whole rfl, if_pos inside]

end Worker

/-- After any run of the thread in which no line write fails, and no flip or
contrast fails once it has begun, a pass without a failure leaves just its own
frame on the glass, turned and lit as the blit asks. -/
theorem clear_pass_shown {display : Display} {panel : Panel} {memory : Memory}
    {opening clearing : List Answer} {station : Station}
    {first worker later : Worker} {trace : List (Worker × Pass)} {entry : Pass}
    (sureOpening : .level false ∉ opening)
    (opens : Station.openPanel display panel memory opening =
      some (true, station, []))
    (sureClearing : .level false ∉ clearing)
    (starts : Worker.start display station clearing = some first)
    (run : Run (Worker.pass display) first trace worker)
    (along : Along (fun _ entry => entry.Unhalved) trace)
    (clear : entry.Clear) (passed : worker.pass display entry = some later) :
    later.drawn = worker.drawn ++ [(entry.blit.buf, true)] ∧
      later.station.bench.panel.contrast =
        (if entry.blit.dim then 0x18 else 0xCF) ∧
      ∀ x < FRAME_WIDTH, ∀ y < FRAME_HEIGHT, later.station.glass x y =
        entry.frame.bit
          (if entry.blit.flip then FRAME_WIDTH - 1 - x else x)
          (if entry.blit.flip then FRAME_HEIGHT - 1 - y else y) := by
  have stacked := Worker.run_stacked
    (Worker.start_stacked (Worker.open_truthful sureOpening opens) sureClearing
      starts) run along
  have truthful := (Worker.pass_stacked stacked clear.unhalved passed).truthful
  obtain ⟨drawn, flip, contrast, shown⟩ :=
    Worker.pass_whole stacked.truthful clear passed
  obtain ⟨segment, com⟩ := truthful.flip _ flip
  refine ⟨drawn, ?_, fun x xOn y yOn =>
    Station.glass_frame shown segment com xOn yOn⟩
  have register := truthful.contrast
  rw [contrast] at register
  apply UInt8.toNat_inj.mp
  cases dim : entry.blit.dim <;> simp [dim, DIM, BRIGHT] at register ⊢ <;> omega

/-- The panel's own controller, whose pointer stays at the last column. -/
def sh1106Display : Display where
  toController := sh1106
  advance column := min (column + 1) 131
  advances _ below := Nat.min_eq_left below

def blank : Memory :=
  ⟨fun _ => 0, (0, 0)⟩

/-- Eight pages without a failure, where DC is low at first. -/
def wholeFrame : List Answer :=
  ((List.replicate 8 [.level true, .sent, .level true, .sent]).flatten).tail

theorem opening_returns :
    (Station.openPanel sh1106Display Panel.reset blank opening).isSome := by
  decide +kernel

def openedStation : Bool × Station × List Answer :=
  (Station.openPanel sh1106Display Panel.reset blank opening).get opening_returns

theorem opens_openedStation :
    Station.openPanel sh1106Display Panel.reset blank opening =
      some (true, openedStation.2.1, []) := by
  have returned : openedStation.1 = true := by decide +kernel
  have settled : openedStation.2.2 = [] := by decide +kernel
  have got := (Option.some_get opening_returns).symm
  change _ = some (openedStation.1, openedStation.2.1, openedStation.2.2) at got
  rw [returned, settled] at got
  exact got

def clearedWorker : Worker :=
  (Worker.start sh1106Display openedStation.2.1 wholeFrame).get (by decide +kernel)

theorem starts_clearedWorker :
    Worker.start sh1106Display openedStation.2.1 wholeFrame =
      some clearedWorker :=
  (Option.some_get _).symm

/-- A frame that stops in the pixels of its first page. -/
def cutPass : Pass where
  blit := ⟨0, List.replicate 1024 0xFF, false, false⟩
  sized := List.length_replicate
  flip := []
  contrast := []
  pixels := [.level true, .sent, .level true, .cut 5]

def cutWorker : Worker :=
  (clearedWorker.pass sh1106Display cutPass).get (by decide +kernel)

theorem runs_cutWorker :
    Run (Worker.pass sh1106Display) clearedWorker [(clearedWorker, cutPass)]
      cutWorker :=
  Run.stay.move (Option.some_get _).symm

theorem along_cutPass :
    Along (fun _ entry => entry.Unhalved) [(clearedWorker, cutPass)] := by
  intro entry member
  obtain rfl := List.mem_singleton.mp member
  exact
    { flip := ⟨by decide, fun _ wrong => by cases wrong⟩
      contrast := ⟨by decide, fun _ wrong => by cases wrong⟩
      pixels := by decide }

/-- The five pixels of the cut frame are in front of the cleared cells. -/
theorem glass_shows_newest_cut :
    cutWorker.drawn.map Prod.snd = [true, false] ∧
      ∃ layer : Nat → Nat, Antitone layer ∧
        (∀ cell, some (cutWorker.station.memory.shown cell) =
          ((cutWorker.frames openedStation.2.1.memory.shown)[layer cell]?).map
            fun content => content cell) ∧
        ∀ number, (cutWorker.drawn[number]?).map Prod.snd = some true →
          ∀ cell < WIDTH * PANEL_PAGES, number + 1 ≤ layer cell :=
  ⟨by decide +kernel, glass_shows_newest (by decide) opens_openedStation
    (by decide) starts_clearedWorker runs_cutWorker along_cutPass⟩

/-- A frame turned and dimmed, behind the cut one. -/
def turnedPass : Pass where
  blit := ⟨1, List.replicate 1024 0x0F, true, true⟩
  sized := List.length_replicate
  flip := [.level true, .sent, .sent]
  contrast := [.sent]
  pixels := wholeFrame

def turnedWorker : Worker :=
  (cutWorker.pass sh1106Display turnedPass).get (by decide +kernel)

theorem clear_pass_shown_turned :
    turnedWorker.drawn = cutWorker.drawn ++ [(turnedPass.blit.buf, true)] ∧
      turnedWorker.station.bench.panel.contrast = 0x18 ∧
      ∀ x < FRAME_WIDTH, ∀ y < FRAME_HEIGHT, turnedWorker.station.glass x y =
        turnedPass.frame.bit (FRAME_WIDTH - 1 - x) (FRAME_HEIGHT - 1 - y) :=
  clear_pass_shown (by decide) opens_openedStation (by decide)
    starts_clearedWorker runs_cutWorker along_cutPass (by
      intro answer member
      have listed : (turnedPass.flip ++ turnedPass.contrast ++
          turnedPass.pixels).all (fun answer =>
            decide (answer = .sent ∨ answer = .level true)) = true := by
        decide
      exact of_decide_eq_true (List.all_eq_true.mp listed answer member))
    (Option.some_get _).symm

end Oled
