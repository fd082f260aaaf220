import Loa.OledFace

/-!
# The face's renderer

Held state in, 1024 bytes out.  The renderer keeps a framebuffer, an animation
object that is rebuilt when the mode or the text changes, and the clock of the
wash.  Two of its laws are settled here: what a face that is off shows, and how
little of a renderer's past is in its pictures.
-/

namespace Oled

/-- `ring_dark`: the sweep names the dark ring by a row with that code. -/
def ringDark (st : RenderState) : Bool :=
  st.fault.any fun f => f.rows.any fun r => r.code == "RING DARK"

/-- `face_state`: pain takes the face over, but the bench's own pages only when
the ring is dark. -/
def faceState (st : RenderState) : RenderState :=
  let cond := rendererCondition st
  let dark := ringDark st
  if (cond = "hurts" ∨ cond = "mute" ∨ dark) ∧
      (st.mode ≠ "ripperdoc" ∨ dark) then
    { st with mode := "ripperdoc", page := "fault" }
  else st

/-- The mode after the take-over; none is the scope. -/
def faceMode (st : RenderState) : String :=
  if (faceState st).mode = "" then "scope" else (faceState st).mode

def WASH_EVERY_S : F64 := 300

def WASH_SECS : F64 := 5

/-- A frame and the clocks that decide what gets drawn on it. -/
structure FaceRenderer (p : Platform) where
  frame : Frame
  anim : Option (Animation p.rand.StdRng)
  key : Option (String × Option String)
  lastT : F64
  nextWash : F64
  washUntil : F64
  washBlink : UInt32
  rng : p.rand.StdRng

/-- So many random bytes. -/
def genBytes (p : Platform) : Nat → p.rand.StdRng → Bytes × p.rand.StdRng
  | 0, rng => ([], rng)
  | count + 1, rng =>
      let (byte, rng) := p.rand.genU8 rng
      let (rest, rng) := genBytes p count rng
      (byte :: rest, rng)

theorem length_genBytes (p : Platform) (count : Nat) (rng : p.rand.StdRng) :
    (genBytes p count rng).1.length = count := by
  induction count generalizing rng with
  | zero => rfl
  | succ count induction => exact congrArg Nat.succ (induction _)

/-- A frame of random bytes. -/
def static (p : Platform) (rng : p.rand.StdRng) : Frame where
  buf := (genBytes p (FRAME_PAGES * FRAME_WIDTH) rng).1
  sized := length_genBytes p _ rng

namespace FaceRenderer

variable {p : Platform}

def new (p : Platform) (now : F64) : FaceRenderer p where
  frame := Frame.new
  anim := none
  key := none
  lastT := now
  nextWash := now + WASH_EVERY_S
  washUntil := 0
  washBlink := 0
  rng := p.rand.seedFromU64 (p.toBits now)

/-- A wash that is due begins; a face that is off needs none. -/
def arm (r : FaceRenderer p) (mode : String) (t : F64) : FaceRenderer p :=
  if mode ≠ "off" ∧ r.nextWash ≤ t then
    { r with
      washUntil := t + WASH_SECS
      nextWash := t + WASH_EVERY_S
      washBlink := 0 }
  else r

/-- The wash is in its blinking part, which comes first. -/
def Blinks (r : FaceRenderer p) (t : F64) : Prop :=
  t - (r.washUntil - WASH_SECS) < 2

instance (r : FaceRenderer p) (t : F64) : Decidable (r.Blinks t) :=
  inferInstanceAs (Decidable (_ < _))

/-- Full-field blink, then dense static. -/
def wash (r : FaceRenderer p) (t : F64) : Bytes × FaceRenderer p :=
  if r.Blinks t then
    let frame := r.frame.fill (if r.washBlink % 2 = 0 then 0xFF else 0x00)
    (frame.frameBytes, { r with frame, washBlink := r.washBlink + 1 })
  else
    let frame := static p r.rng
    (frame.frameBytes,
      { r with
        frame
        rng := (genBytes p (FRAME_PAGES * FRAME_WIDTH) r.rng).2 })

/-- The animation object is held while the mode and the text stay. -/
def rebuild (r : FaceRenderer p) (mode : String) (st : RenderState) (t : F64) :
    FaceRenderer p :=
  if r.key = some (mode, st.text) then r
  else
    { r with
      key := some (mode, st.text)
      anim := makeRenderer p mode st t r.rng }

/-- Draw the animation on a cleared frame. -/
def paint (r : FaceRenderer p) (dt : F64) (st : RenderState) (t : F64) :
    Bytes × FaceRenderer p :=
  match r.anim with
  | none => (r.frame.clear.frameBytes, { r with frame := r.frame.clear })
  | some a =>
      let (a, frame) := (a.tick p dt t).draw p r.frame.clear t st
      (frame.frameBytes, { r with anim := some a, frame })

/-- One frame: the held state and the wall clock go in, 1024 bytes come out. -/
def render (r : FaceRenderer p) (st : RenderState) (t : F64) :
    Bytes × FaceRenderer p :=
  let mode := faceMode st
  let st := faceState st
  let dt := t - r.lastT
  let r := { r with lastT := t }.arm mode t
  if t < r.washUntil then r.wash t
  else (r.rebuild mode st t).paint dt st t

/-- The renderers that some history of frames leads to. -/
inductive Reached (p : Platform) : FaceRenderer p → Prop
  | new (now : F64) : Reached p (new p now)
  | render {r : FaceRenderer p} (reached : Reached p r) (st : RenderState)
      (t : F64) : Reached p (r.render st t).2

/-- The modes whose objects carry no memory. -/
def Forgets (mode : String) : Prop :=
  mode ≠ "scope" ∧ mode ≠ "showoff"

/-- The object of a mode without a memory, by the mode and the text alone. -/
def object (p : Platform) (mode : String) (text : Option String) :
    Option (Animation p.rand.StdRng) :=
  if mode = "off" then none
  else if mode = "ecg" then some (.ecg {})
  else if mode = "ripple" then some (.ripple {})
  else if mode = "noise" then some (.noise {})
  else if mode = "text" then
    some (.marquee { text := (text.filter fun s => s ≠ "").getD "LOA" })
  else if mode = "ripperdoc" then some .ripperdoc
  else some (.marquee { text := "?? " ++ mode })

instance (mode : String) : Decidable (Forgets mode) :=
  inferInstanceAs (Decidable (_ ∧ _))

theorem makeRenderer_eq {mode : String} (forgets : Forgets mode)
    (st : RenderState) (t : F64) (rng : p.rand.StdRng) :
    makeRenderer p mode st t rng = object p mode st.text := by
  unfold makeRenderer object
  simp only [if_neg forgets.1, if_neg forgets.2]

/-- An object without a memory stays as it is when it draws. -/
def Still (anim : Option (Animation p.rand.StdRng)) : Prop :=
  ∀ a ∈ anim, ∀ dt now frame t st,
    a.tick p dt now = a ∧ (a.draw p frame t st).1 = a

theorem still_object (mode : String) (text : Option String) :
    Still (object p mode text) := by
  intro a member dt now frame t st
  unfold object at member
  split_ifs at member <;> cases member <;> exact ⟨rfl, rfl⟩

/-- The held object is the one of the key, where the mode has no memory. -/
def Kept (r : FaceRenderer p) : Prop :=
  ∀ mode text, r.key = some (mode, text) → Forgets mode →
    r.anim = object p mode text

/-- The clocks, the frame and the generator are of no consequence to it. -/
theorem Kept.of_same {r other : FaceRenderer p} (kept : r.Kept)
    (key : other.key = r.key) (anim : other.anim = r.anim) : other.Kept := by
  intro mode text same forgets
  rw [anim]
  exact kept mode text (key ▸ same) forgets

theorem kept_arm {r : FaceRenderer p} (kept : r.Kept) (mode : String) (t : F64) :
    (r.arm mode t).Kept := by
  refine kept.of_same ?_ ?_
  · unfold arm
    split <;> rfl
  · unfold arm
    split <;> rfl

theorem kept_wash {r : FaceRenderer p} (kept : r.Kept) (t : F64) :
    (r.wash t).2.Kept := by
  refine kept.of_same ?_ ?_
  · unfold wash
    split <;> rfl
  · unfold wash
    split <;> rfl

theorem rebuild_key (r : FaceRenderer p) (mode : String) (st : RenderState)
    (t : F64) : (r.rebuild mode st t).key = some (mode, st.text) := by
  unfold rebuild
  split
  · assumption
  · rfl

theorem kept_rebuild {r : FaceRenderer p} (kept : r.Kept) (mode : String)
    (st : RenderState) (t : F64) : (r.rebuild mode st t).Kept := by
  unfold rebuild
  split
  · exact kept
  · intro other text same forgets
    cases same
    exact makeRenderer_eq forgets st t r.rng

theorem kept_paint {r : FaceRenderer p} (kept : r.Kept) (dt : F64)
    (st : RenderState) (t : F64) : (r.paint dt st t).2.Kept := by
  unfold paint
  split
  · rename_i none
    intro mode text same forgets
    exact kept mode text same forgets
  · rename_i a held
    intro mode text same forgets
    have which := kept mode text same forgets
    have still : Still r.anim := which ▸ still_object mode text
    have ticked := (still a held dt t r.frame.clear t st).1
    have drawn := (still a held dt t r.frame.clear t st).2
    rw [← which, held]
    dsimp only
    rw [ticked, drawn]

theorem Reached.kept {r : FaceRenderer p} (reached : Reached p r) : r.Kept := by
  induction reached with
  | new now =>
      intro mode text same
      cases same
  | @render r reached st t induction =>
      have timed : ({ r with lastT := t } : FaceRenderer p).Kept :=
        induction.of_same rfl rfl
      have armed : ({ r with lastT := t }.arm (faceMode st) t).Kept :=
        kept_arm timed _ t
      unfold FaceRenderer.render
      dsimp only
      split
      · exact kept_wash armed t
      · exact kept_paint (kept_rebuild armed _ _ t) _ _ t

/-- The bytes of a frame without a wash, for a mode without a memory. -/
def picture (p : Platform) (st : RenderState) (t : F64) : Bytes :=
  match object p (faceMode st) (faceState st).text with
  | none => Frame.new.frameBytes
  | some a => (a.draw p Frame.new t (faceState st)).2.frameBytes

theorem clear_eq (frame : Frame) : frame.clear = Frame.new := by
  apply Frame.ext
  change frame.buf.map (fun _ => 0) = List.replicate _ 0
  rw [List.map_const', frame.sized]

theorem paint_eq {r : FaceRenderer p} (kept : r.Kept) {st : RenderState}
    (forgets : Forgets (faceMode st)) (dt t : F64) :
    ((r.rebuild (faceMode st) (faceState st) t).paint dt (faceState st) t).1 =
      picture p st t := by
  have anim := kept_rebuild kept (faceMode st) (faceState st) t _ _
    (rebuild_key r _ _ t) forgets
  have still : Still (object p (faceMode st) (faceState st).text) :=
    still_object _ _
  unfold paint picture
  rw [anim, clear_eq]
  split
  · rfl
  · rename_i a held
    have ticked := (still a held dt t Frame.new t (faceState st)).1
    dsimp only
    rw [ticked]

/-- No wash is running at this time, and none is due. -/
def Quiet (r : FaceRenderer p) (st : RenderState) (t : F64) : Prop :=
  r.washUntil ≤ t ∧ (faceMode st ≠ "off" → t < r.nextWash)

theorem arm_quiet {r : FaceRenderer p} {st : RenderState} {t : F64}
    (quiet : r.Quiet st t) : r.arm (faceMode st) t = r := by
  refine if_neg fun due => ?_
  exact absurd due.2 (not_le.mpr (quiet.2 due.1))

theorem render_quiet {r : FaceRenderer p} (reached : Reached p r)
    {st : RenderState} {t : F64} (quiet : r.Quiet st t)
    (forgets : Forgets (faceMode st)) :
    (r.render st t).1 = picture p st t := by
  have armed : { r with lastT := t }.arm (faceMode st) t =
      { r with lastT := t } := arm_quiet quiet
  have kept : ({ r with lastT := t } : FaceRenderer p).Kept := reached.kept
  unfold render
  dsimp only
  rw [armed, if_neg (not_lt.mpr quiet.1)]
  exact paint_eq kept forgets _ t

/-- Two renderers with any past draw the same picture of the same held state at
the same time, where neither has a wash to show and the mode keeps no memory of
its own. -/
theorem face_has_no_memory {first second : FaceRenderer p}
    (firstReached : Reached p first) (secondReached : Reached p second)
    {st : RenderState} {t : F64} (firstQuiet : first.Quiet st t)
    (secondQuiet : second.Quiet st t) (forgets : Forgets (faceMode st)) :
    (first.render st t).1 = (second.render st t).1 := by
  rw [render_quiet firstReached firstQuiet forgets,
    render_quiet secondReached secondQuiet forgets]

/-- The wash at this time is dark by chance: a dark turn of the blink, or
nothing but zeros from the generator. -/
def DarkWash (r : FaceRenderer p) (t : F64) : Prop :=
  if r.Blinks t then r.washBlink % 2 ≠ 0
  else ∀ byte ∈ (genBytes p (FRAME_PAGES * FRAME_WIDTH) r.rng).1, byte = 0

theorem fill_dark_iff (frame : Frame) (value : UInt8) :
    (∀ byte ∈ (frame.fill value).frameBytes, byte = 0) ↔ value = 0 := by
  have written : (frame.fill value).frameBytes =
      List.replicate (FRAME_PAGES * FRAME_WIDTH) value := by
    change frame.buf.map (fun _ => value) = _
    rw [List.map_const', frame.sized]
  have some : FRAME_PAGES * FRAME_WIDTH ≠ 0 := by decide
  rw [written]
  constructor
  · intro dark
    exact dark value (List.mem_replicate.mpr ⟨some, rfl⟩)
  · rintro rfl byte member
    exact List.eq_of_mem_replicate member

theorem wash_dark_iff (r : FaceRenderer p) (t : F64) :
    (∀ byte ∈ (r.wash t).1, byte = 0) ↔ r.DarkWash t := by
  unfold wash DarkWash
  by_cases blinks : r.Blinks t
  · rw [if_pos blinks, if_pos blinks]
    dsimp only
    rw [fill_dark_iff]
    split <;> simp [*]
  · rw [if_neg blinks, if_neg blinks]
    dsimp only [static, Frame.frameBytes]
    exact Iff.rfl

/-- A face that is off starts no wash. -/
theorem render_off {r : FaceRenderer p} (reached : Reached p r)
    {st : RenderState} (off : faceMode st = "off") (t : F64) :
    (r.render st t).1 =
      if t < r.washUntil then ({ r with lastT := t } : FaceRenderer p).wash t |>.1
      else Frame.new.frameBytes := by
  have kept : ({ r with lastT := t } : FaceRenderer p).Kept :=
    reached.kept.of_same rfl rfl
  have unarmed : { r with lastT := t }.arm (faceMode st) t =
      { r with lastT := t } := if_neg fun due => due.1 off
  have forgets : Forgets (faceMode st) := by
    rw [off]
    decide
  have black : picture p st t = Frame.new.frameBytes := by
    unfold picture object
    rw [if_pos off]
  unfold render
  dsimp only
  rw [unarmed]
  split
  · rfl
  · rw [paint_eq kept forgets, black]

/-- An off face is black exactly when no wash is running, or the wash is dark by
chance. -/
theorem off_is_black_iff {r : FaceRenderer p} (reached : Reached p r)
    {st : RenderState} (off : faceMode st = "off") (t : F64) :
    (∀ byte ∈ (r.render st t).1, byte = 0) ↔
      (t < r.washUntil → r.DarkWash t) := by
  rw [render_off reached off]
  split
  · rename_i washing
    rw [wash_dark_iff]
    exact ⟨fun dark _ => dark, fun dark => dark washing⟩
  · rename_i ended
    refine iff_of_true ?_ fun washing => absurd washing ended
    intro byte member
    exact List.eq_of_mem_replicate member

end FaceRenderer

namespace Trial

/-- A platform with blank glyphs and a counter for a generator. -/
def platform : Platform where
  libm :=
    { pi := 3
      sin := fun _ => 0
      cos := fun _ => 1
      exp := fun _ => 1
      powf := fun _ _ => 0 }
  rand :=
    { StdRng := UInt64
      seedFromU64 := id
      nextU32 := fun rng => (rng.toUInt32, rng + 1)
      genU8 := fun rng => (rng.toUInt8, rng + 1)
      rangeF64 := fun low _ rng => (low, rng + 1)
      rangeU32 := fun low _ rng => (low, rng + 1)
      rangeUsize := fun low _ rng => (low, rng + 1) }
  fonts := ⟨fun _ => [], fun _ => (8, []), fun _ => (4, [])⟩
  toBits := fun _ => 1
  localOffsetSecs := 0

/-- A well body whose face shows a mode. -/
def showing (mode : String) : RenderState where
  mode := mode
  faultSeen := true
  condition := "well"
  clockNow := 0

/-- A wash that began on the scope, and the first frame after the face was
switched off. -/
def switchedOff : FaceRenderer platform :=
  (((FaceRenderer.new platform 0).render (showing "scope") 300).2.render
    (showing "off") 300).2

theorem reached_switchedOff : FaceRenderer.Reached platform switchedOff :=
  .render (.render (.new 0) _ 300) _ 300

end Trial

/-- The wash goes on over a face that is off. -/
theorem off_face_lit :
    ¬ ∀ (p : Platform) (r : FaceRenderer p), FaceRenderer.Reached p r →
      ∀ (st : RenderState) (t : F64), faceMode st = "off" →
        ∀ byte ∈ (r.render st t).1, byte = 0 := by
  intro always
  have off : faceMode (Trial.showing "off") = "off" := by decide +kernel
  have lit : (Trial.switchedOff.render (Trial.showing "off") 301).1.head? =
      some 0xFF := by
    decide +kernel
  have dark := always _ _ Trial.reached_switchedOff _ 301 off 0xFF
    (List.mem_of_mem_head? lit)
  exact absurd dark (by decide)

/-- The same face, once the wash is over. -/
theorem off_is_black_later :
    (∀ byte ∈ (Trial.switchedOff.render (Trial.showing "off") 306).1, byte = 0) ↔
      ((306 : F64) < Trial.switchedOff.washUntil →
        Trial.switchedOff.DarkWash 306) :=
  FaceRenderer.off_is_black_iff Trial.reached_switchedOff (by decide +kernel) 306

/-- A renderer that has washed and one that has drawn nothing yet. -/
theorem face_has_no_memory_of_a_wash :
    (Trial.switchedOff.render (Trial.showing "ecg") 306).1 =
      ((FaceRenderer.new Trial.platform 200).render (Trial.showing "ecg")
        306).1 :=
  FaceRenderer.face_has_no_memory Trial.reached_switchedOff (.new 200)
    ⟨by decide +kernel, fun _ => by decide +kernel⟩
    ⟨by decide +kernel, fun _ => by decide +kernel⟩
    (by decide +kernel)

end Oled
