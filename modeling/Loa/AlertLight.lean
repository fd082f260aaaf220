import Loa.CortexBuild
import Loa.MatrixPanel
import Loa.SampledBlink
import Mathlib.Data.List.Induction

/-!
# The alert light

The light holds one shape for what the body says about itself.  After every pass
of every run the LEDs are those of the shape for all that was heard, dark in the
dark half of its blink; a new shape shows in the pass that hears of it.
-/

namespace LedMatrix

open SampledBlink (Lamp)

def DARK : Glyph where
  name := "dark"
  rows :=
    [0b00000000,
     0b00000000,
     0b00000000,
     0b00000000,
     0b00000000,
     0b00000000,
     0b00000000,
     0b00000000]

def FAULT : Glyph where
  name := "fault"
  rows :=
    [0b11000011,
     0b01100110,
     0b00111100,
     0b00011000,
     0b00011000,
     0b00111100,
     0b01100110,
     0b11000011]

def ATTENTION : Glyph where
  name := "attention"
  rows :=
    [0b00011000,
     0b00011000,
     0b00011000,
     0b00011000,
     0b00011000,
     0b00011000,
     0b00000000,
     0b00011000]

def URGENT : Glyph where
  name := "urgent"
  rows :=
    [0b01100110,
     0b01100110,
     0b01100110,
     0b01100110,
     0b01100110,
     0b01100110,
     0b00000000,
     0b01100110]

/-- What the panel can say. -/
inductive Sigil
  | dark
  | attention
  | urgent
  | fault
  deriving DecidableEq

namespace Sigil

def glyph : Sigil → Glyph
  | dark => DARK
  | attention => ATTENTION
  | urgent => URGENT
  | fault => FAULT

/-- Half a blink in nanoseconds; zero is steady. -/
def half_period : Sigil → Nat
  | attention => 700 * 10 ^ 6
  | urgent => 150 * 10 ^ 6
  | _ => 0

def level : Sigil → UInt8
  | dark => 0
  | attention => 4
  | urgent => 9
  | fault => 12

theorem level_low (sigil : Sigil) : sigil.level &&& 0x0F = sigil.level := by
  cases sigil <;> rfl

end Sigil

/-- What the feed has said of the body. -/
structure Body where
  faults : Nat := 0
  warns : Nat := 0
  condition : String := ""
  throttled : UInt32 := 0
  deriving DecidableEq

namespace Body

def absorb (body : Body) (env : Wire.Envelope) : Body :=
  match env.body with
  | some (.fault f) =>
      { body with
        condition := f.condition.getD body.condition
        faults := f.rows.countP fun row => row.level == "fault"
        warns := f.rows.countP fun row => row.level == "warn" }
  | some (.power p) =>
      { body with
        throttled :=
          ((p.rails.lookup "throttled").map RustFloat.asU32).getD
            body.throttled }
  | _ => body

/-- The shape for the body: the highest thing that is true. -/
def sigil (body : Body) : Sigil :=
  if 0 < body.faults ∨ body.condition = "hurts" then .fault
  else if body.throttled &&& 1 = 1 then .urgent
  else if 0 < body.warns ∨ body.condition = "niggle" then .attention
  else .dark

def heard (messages : List Wire.Envelope) : Body :=
  messages.foldl absorb {}

end Body

/-- The panel and the state of the loop; `shown` is the shape it holds. -/
structure Light where
  panel : Panel
  body : Body
  shown : Option Sigil
  lit : Bool
  edge : Nat

/-- What one pass drains from the feed, and its time. -/
structure Pass where
  batch : List Wire.Envelope
  now : Nat

namespace Light

/-- The light on a panel that was opened and turned. -/
def started (chip : Chip) (level bright : UInt8) (rotation now : Nat) : Light where
  panel := Panel.brightness
    { Panel.opened chip level with rotation := rotation } bright
  body := {}
  shown := none
  lit := false
  edge := now

/-- A shape on the panel. -/
def draw (panel : Panel) (glyph : Glyph) : Panel :=
  (panel.glyph glyph).flush

/-- One pass of the loop. -/
def pass (light : Light) (pass : Pass) : Light :=
  let body := pass.batch.foldl Body.absorb light.body
  let sigil := body.sigil
  if light.shown ≠ some sigil then
    { panel := draw (light.panel.brightness sigil.level) sigil.glyph
      body := body
      shown := some sigil
      lit := true
      edge := pass.now + sigil.half_period }
  else if sigil.half_period ≠ 0 ∧ light.edge ≤ pass.now then
    { light with
      panel :=
        if light.lit then light.panel.clear.flush
        else draw light.panel sigil.glyph
      body := body
      lit := !light.lit
      edge := pass.now + sigil.half_period }
  else { light with body := body }

def run (light : Light) (passes : List Pass) : Light :=
  passes.foldl pass light

/-- The end of a run with a time limit. -/
def finish (light : Light) : Panel :=
  light.panel.clear.flush

end Light

/-- The LEDs of a shape, or none of them. -/
def Lights (panel : Panel) (glyph : Glyph) (lit : Bool) : Prop :=
  panel.chip.osc = true ∧ panel.chip.display = true ∧
    ∀ x < 8, ∀ y < 8,
      panel.chip.led (Panel.rotate panel.rotation x y).1
        (Panel.rotate panel.rotation x y).2 = (lit && glyph.pixel x y)

/-- The panel runs. -/
def Awake (panel : Panel) : Prop :=
  panel.chip.osc = true ∧ panel.chip.display = true

variable {panel : Panel} {light : Light}

theorem flush_awake (awake : Awake panel) : Awake panel.flush := by
  obtain ⟨registers, -⟩ := panel.flush_chip
  unfold Awake
  rw [registers]
  exact awake

theorem brightness_awake (awake : Awake panel) (level : UInt8) :
    Awake (panel.brightness level) := by
  unfold Awake
  rw [Panel.brightness_chip]
  exact awake

theorem flush_dim (panel : Panel) : panel.flush.chip.dim = panel.chip.dim := by
  obtain ⟨registers, -⟩ := panel.flush_chip
  rw [registers]

theorem draw_lights (awake : Awake panel) (glyph : Glyph) :
    Lights (Light.draw panel glyph) glyph true ∧
      (Light.draw panel glyph).rotation = panel.rotation ∧
      (Light.draw panel glyph).chip.dim = panel.chip.dim := by
  obtain ⟨turned, chip, drawn⟩ := panel.glyph_drawn glyph
  have awakeDrawn : Awake (panel.glyph glyph) := by
    unfold Awake
    rw [chip]
    exact awake
  have awakeFlushed := flush_awake awakeDrawn
  refine ⟨⟨awakeFlushed.1, awakeFlushed.2, fun x xOn y yOn => ?_⟩, turned, ?_⟩
  · have inside := Panel.rotate_inside panel.rotation xOn yOn
    have same : (Light.draw panel glyph).rotation = panel.rotation := turned
    rw [same, Light.draw, Panel.flush_led _ inside.1, awakeDrawn.1,
      awakeDrawn.2, drawn x xOn y yOn]
    rfl
  · rw [Light.draw, flush_dim, chip]

theorem clear_lights (awake : Awake panel) (glyph : Glyph) :
    Lights panel.clear.flush glyph false ∧
      panel.clear.flush.chip.dim = panel.chip.dim := by
  have awakeFlushed := @flush_awake panel.clear awake
  refine ⟨⟨awakeFlushed.1, awakeFlushed.2, fun x xOn y yOn => ?_⟩, ?_⟩
  · have inside := Panel.rotate_inside panel.rotation xOn yOn
    have same : panel.clear.flush.rotation = panel.rotation := rfl
    rw [same, Panel.flush_led _ inside.1, Panel.cell_clear, Bool.and_false,
      Bool.false_and]
  · rw [flush_dim]
    rfl

/-- The panel shows the shape that the loop holds. -/
structure Shows (rotation : Nat) (light : Light) (sigil : Sigil) : Prop where
  shown : light.shown = some sigil
  turned : light.panel.rotation = rotation
  lights : Lights light.panel sigil.glyph light.lit
  dim : light.panel.chip.dim = sigil.level
  steady : sigil.half_period = 0 → light.lit = true

/-- A panel that is ready for its first shape, or shows one. -/
structure Ready (rotation : Nat) (light : Light) : Prop where
  turned : light.panel.rotation = rotation
  awake : Awake light.panel
  shows : ∀ sigil, light.shown = some sigil → Shows rotation light sigil

theorem Shows.ready {rotation : Nat} {sigil : Sigil}
    (shows : Shows rotation light sigil) : Ready rotation light where
  turned := shows.turned
  awake := ⟨shows.lights.1, shows.lights.2.1⟩
  shows := fun other shown => by
    have same : sigil = other := Option.some.inj (shows.shown.symm.trans shown)
    exact same ▸ shows

/-- The body after a pass. -/
theorem pass_body (light : Light) (pass : Pass) :
    (light.pass pass).body = pass.batch.foldl Body.absorb light.body := by
  unfold Light.pass
  dsimp only
  split_ifs <;> rfl

/-- A shape that is not shown yet is drawn at once, and is lit. -/
theorem pass_new (pass : Pass)
    (new : light.shown ≠ some (light.pass pass).body.sigil) :
    light.pass pass =
      let sigil := (light.pass pass).body.sigil
      { panel := Light.draw (light.panel.brightness sigil.level) sigil.glyph
        body := (light.pass pass).body
        shown := some sigil
        lit := true
        edge := pass.now + sigil.half_period } := by
  rw [pass_body] at new ⊢
  exact if_pos new

/-- A shape that is shown is switched where it blinks and is due. -/
theorem pass_due (pass : Pass)
    (same : light.shown = some (light.pass pass).body.sigil)
    (due : (light.pass pass).body.sigil.half_period ≠ 0 ∧
      light.edge ≤ pass.now) :
    light.pass pass =
      let sigil := (light.pass pass).body.sigil
      { panel :=
          if light.lit then light.panel.clear.flush
          else Light.draw light.panel sigil.glyph
        body := (light.pass pass).body
        shown := light.shown
        lit := !light.lit
        edge := pass.now + sigil.half_period } := by
  rw [pass_body] at same due ⊢
  unfold Light.pass
  dsimp only
  rw [if_neg (not_not_intro same), if_pos due]

/-- Else the panel is left alone. -/
theorem pass_held (pass : Pass)
    (same : light.shown = some (light.pass pass).body.sigil)
    (early : ¬ ((light.pass pass).body.sigil.half_period ≠ 0 ∧
      light.edge ≤ pass.now)) :
    light.pass pass = { light with body := (light.pass pass).body } := by
  rw [pass_body] at same early ⊢
  unfold Light.pass
  dsimp only
  rw [if_neg (not_not_intro same), if_neg early]

/-- After a pass the panel shows the shape for the body. -/
theorem pass_shows {rotation : Nat} (ready : Ready rotation light) (pass : Pass) :
    Shows rotation (light.pass pass) (light.pass pass).body.sigil := by
  by_cases same : light.shown = some (light.pass pass).body.sigil
  · have before := ready.shows _ same
    generalize held : (light.pass pass).body.sigil = sigil at same before ⊢
    by_cases due : sigil.half_period ≠ 0 ∧ light.edge ≤ pass.now
    · have switched := pass_due pass (same.trans (congrArg some held.symm))
        (held.symm ▸ due)
      rw [held] at switched
      rw [switched]
      by_cases lit : light.lit = true
      · obtain ⟨dark, dim⟩ := clear_lights ready.awake sigil.glyph
        rw [lit]
        exact
          { shown := same
            turned := ready.turned
            lights := dark
            dim := dim.trans before.dim
            steady := fun steady => (due.1 steady).elim }
      · obtain ⟨drawn, turned, dim⟩ := draw_lights ready.awake sigil.glyph
        rw [Bool.not_eq_true] at lit
        rw [lit]
        exact
          { shown := same
            turned := turned.trans ready.turned
            lights := drawn
            dim := dim.trans before.dim
            steady := fun _ => rfl }
    · have unchanged := pass_held pass (same.trans (congrArg some held.symm))
        (held.symm ▸ due)
      rw [unchanged]
      exact
        { shown := same
          turned := before.turned
          lights := before.lights
          dim := before.dim
          steady := before.steady }
  · rw [pass_new pass same]
    generalize (light.pass pass).body = body
    have dimmed := Panel.brightness_chip light.panel body.sigil.level
    obtain ⟨drawn, turned, dim⟩ := draw_lights
      (brightness_awake ready.awake body.sigil.level) body.sigil.glyph
    exact
      { shown := rfl
        turned := turned.trans ready.turned
        lights := drawn
        dim := by rw [dim, dimmed, Sigil.level_low]
        steady := fun _ => rfl }

theorem run_concat (light : Light) (passes : List Pass) (pass : Pass) :
    light.run (passes ++ [pass]) = (light.run passes).pass pass :=
  List.foldl_concat ..

theorem run_ready {rotation : Nat} (ready : Ready rotation light)
    (passes : List Pass) : Ready rotation (light.run passes) := by
  induction passes using List.reverseRecOn with
  | nil => exact ready
  | append_singleton passes pass induction =>
      rw [run_concat]
      exact (pass_shows induction pass).ready

theorem run_body (light : Light) (passes : List Pass) :
    (light.run passes).body =
      (passes.flatMap Pass.batch).foldl Body.absorb light.body := by
  induction passes using List.reverseRecOn with
  | nil => rfl
  | append_singleton passes pass induction =>
      rw [run_concat, pass_body, induction, List.flatMap_append,
        List.foldl_append, List.flatMap_singleton]

/-- A fresh panel runs and is dark. -/
theorem started_ready (chip : Chip) (level bright : UInt8) (rotation now : Nat) :
    Ready rotation (Light.started chip level bright rotation now) where
  turned := rfl
  awake := by
    obtain ⟨osc, display, -⟩ := Panel.opened_chip chip level
    exact brightness_awake ⟨osc, display⟩ bright
  shows := fun _ shown => by cases shown

/-- The condition in a view of the faults. -/
def wordOf (env : Wire.Envelope) : Option String :=
  match env.body with
  | some (.fault f) => f.condition
  | _ => none

/-- The throttle bits among the rails. -/
def bitsOf (env : Wire.Envelope) : Option UInt32 :=
  match env.body with
  | some (.power p) => (p.rails.lookup "throttled").map RustFloat.asU32
  | _ => none

/-- What was said last, or what holds before it is said. -/
def newest {α : Type} (said : Wire.Envelope → Option α)
    (messages : List Wire.Envelope) (unsaid : α) : α :=
  (messages.filterMap said).getLast?.getD unsaid

/-- Every view of the faults is one of the cortex. -/
def Views (messages : List Wire.Envelope) : Prop :=
  ∀ env ∈ messages, ∀ f, env.body = some (.fault f) →
    ∃ (cx : Cortex) (dbDown : Bool) (now : F64), f = cx.faultMessage dbDown now

/-- The shape for a word of the condition and the throttle bits. -/
def Sigil.told (word : String) (bits : UInt32) : Sigil :=
  if word = "hurts" then .fault
  else if bits &&& 1 = 1 then .urgent
  else if word = "niggle" then .attention
  else .dark

theorem newest_concat {α : Type} (said : Wire.Envelope → Option α)
    (messages : List Wire.Envelope) (env : Wire.Envelope) (unsaid : α) :
    newest said (messages ++ [env]) unsaid =
      (said env).getD (newest said messages unsaid) := by
  unfold newest
  rw [List.filterMap_append]
  cases carried : said env with
  | none => simp [carried]
  | some value => simp [carried]

/-- The counts of a body agree with its word. -/
structure Body.Agrees (body : Body) : Prop where
  hurts : 0 < body.faults ↔ body.condition = "hurts"
  niggle : 0 < body.faults ∨ (0 < body.warns ↔ body.condition = "niggle")

theorem Body.Agrees.sigil_eq {body : Body} (agrees : body.Agrees) :
    body.sigil = Sigil.told body.condition body.throttled := by
  unfold Body.sigil Sigil.told
  by_cases hurts : body.condition = "hurts"
  · rw [if_pos (.inr hurts), if_pos hurts]
  · have none : ¬ 0 < body.faults := fun some => hurts (agrees.hurts.mp some)
    have warns := agrees.niggle.resolve_left none
    have niggle : (0 < body.warns ∨ body.condition = "niggle") ↔
        body.condition = "niggle" := by
      rw [warns, or_self]
    rw [if_neg (by simp [none, hurts]), if_neg hurts]
    simp only [niggle]

theorem view_agrees (cx : Cortex) (dbDown : Bool) (now : F64)
    (body : Body) (schema : UInt32) :
    (body.absorb ⟨schema, some (.fault (cx.faultMessage dbDown now))⟩).Agrees := by
  have counted (level : String) :
      (0 < ((cx.faultRows dbDown).map Cortex.FaultRow.toWire).countP
          fun row => row.level == level) ↔
        ((cx.faultRows dbDown).any fun row => row.level == level) = true := by
    rw [List.countP_pos_iff, List.any_eq_true]
    simp [Cortex.FaultRow.toWire]
  have hurts := counted "fault"
  have niggle := counted "warn"
  unfold Body.absorb Cortex.faultMessage Cortex.conditionFrom
  refine ⟨?_, ?_⟩ <;> dsimp only [Option.getD_some] <;> rw [hurts] <;>
    split_ifs with fault warn <;> simp_all

/-- Where the views are those of the cortex, the body follows what was said
last. -/
theorem heard_newest (messages : List Wire.Envelope) :
    (Body.heard messages).condition = newest wordOf messages "" ∧
      (Body.heard messages).throttled = newest bitsOf messages 0 ∧
      (Views messages → (Body.heard messages).Agrees) := by
  induction messages using List.reverseRecOn with
  | nil =>
      exact ⟨rfl, rfl, fun _ => ⟨by decide, by decide⟩⟩
  | append_singleton messages env induction =>
      obtain ⟨word, bits, agrees⟩ := induction
      have last : Body.heard (messages ++ [env]) =
          (Body.heard messages).absorb env :=
        List.foldl_concat ..
      rw [last, newest_concat, newest_concat, ← word, ← bits]
      have earlier (views : Views (messages ++ [env])) : Views messages :=
        fun other member => views other (List.mem_append_left _ member)
      obtain ⟨schema, body⟩ := env
      match body with
      | some (.fault f) =>
          refine ⟨rfl, rfl, fun views => ?_⟩
          obtain ⟨cx, dbDown, now, rfl⟩ := views _
            List.mem_concat_self f rfl
          exact view_agrees cx dbDown now _ schema
      | some (.power p) =>
          refine ⟨rfl, rfl, fun views => ?_⟩
          obtain ⟨hurts, niggle⟩ := agrees (earlier views)
          exact ⟨hurts, niggle⟩
      | none | some (.ripperdoc _) | some (.ring _) | some (.pir _)
      | some (.sonar _) | some (.weather _) | some (.event _)
      | some (.init _) =>
          exact ⟨rfl, rfl, fun views => agrees (earlier views)⟩

/-- The shape for a feed of the cortex. -/
theorem sigil_heard {messages : List Wire.Envelope} (views : Views messages) :
    (Body.heard messages).sigil =
      Sigil.told (newest wordOf messages "") (newest bitsOf messages 0) := by
  obtain ⟨word, bits, agrees⟩ := heard_newest messages
  rw [(agrees views).sigil_eq, word, bits]

theorem started_body (chip : Chip) (level bright : UInt8) (rotation now : Nat)
    (passes : List Pass) :
    ((Light.started chip level bright rotation now).run passes).body =
      Body.heard (passes.flatMap Pass.batch) :=
  run_body ..

/-- The shape that is shown is the one of the last pass. -/
theorem run_shown (chip : Chip) (level bright : UInt8) (rotation now : Nat)
    (passes : List Pass) :
    ((Light.started chip level bright rotation now).run passes).shown =
      if passes = [] then none
      else some (Body.heard (passes.flatMap Pass.batch)).sigil := by
  induction passes using List.reverseRecOn with
  | nil => rfl
  | append_singleton passes pass _ =>
      have ready := run_ready (started_ready chip level bright rotation now)
        passes
      have shows := pass_shows ready pass
      rw [← run_concat] at shows
      rw [shows.shown, if_neg (by simp), started_body]

/-- After every pass of every run the LEDs are those of the shape for all that
was heard so far, at its level; a steady shape and a new one are lit.  On a feed
of the cortex the shape is the one for the newest word and the newest throttle
bits.  A run that comes to its time limit leaves the panel dark.  No write to the
chip fails here. -/
theorem light_follows_body (chip : Chip) (level bright : UInt8)
    (rotation start : Nat) (passes : List Pass) (pass : Pass) :
    let light := Light.started chip level bright rotation start
    let before := Body.heard (passes.flatMap Pass.batch)
    let messages := (passes ++ [pass]).flatMap Pass.batch
    let sigil := (Body.heard messages).sigil
    let after := light.run (passes ++ [pass])
    Lights after.panel sigil.glyph after.lit ∧
      after.panel.rotation = rotation ∧
      after.panel.chip.dim = sigil.level ∧
      (sigil.half_period = 0 ∨ passes = [] ∨ sigil ≠ before.sigil →
        after.lit = true) ∧
      (Views messages →
        sigil = Sigil.told (newest wordOf messages "")
          (newest bitsOf messages 0)) ∧
      Lights after.finish sigil.glyph false := by
  intro light before messages sigil after
  have ready := run_ready (started_ready chip level bright rotation start) passes
  have shows := pass_shows ready pass
  rw [← run_concat, started_body] at shows
  refine ⟨shows.lights, shows.turned, shows.dim, ?_, sigil_heard,
    (clear_lights shows.ready.awake sigil.glyph).1⟩
  rintro (steady | new)
  · exact shows.steady steady
  · have unseen : (light.run passes).shown ≠
        some ((light.run passes).pass pass).body.sigil := by
      rw [← run_concat, started_body, run_shown]
      obtain rfl | other := new
      · rw [if_pos rfl]
        simp
      · split_ifs
        · simp
        · exact fun same => other (Option.some.inj same).symm
    change (light.run (passes ++ [pass])).lit = true
    rw [run_concat, pass_new pass unseen]

def Light.lamp (light : Light) : Lamp where
  lit := light.lit
  due := light.edge

/-- While a blinking shape stays, a pass visits the lamp. -/
theorem pass_lamp {pass : Pass} {sigil : Sigil}
    (blinks : sigil.half_period ≠ 0) (same : light.shown = some sigil)
    (stays : (light.pass pass).body.sigil = sigil) :
    (light.pass pass).lamp = light.lamp.visit sigil.half_period pass.now ∧
      (light.pass pass).shown = some sigil := by
  by_cases due : light.edge ≤ pass.now
  · have switched := pass_due pass (same.trans (congrArg some stays.symm))
      ⟨stays.symm ▸ blinks, due⟩
    rw [stays] at switched
    rw [switched, SampledBlink.visit_of_due due]
    exact ⟨rfl, same⟩
  · have unchanged := pass_held pass (same.trans (congrArg some stays.symm))
      fun both => due both.2
    rw [unchanged, SampledBlink.visit_of_early (by exact Nat.not_le.mp due)]
    exact ⟨rfl, same⟩

/-- While the shape stays, the run visits the lamp at its passes. -/
theorem run_lamp {sigil : Sigil} (blinks : sigil.half_period ≠ 0)
    (same : light.shown = some sigil) (stretch : List Pass)
    (stays : ∀ first ≠ [], first <+: stretch →
      (light.run first).body.sigil = sigil) :
    (light.run stretch).lamp =
        (stretch.map Pass.now).foldl (Lamp.visit sigil.half_period) light.lamp ∧
      (light.run stretch).shown = some sigil := by
  induction stretch using List.reverseRecOn with
  | nil => exact ⟨rfl, same⟩
  | append_singleton stretch pass induction =>
      obtain ⟨lamp, shown⟩ := induction fun first some before =>
        stays first some (before.trans (List.prefix_append ..))
      have last := stays _ (by simp) List.prefix_rfl
      rw [run_concat] at last ⊢
      obtain ⟨visited, stillShown⟩ := pass_lamp blinks shown last
      refine ⟨?_, stillShown⟩
      rw [visited, lamp, List.map_append, List.map_singleton, List.foldl_concat]

theorem run_append (light : Light) (first second : List Pass) :
    light.run (first ++ second) = (light.run first).run second :=
  List.foldl_append

/-- From the pass that hears of a blinking shape on, and while the shape stays,
the shape is lit and dark in turn.  No half is shorter than half a period, and
none is longer by more than the time between two passes. -/
theorem light_blinks (chip : Chip) (level bright : UInt8) (rotation start : Nat)
    (before : List Pass) (news : Pass) (stretch : List Pass) {sigil : Sigil}
    {gap : Nat} (blinks : sigil.half_period ≠ 0)
    (new : before ≠ [] →
      (Body.heard (before.flatMap Pass.batch)).sigil ≠ sigil)
    (stays : ∀ first, first <+: stretch →
      (Body.heard ((before ++ news :: first).flatMap Pass.batch)).sigil = sigil)
    (visits : SampledBlink.Visits gap news.now (stretch.map Pass.now)) :
    let light := Light.started chip level bright rotation start
    let times := SampledBlink.switches sigil.half_period
      ⟨true, news.now + sigil.half_period⟩ (stretch.map Pass.now)
    Lights (light.run (before ++ news :: stretch)).panel sigil.glyph
        (decide (Even times.length)) ∧
      List.IsChain (SampledBlink.Spaced sigil.half_period gap)
        (news.now :: times) ∧
      (stretch.map Pass.now).getLastD news.now <
        times.getLastD news.now + sigil.half_period := by
  intro light times
  have waits : 0 < sigil.half_period := Nat.pos_of_ne_zero blinks
  -- The pass with the news lights the shape and sets its first edge.
  have unseen : (light.run before).shown ≠
      some ((light.run before).pass news).body.sigil := by
    rw [← run_concat, started_body, stays [] (List.nil_prefix ..), run_shown]
    split_ifs with none
    · simp
    · exact fun same => new none (Option.some.inj same)
  have drawn := pass_new news unseen
  rw [← run_concat, started_body, stays [] (List.nil_prefix ..)] at drawn
  have shown : (light.run (before ++ [news])).shown = some sigil := by
    rw [drawn]
  have fresh : (light.run (before ++ [news])).lamp =
      ⟨true, news.now + sigil.half_period⟩ := by
    rw [drawn]
    rfl
  obtain ⟨lamp, -⟩ := run_lamp blinks shown stretch fun first _ prefixed => by
    rw [← run_append, List.append_assoc, List.singleton_append, started_body]
    exact stays first prefixed
  rw [← run_append, List.append_assoc, List.singleton_append, fresh] at lamp
  have parity := @SampledBlink.lit_iff sigil.half_period
    ⟨true, news.now + sigil.half_period⟩ (stretch.map Pass.now)
  rw [← lamp] at parity
  have early : news.now < news.now + sigil.half_period := by omega
  refine ⟨?_, SampledBlink.switches_spaced waits rfl early visits,
    SampledBlink.last_switch waits rfl early visits⟩
  have shows := (run_ready (started_ready chip level bright rotation start)
    (before ++ news :: stretch)).shows sigil (by
      rw [run_shown, if_neg (by simp), stays stretch List.prefix_rfl])
  have lit : (light.run (before ++ news :: stretch)).lit =
      decide (Even times.length) := by
    rw [Bool.eq_iff_iff, decide_eq_true_iff]
    exact parity
  exact lit ▸ shows.lights

/-- A row of a warning, and passes for a second and a half. -/
theorem light_blinks_warned :
    let row : Wire.FaultRow := ⟨"warn", "DISK", "full", none⟩
    let news : Pass := ⟨[⟨4, some (.fault ⟨[row], some "niggle", none⟩)⟩], 0⟩
    let stretch : List Pass := [⟨[], 500000000⟩, ⟨[], 710000000⟩, ⟨[], 1500000000⟩]
    let chip : Chip := ⟨⟨fun _ => 0, 0⟩, false, false, 0⟩
    Lights ((Light.started chip 2 2 0 0).run (news :: stretch)).panel ATTENTION
      true := by
  intro row news stretch chip
  have blinks := @light_blinks chip 2 2 0 0 [] news stretch .attention 800000000
    (by decide)
    (fun some => (some rfl).elim) (by
      intro first prefixed
      have quiet : first.flatMap Pass.batch = [] := by
        apply List.flatMap_eq_nil_iff.mpr
        intro pass member
        have among := prefixed.subset member
        simp only [stretch, List.mem_cons, List.not_mem_nil, or_false] at among
        rcases among with rfl | rfl | rfl <;> rfl
      rw [List.nil_append, List.flatMap_cons, quiet]
      decide) (by
      unfold SampledBlink.Visits
      simp [stretch, news])
  have twice : (SampledBlink.switches Sigil.attention.half_period
      ⟨true, news.now + Sigil.attention.half_period⟩
      (stretch.map Pass.now)).length = 2 := by
    decide +kernel
  have lights := blinks.1
  rw [twice] at lights
  exact lights

end LedMatrix
