import Loa.CortexEffects
import Loa.TransitionRun
import Loa.WireExactness

/-!
# The console's model

The console folds every message it hears into one model, by presence.  The file
has the model and the fold, follows the fold along a run of the cortex, and says
when the model shows the state of the last republish.
-/

namespace Console

open Wire

/-- The last thing the feed said, field by field. -/
structure Model where
  face : Bytes := []
  ring : Bytes := []
  page : String := ""
  mood : String := ""
  oledMode : String := ""
  ringState : String := ""
  condition : String := ""
  oledText : String := ""
  oledFlip : Bool := false
  oledDim : Bool := false
  snrOn : Bool := false
  ripperdoc : Bool := false
  snrCm : Option F64 := none
  snrCount : Option UInt32 := none
  pirHigh : Bool := false
  pirCount : UInt32 := 0
  pirLastHold : F64 := 0
  tempC : Option F64 := none
  humPct : Option F64 := none
  pressureHpa : Option F64 := none
  baroTrend : String := ""
  faults : List (String × String × String) := []
  event : String := ""
  v3 : Option F64 := none
  throttle : Option F64 := none
  frames : UInt64 := 0

/-- The event line: the kind, and the detail in the order of its keys. -/
def fmtEvent (m : Event) : String :=
  if m.detail.keys = [] then m.kind
  else
    let keys := m.detail.keys.mergeSort fun first second => first ≤ second
    let detail := keys.map fun key => key ++ "=" ++ (m.detail.lookup key).getD ""
    m.kind ++ " " ++ " ".intercalate detail

namespace Model

def applyRipperdoc (model : Model) (m : Ripperdoc) : Model :=
  let pictured :=
    match m.face with
    | some f =>
        if f.length = 1024 then
          { model with face := f, frames := model.frames + 1 }
        else model
    | none => model
  { pictured with
    page := m.page.getD model.page
    mood := m.mood.getD model.mood
    oledMode := m.oledMode.getD model.oledMode
    ringState := m.ringState.getD model.ringState
    condition := m.condition.getD model.condition
    oledText := m.oledText.getD model.oledText
    oledFlip := m.oledFlip.getD model.oledFlip
    oledDim := m.oledDim.getD model.oledDim
    snrOn := m.snrOn.getD model.snrOn
    ripperdoc := m.ripperdoc.getD model.ripperdoc }

def applyRing (model : Model) (m : Ring) : Model :=
  match m.ring with
  | some r => if r.length = 72 then { model with ring := r } else model
  | none => model

/-- Fold one decoded message in; the topic is not looked at. -/
def apply (model : Model) (_topic : String) (env : Envelope) : Model :=
  match env.body with
  | none => model
  | some (.ripperdoc m) => model.applyRipperdoc m
  | some (.ring m) => model.applyRing m
  | some (.pir m) =>
      { model with
        pirHigh := m.high.getD model.pirHigh
        pirCount := m.count.getD model.pirCount
        pirLastHold := m.lastHold.getD model.pirLastHold }
  | some (.sonar m) => { model with snrCm := m.cm, snrCount := m.count }
  | some (.weather m) =>
      { model with
        tempC := m.tempC
        humPct := m.humPct
        pressureHpa := m.pressureHpa.or model.pressureHpa
        baroTrend := m.trend.getD model.baroTrend }
  | some (.power m) =>
      { model with
        v3 := m.rails.lookup "3V3_SYS_V"
        throttle := m.rails.lookup "throttled" }
  | some (.fault m) =>
      { model with
        condition := m.condition.getD model.condition
        faults := m.rows.map fun row => (row.level, row.code, row.text) }
  | some (.event m) => { model with event := fmtEvent m }
  | some (.init _) => model

end Model

/-- Fold a message in if it is one of the topic `ripperdoc`. -/
def hear (prost : Prost) (model : Model) (parts : Parts) : Model :=
  match decode prost parts with
  | .ok msg =>
      if msg.topic = "ripperdoc" then model.apply msg.topic msg.env else model
  | .error _ => model

/-- The console after every `ripperdoc` message of a feed. -/
def consoleOn (prost : Prost) (feed : List Parts) : Model :=
  feed.foldl (hear prost) {}

def ripperdocIn : Body → Option Ripperdoc
  | .ripperdoc m => some m
  | _ => none

/-- The payloads of the `ripperdoc` messages of a feed. -/
def ripperdocsOn (prost : Prost) (feed : List Parts) : List Ripperdoc :=
  Cortex.saidUnder prost "ripperdoc" ripperdocIn feed

theorem hear_eq (prost : Prost) (model : Model) (parts : Parts) :
    hear prost model parts =
      (Cortex.under prost "ripperdoc" ripperdocIn parts).toList.foldl
        Model.applyRipperdoc model := by
  unfold hear Cortex.under
  cases decoded : decode prost parts with
  | error error => rfl
  | ok msg =>
      by_cases topic : msg.topic = "ripperdoc"
      · obtain ⟨-, -, -, belongs⟩ := decode_eq_ok_iff.mp decoded
        rw [topic] at belongs
        obtain ⟨-, m, carries⟩ := belongs_ripperdoc_iff.mp belongs
        simp [topic, Model.apply, carries, ripperdocIn]
      · simp [topic]

theorem consoleOn_append (prost : Prost) (feed said : List Parts) :
    consoleOn prost (feed ++ said) =
      (ripperdocsOn prost said).foldl Model.applyRipperdoc
        (consoleOn prost feed) := by
  unfold consoleOn
  rw [List.foldl_append]
  generalize feed.foldl (hear prost) {} = model
  induction said generalizing model with
  | nil => rfl
  | cons parts said induction =>
      rw [List.foldl_cons, induction, hear_eq, ← List.foldl_append]
      congr 1
      unfold ripperdocsOn Cortex.saidUnder
      cases read : Cortex.under prost "ripperdoc" ripperdocIn parts with
      | none => simp [read]
      | some m => simp [read]

/-- The model shows the settings of a state, but for the text. -/
structure Shows (model : Model) (st : Cortex.State) : Prop where
  mood : model.mood = st.mood
  page : model.page = st.page
  oledMode : model.oledMode = st.oledMode
  ringState : model.ringState = st.ringState
  oledFlip : model.oledFlip = st.oledFlip
  oledDim : model.oledDim = st.oledDim
  snrOn : model.snrOn = st.snrOn
  ripperdoc : model.ripperdoc = st.ripperdoc

/-- The model shows a state; an absent text counts as empty. -/
def Agrees (model : Model) (st : Cortex.State) : Prop :=
  Shows model st ∧ model.oledText = st.oledText.getD ""

/-- The model has followed these republished states: it shows the last, and it
has the last text that any of them had. -/
structure Followed (model : Model) (states : List Cortex.State) : Prop where
  shows : ∀ st ∈ states.getLast?, Shows model st
  text : model.oledText =
    (states.filterMap Cortex.State.oledText).getLast?.getD ""

theorem Followed.republished {model : Model} {states : List Cortex.State}
    (followed : Followed model states) (st : Cortex.State)
    (face : Option Bytes) (now : F64) :
    Followed
      (model.applyRipperdoc { Cortex.stateMessage st now with face := face })
      (states ++ [st]) := by
  constructor
  · intro last isLast
    obtain rfl : st = last := by simpa using isLast
    exact ⟨rfl, rfl, rfl, rfl, rfl, rfl, rfl, rfl⟩
  · change st.oledText.getD model.oledText = _
    rw [followed.text, List.filterMap_append]
    cases text : st.oledText with
    | none => simp [text]
    | some shown => simp [text]

/-- A message with nothing but a picture moves nothing else. -/
theorem Followed.pictured {model : Model} {states : List Cortex.State}
    (followed : Followed model states) {m : Ripperdoc}
    (frameOnly : m = { face := m.face, ts := m.ts }) :
    Followed (model.applyRipperdoc m) states := by
  rw [frameOnly]
  refine ⟨fun st isLast => ?_, followed.text⟩
  have shown := followed.shows st isLast
  exact ⟨shown.mood, shown.page, shown.oledMode, shown.ringState,
    shown.oledFlip, shown.oledDim, shown.snrOn, shown.ripperdoc⟩

end Console

namespace Cortex

open Console FileDirectory Wire RustText TransitionRun

/-- The states that were put back on the wire, in order. -/
def republishedStates (trace : List (Sys × Action)) : List State :=
  trace.filterMap fun entry =>
    if republishes entry.1 entry.2 then some entry.1.cx.st else none

/-- A face frame has the pixels and the time of the picture, and no other
field. -/
def FrameOnly (prost : Prost) : Action → Prop
  | .inbound parts =>
      parts.topic = asBytes "oled" → ∀ sent m,
        parts.payload.decode prost = .ok sent →
        sent.body = some (.ripperdoc m) → m = { face := m.face, ts := m.ts }
  | _ => True

theorem ripperdocsOn_republished (env : Env) (sys : Sys) :
    ripperdocsOn env.prost (republished env sys) =
      [{ stateMessage sys.cx.st (env.clock (sys.ticks + 1)) with
          face := sys.cx.lastFace }] := by
  unfold ripperdocsOn
  rw [saidUnder_republished]
  rfl

/-- What the relay says under `ripperdoc` is a face frame. -/
theorem frameOnly_relayed {prost : Prost} {parts : Parts}
    (frame : FrameOnly prost (.inbound parts)) :
    ∀ m ∈ ripperdocsOn prost (relayed parts),
      m = { face := m.face, ts := m.ts } := by
  intro m member
  unfold relayed at member
  cases routed : routeParts parts.topic parts.payload with
  | error error => simp [routed, ripperdocsOn, saidUnder] at member
  | ok relay =>
      obtain ⟨route, listed, named, rfl⟩ := routeParts_eq_ok_iff.mp routed
      rw [routed] at member
      obtain ⟨said, only, read⟩ := List.mem_filterMap.mp member
      rw [List.mem_singleton.mp only] at read
      unfold under at read
      split at read
      · rename_i msg decoded
        split at read
        · rename_i topic
          obtain ⟨-, sent, payload, -⟩ := decode_eq_ok_iff.mp decoded
          obtain ⟨body, carries, isRipperdoc⟩ := Option.bind_eq_some_iff.mp read
          have toRipperdoc : route.2 = "ripperdoc" := by
            rw [← topic]
            exact asBytes_injective sent
          have fromOled : route.1 = "oled" := by
            simp only [ROUTES, List.mem_cons, List.not_mem_nil,
              or_false] at listed
            rcases listed with rfl | rfl
            · rfl
            · simp at toRipperdoc
          rw [fromOled] at named
          cases body with
          | ripperdoc found =>
              cases isRipperdoc
              exact frame named msg.env m payload carries
          | _ => cases isRipperdoc
        · cases read
      · cases read

theorem followed_frames {model : Model} {states : List State}
    (followed : Followed model states) {said : List Ripperdoc}
    (frames : ∀ m ∈ said, m = { face := m.face, ts := m.ts }) :
    Followed (said.foldl Model.applyRipperdoc model) states := by
  induction said generalizing model with
  | nil => exact followed
  | cons m said induction =>
      rw [List.forall_mem_cons] at frames
      exact induction (followed.pictured frames.1) frames.2

/-- A step that says nothing under `ripperdoc`. -/
theorem ripperdocsOn_published_other (prost : Prost) {topic : String}
    (other : topic ≠ "ripperdoc") (body : Body) :
    ripperdocsOn prost (published topic body) = [] :=
  saidUnder_published_other prost ripperdocIn other body

/-- The console follows the republishes through every step. -/
theorem followed_of_effect {env : Env} {sys after : Sys} {action : Action}
    (effect : Effect env sys action after)
    (frame : FrameOnly env.prost action) {states : List State}
    (followed : Followed (consoleOn env.prost sys.feed) states) :
    Followed (consoleOn env.prost after.feed)
      (states ++ if republishes sys action then [sys.cx.st] else []) := by
  by_cases again : republishes sys action = true
  · obtain ⟨feed, -⟩ := republishes_cases effect again
    rw [if_pos again, feed, consoleOn_append, ripperdocsOn_republished]
    exact followed.republished _ _ _
  · rw [if_neg again, List.append_nil]
    have silent {said : List Parts}
        (quiet : ripperdocsOn env.prost said = [])
        (feed : after.feed = sys.feed ++ said) :
        Followed (consoleOn env.prost after.feed) states := by
      rw [feed, consoleOn_append, quiet]
      exact followed
    cases effect with
    | asked main =>
        exact silent (ripperdocsOn_published_other _ (by decide) _) rfl
    | opened main => simp [republishes, main] at again
    | relay main frame' =>
        rw [consoleOn_append]
        exact followed_frames followed (frameOnly_relayed frame)
    | merged ticks main decoded =>
        exact silent (saidUnder_rebuilt _ _ (by decide) _ _ _ _) rfl
    | logged main news =>
        exact silent (ripperdocsOn_published_other _ (by decide) _) rfl
    | republish main news => simp [republishes, main, news] at again
    | powered main news =>
        exact silent (ripperdocsOn_published_other _ (by decide) _) rfl
    | flushed flushes => cases flushes <;> exact followed
    | dropped | verbed | answered | sampled | cut | restored => exact followed

theorem republishedStates_concat (trace : List (Sys × Action)) (before : Sys)
    (action : Action) :
    republishedStates (trace ++ [(before, action)]) =
      republishedStates trace ++
        if republishes before action then [before.cx.st] else [] := by
  unfold republishedStates
  rw [List.filterMap_append]
  cases again : republishes before action <;> simp [again]

theorem followed_of_run {env : Env} {dsn : Bool} {host : Host}
    {server : Server} {trace : List (Sys × Action)} {sys : Sys}
    (run : Run (Sys.step env) (boot env dsn host server) trace sys)
    (frames : Along (fun _ action => FrameOnly env.prost action) trace) :
    Followed (consoleOn env.prost sys.feed) (republishedStates trace) := by
  induction run with
  | stay =>
      obtain ⟨-, feed, -⟩ := boot_fields env dsn host server
      rw [feed]
      exact ⟨by simp [republishedStates], rfl⟩
  | move run stepped induction =>
      obtain ⟨earlier, frame⟩ := along_concat.mp frames
      rw [republishedStates_concat]
      exact followed_of_effect (effect_of_step stepped) frame
        (induction earlier)

/-- With frame-only messages on the relay, the console shows the state of the
last republish exactly when that state has a text, or the last text that was
republished was empty, or none ever was. -/
theorem console_agrees_iff (env : Env) (dsn : Bool) (host : Host)
    (server : Server) {trace : List (Sys × Action)} {sys : Sys}
    (run : Run (Sys.step env) (boot env dsn host server) trace sys)
    (frames : Along (fun _ action => FrameOnly env.prost action) trace)
    {st : State} (last : (republishedStates trace).getLast? = some st) :
    Agrees (consoleOn env.prost sys.feed) st ↔
      (st.oledText = none →
        ∀ text ∈ ((republishedStates trace).filterMap State.oledText).getLast?,
          text = "") := by
  have followed := followed_of_run run frames
  have shown := followed.shows st last
  unfold Agrees
  rw [followed.text, and_iff_right shown]
  obtain ⟨front, whole⟩ := List.getLast?_eq_some_iff.mp last
  cases text : st.oledText with
  | some words => simp [whole, text]
  | none =>
      cases (republishedStates trace).filterMap State.oledText |>.getLast? with
      | none => simp
      | some words => simp

namespace Trial

def feelAlarmed : String :=
  "\x7b\"cmd\":\"feel\",\"args\":\x7b\"feeling\":\"alarmed\"\x7d\x7d"

/-- The vault of the other trials, and one more request that parses. -/
def alarmVault : Vault :=
  { vault with
    text := { vault.text with
      parse := fun body =>
        if body = feelAlarmed then
          .ok (.object [("args", .object [("feeling", .string "alarmed")]),
            ("cmd", .string "feel")])
        else parse body } }

def alarmEnv : Env :=
  { env with vault := alarmVault }

def pixels : Bytes :=
  List.replicate 1024 0

def pictureFrame : Action :=
  push "oled" (.ripperdoc { face := some pixels, ts := some 9 })

/-- A mood with words on the face, and a frame of it. -/
def alarm : List Action :=
  asks ++ [post feelAlarmed, .hearNews, .hearNews, pictureFrame]

theorem frameOnly_alarm : ∀ action ∈ alarm, FrameOnly alarmEnv.prost action := by
  intro action member
  simp only [alarm, asks, List.mem_append, List.mem_replicate, List.mem_cons,
    List.not_mem_nil, or_false] at member
  rcases member with ⟨-, rfl⟩ | rfl | rfl | rfl | rfl
  · trivial
  · trivial
  · trivial
  · trivial
  · intro _ sent m decoded carries
    cases decoded
    cases carries
    rfl

/-- The words stay on the console when the mood has passed. -/
theorem console_keeps_words :
    ∃ trace sys,
      Run (Sys.step alarmEnv) (boot alarmEnv true host (server ∅)) trace sys ∧
      trace.map Prod.snd = alarm ++ [post feelPleased, .hearNews, .hearNews] ∧
      (republishedStates trace).getLast?.map State.oledText = some none ∧
      (consoleOn alarmEnv.prost sys.feed).oledText = "!! FLATLINE !!" := by
  have followed :
      follow (Sys.step alarmEnv) (boot alarmEnv true host (server ∅))
        (alarm ++ [post feelPleased, .hearNews, .hearNews]) =
          some (_, _) := rfl
  exact ⟨_, _, run_of_follow followed, actions_of_follow followed, rfl, rfl⟩

/-- As long as the words are on, console and cortex agree. -/
theorem console_agrees_iff_alarm :
    ∃ trace sys st,
      Run (Sys.step alarmEnv) (boot alarmEnv true host (server ∅)) trace sys ∧
      trace.map Prod.snd = alarm ∧
      (republishedStates trace).getLast? = some st ∧
      st.oledText = some "!! FLATLINE !!" ∧
      Agrees (consoleOn alarmEnv.prost sys.feed) st := by
  have followed :
      follow (Sys.step alarmEnv) (boot alarmEnv true host (server ∅)) alarm =
        some (_, _) := rfl
  have frames := along_of_actions
    ((actions_of_follow followed).symm ▸ frameOnly_alarm)
  refine ⟨_, _, _, run_of_follow followed, actions_of_follow followed, rfl, rfl,
    (console_agrees_iff alarmEnv true host (server ∅) (run_of_follow followed)
      frames rfl).mpr ?_⟩
  intro absent
  cases absent

end Trial

end Cortex
