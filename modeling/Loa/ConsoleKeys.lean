import Loa.ConsoleModel
import Loa.MergeCarriage

/-!
# The keys of the consoles

Any number of consoles show what they have heard, and a key sends one request on
a thread of its own.  Requests cross on their way and may get lost.  Each one that
arrives is accepted; a flag and the page are as the last one asked, and the mood
has walked one step for each that asked for the next.
-/

namespace Console

open Json (Value)
open Cortex (Env Sys Action Request)
open TransitionRun (Run)

def PAGES : List String :=
  ["sensors", "pir", "snr", "temp", "frag", "power", "fault"]

/-- A key, as the terminal tells of it. -/
inductive KeyCode
  | char (c : Char)
  | esc
  | other
  deriving DecidableEq

/-- The key map: the body of a request, or none for a key without one. -/
def command (v : Model) : KeyCode → Option String
  | .char c =>
      if c = 'r' then
        some ("\x7b\"cmd\":\"ripperdoc\",\"args\":\x7b\"on\":" ++
          toString (!v.ripperdoc) ++ "\x7d\x7d")
      else if '1' ≤ c ∧ c ≤ '7' then
        some ("\x7b\"cmd\":\"ripperdoc\",\"args\":\x7b\"page\":\"" ++
          PAGES.getD (c.toNat - '1'.toNat) "" ++ "\"\x7d\x7d")
      else if c = 'm' then
        some "\x7b\"cmd\":\"feel\",\"args\":\x7b\"next\":true\x7d\x7d"
      else if c = 'f' then
        some ("\x7b\"cmd\":\"display\",\"args\":\x7b\"flip\":" ++
          toString (!v.oledFlip) ++ "\x7d\x7d")
      else none
  | _ => none

/-- What the requests of the console ask for. -/
inductive Ask
  | console (on : Bool)
  | page (index : Fin 7)
  | mood
  | flip (on : Bool)
  deriving DecidableEq

namespace Ask

/-- The page of an ask for one. -/
def pageName (index : Fin 7) : String :=
  PAGES.getD index ""

def body : Ask → String
  | console on =>
      "\x7b\"cmd\":\"ripperdoc\",\"args\":\x7b\"on\":" ++ toString on ++
        "\x7d\x7d"
  | page index =>
      "\x7b\"cmd\":\"ripperdoc\",\"args\":\x7b\"page\":\"" ++ pageName index ++
        "\"\x7d\x7d"
  | mood => "\x7b\"cmd\":\"feel\",\"args\":\x7b\"next\":true\x7d\x7d"
  | flip on =>
      "\x7b\"cmd\":\"display\",\"args\":\x7b\"flip\":" ++ toString on ++
        "\x7d\x7d"

def cmd : Ask → String
  | console _ | page _ => "ripperdoc"
  | mood => "feel"
  | flip _ => "display"

def args : Ask → Value
  | console on => .object [("on", .bool on)]
  | page index => .object [("page", .string (pageName index))]
  | mood => .object [("next", .bool true)]
  | flip on => .object [("flip", .bool on)]

/-- The value of a body; the members of an object are in order. -/
def value (ask : Ask) : Value :=
  .object [("args", ask.args), ("cmd", .string ask.cmd)]

/-- The cortex after an ask. -/
def obeyed (cx : Cortex) : Ask → Cortex
  | console on => cx.consoled on
  | page index => cx.turned (some (pageName index))
  | mood => cx.wear (Cortex.nextFrom cx.st.mood)
  | flip on => cx.shown none none none (some on)

end Ask

/-- What a key of a console asks for. -/
def askOf (v : Model) : KeyCode → Option Ask
  | .char c =>
      if c = 'r' then some (.console !v.ripperdoc)
      else if digit : '1' ≤ c ∧ c ≤ '7' then
        some (.page ⟨c.toNat - '1'.toNat, by
          have high : c.toNat ≤ '7'.toNat := digit.2
          have low : '1'.toNat ≤ c.toNat := digit.1
          simp only [Char.reduceToNat] at high low ⊢
          omega⟩)
      else if c = 'm' then some .mood
      else if c = 'f' then some (.flip !v.oledFlip)
      else none
  | _ => none

/-- The body of a key is that of its ask. -/
theorem command_eq (v : Model) (code : KeyCode) :
    command v code = (askOf v code).map Ask.body := by
  cases code with
  | char c =>
      simp only [command, askOf]
      split_ifs <;> rfl
  | esc | other => rfl

/-- The JSON library reads the bodies of the console. -/
def Reads (text : Json.Text) : Prop :=
  ∀ ask : Ask, text.parse ask.body = .ok ask.value

/-- The request that the console's client sends. -/
def posted (ask : Ask) : Request :=
  ⟨"/api", "POST", some ask.body, none⟩

theorem pageName_listed (index : Fin 7) : Ask.pageName index ∈ Cortex.PAGES := by
  revert index
  decide

theorem ripperdoc_page (cx : Cortex) (index : Fin 7) :
    cx.ripperdoc none (some (Ask.pageName index)) =
      (.ok .none, cx.turned (some (Ask.pageName index))) := by
  have listed := pageName_listed index
  simp [Cortex.ripperdoc, listed]

/-- Every ask is a verb that the door accepts. -/
theorem accepted (cx : Cortex) (ask : Ask) :
    ∃ dispatched, Cortex.stateVerb cx ask.cmd ask.args = some dispatched ∧
      dispatched.cx = ask.obeyed cx ∧ dispatched.out.status = 200 := by
  cases ask with
  | page index =>
      have turned : cx.ripperdoc
          (((Ask.page index).args.get "on").bind Value.asBool)
          (((Ask.page index).args.get "page").bind Value.asStr) =
            (.ok .none, cx.turned (some (Ask.pageName index))) :=
        ripperdoc_page cx index
      refine ⟨Cortex.dispatchRipperdoc cx (Ask.page index).args, rfl, ?_⟩
      unfold Cortex.dispatchRipperdoc
      rw [turned]
      exact ⟨rfl, rfl⟩
  | console on => exact ⟨_, rfl, rfl, rfl⟩
  | mood => exact ⟨_, rfl, rfl, rfl⟩
  | flip on => exact ⟨_, rfl, rfl, rfl⟩

/-- The door runs the verb, and nothing of the host is touched. -/
theorem run_route_posted {v : Vault} (reads : Reads v.text) (cx : Cortex)
    (ask : Ask) {dispatched : Cortex.Dispatched}
    (verb : Cortex.stateVerb cx ask.cmd ask.args = some dispatched)
    (host : FileDirectory.Host) :
    Program.run FileDirectory.serve (Cortex.route v cx (posted ask)) host =
      (⟨dispatched.out, Cortex.newsOf ask.cmd dispatched, dispatched.cx⟩,
        host) := by
  have routed : Cortex.route v cx (posted ask) =
      Cortex.dispatch v cx ask.cmd ask.args none >>= fun dispatched =>
        pure ⟨dispatched.out, Cortex.newsOf ask.cmd dispatched,
          dispatched.cx⟩ := by
    unfold Cortex.route posted
    simp only [reads ask]
    rfl
  rw [routed, Program.run_bind, Cortex.run_dispatch_verb verb]
  rfl

/-- The process, the requests on their way, and what was pressed, served and lost
so far. -/
structure Hall where
  sys : Sys
  flying : List Ask := []
  pressed : List Ask := []
  served : List Ask := []
  lost : List Ask := []

/-- A key on a console that shows this model; a request that arrives, or does
not; and everything else that the process does. -/
inductive Move
  | press (v : Model) (code : KeyCode)
  | serve (place : Nat)
  | lose (place : Nat)
  | act (action : Action)

/-- The body that a key sends. -/
def Move.sends : Move → Option String
  | .press v code => command v code
  | _ => none

namespace Hall

/-- The other actions of the process: no other client uses the door. -/
def others : Action → Bool
  | .door _ => false
  | _ => true

def step (env : Env) (hall : Hall) : Move → Option Hall
  | .press v code =>
      (askOf v code).map fun ask =>
        { hall with
          flying := hall.flying ++ [ask]
          pressed := hall.pressed ++ [ask] }
  | .serve place =>
      hall.flying[place]?.map fun ask =>
        { hall with
          sys := hall.sys.serveRequest env (posted ask)
          flying := hall.flying.eraseIdx place
          served := hall.served ++ [ask] }
  | .lose place =>
      hall.flying[place]?.map fun ask =>
        { hall with
          flying := hall.flying.eraseIdx place
          lost := hall.lost ++ [ask] }
  | .act action =>
      if others action then
        (hall.sys.step env action).map fun sys => { hall with sys := sys }
      else none

/-- The status with which the door answers a request. -/
def status (env : Env) (hall : Hall) (ask : Ask) : Nat :=
  (Program.run FileDirectory.serve
    (Cortex.route env.vault hall.sys.cx (posted ask)) hall.sys.host).1.out.status

end Hall

def Ask.asConsole : Ask → Option Bool
  | console on => some on
  | _ => none

def Ask.asPage : Ask → Option String
  | page index => some (pageName index)
  | _ => none

def Ask.asFlip : Ask → Option Bool
  | flip on => some on
  | _ => none

/-- The mood after this one. -/
def nextMood (mood : String) : String :=
  (Cortex.nextFrom mood).name

/-- The settings after these asks: of each kind the last one counts, but for the
mood, where each one counts. -/
structure Settled (start now : Cortex.State) (served : List Ask) : Prop where
  console : now.ripperdoc =
    (served.filterMap Ask.asConsole).getLast?.getD start.ripperdoc
  page : now.page = (served.filterMap Ask.asPage).getLast?.getD start.page
  flip : now.oledFlip =
    (served.filterMap Ask.asFlip).getLast?.getD start.oledFlip
  mood : now.mood = nextMood^[served.count .mood] start.mood

theorem settled_start (start : Cortex.State) : Settled start start [] where
  console := rfl
  page := rfl
  flip := rfl
  mood := rfl

theorem Settled.serve {start : Cortex.State} {cx : Cortex} {served : List Ask}
    (settled : Settled start cx.st served) (ask : Ask) :
    Settled start (ask.obeyed cx).st (served ++ [ask]) := by
  obtain ⟨console, page, flip, mood⟩ := settled
  cases ask with
  | console on =>
      constructor <;> simp [Ask.obeyed, Cortex.consoled, Ask.asConsole,
        Ask.asPage, Ask.asFlip, page, flip, mood]
  | page index =>
      constructor <;> simp [Ask.obeyed, Cortex.turned, Ask.asConsole,
        Ask.asPage, Ask.asFlip, console, flip, mood]
  | mood =>
      constructor
      · simp [Ask.obeyed, Cortex.wear, Ask.asConsole, console]
      · simp [Ask.obeyed, Cortex.wear, Ask.asPage, page]
      · simp [Ask.obeyed, Cortex.wear, Ask.asFlip, flip]
      · rw [List.count_append, List.count_singleton_self,
          Function.iterate_succ_apply', ← mood]
        rfl
  | flip on =>
      constructor <;> simp [Ask.obeyed, Cortex.shown, Ask.asConsole,
        Ask.asPage, Ask.asFlip, console, page, mood]

theorem Settled.sameSettings {start now after : Cortex.State}
    {served : List Ask} (settled : Settled start now served)
    (same : Cortex.SameSettings after now) : Settled start after served where
  console := same.ripperdoc.trans settled.console
  page := same.page.trans settled.page
  flip := same.oledFlip.trans settled.flip
  mood := same.mood.trans settled.mood

/-- What is not a request at the door leaves the settings alone. -/
theorem sameSettings_of_step {env : Env} {sys after : Sys} {action : Action}
    (stepped : sys.step env action = some after)
    (other : Hall.others action = true) :
    Cortex.SameSettings after.cx.st sys.cx.st := by
  have effect := Cortex.effect_of_step stepped
  cases effect with
  | merged ticks main decoded => exact Cortex.sameSettings_merge _ _ _
  | verbed command verb => cases other
  | answered host other' => cases other
  | flushed flushes =>
      cases flushes <;> exact ⟨rfl, rfl, rfl, rfl, rfl, rfl, rfl, rfl, rfl⟩
  | _ => exact ⟨rfl, rfl, rfl, rfl, rfl, rfl, rfl, rfl, rfl⟩

/-- A request is accepted, and the state is due to be said again. -/
structure Hall.Taken (env : Env) (hall : Hall) (ask : Ask) : Prop where
  status : hall.status env ask = 200
  news : ∃ news, .stateChanged ∈ news ∧
    (hall.sys.serveRequest env (posted ask)).news = hall.sys.news ++ news

/-- A request of the console is served as its ask says. -/
theorem serve_posted {env : Env} (reads : Reads env.vault.text) (hall : Hall)
    (ask : Ask) :
    (hall.sys.serveRequest env (posted ask)).cx = ask.obeyed hall.sys.cx ∧
      hall.Taken env ask := by
  obtain ⟨dispatched, verb, obeyed, good⟩ := accepted hall.sys.cx ask
  have routed := run_route_posted reads hall.sys.cx ask verb hall.sys.host
  have due : .stateChanged ∈ Cortex.newsOf ask.cmd dispatched := by
    unfold Cortex.newsOf
    cases dispatched.event with
    | some event => simp
    | none => cases ask <;> simp [good, Ask.cmd]
  refine ⟨?_, ?_, Cortex.newsOf ask.cmd dispatched, due, ?_⟩
  · rw [Sys.serveRequest, routed]
    exact obeyed
  · rw [Hall.status, routed]
    exact good
  · rw [Sys.serveRequest, routed]

/-- What a run of the consoles and the door keeps. -/
structure Hall.Kept (start : Sys) (hall : Hall) : Prop where
  each : (hall.served ++ hall.lost ++ hall.flying).Perm hall.pressed
  settled : Settled start.cx.st hall.sys.cx.st hall.served

theorem perm_of_getElem {flying : List Ask} {place : Nat} {ask : Ask}
    (there : flying[place]? = some ask) :
    (ask :: flying.eraseIdx place).Perm flying := by
  obtain ⟨inside, same⟩ := List.getElem?_eq_some_iff.mp there
  rw [← same]
  exact List.getElem_cons_eraseIdx_perm inside

theorem Hall.kept_of_step {env : Env} (reads : Reads env.vault.text)
    {start : Sys} {hall after : Hall} {move : Move}
    (stepped : hall.step env move = some after) (kept : hall.Kept start) :
    after.Kept start := by
  obtain ⟨each, settled⟩ := kept
  cases move with
  | press v code =>
      obtain ⟨ask, -, rfl⟩ := Option.map_eq_some_iff.mp stepped
      refine ⟨?_, settled⟩
      rw [← List.append_assoc]
      exact each.append_right [ask]
  | serve place =>
      obtain ⟨ask, there, rfl⟩ := Option.map_eq_some_iff.mp stepped
      have obeyed := (serve_posted reads hall ask).1
      refine ⟨?_, ?_⟩
      · refine List.Perm.trans ?_ each
        dsimp only
        have moved := (perm_of_getElem there).append_left
          (hall.served ++ hall.lost)
        refine List.Perm.trans ?_ moved
        grind
      · dsimp only
        rw [obeyed]
        exact settled.serve ask
  | lose place =>
      obtain ⟨ask, there, rfl⟩ := Option.map_eq_some_iff.mp stepped
      refine ⟨?_, settled⟩
      refine List.Perm.trans ?_ each
      dsimp only
      have moved := (perm_of_getElem there).append_left
        (hall.served ++ hall.lost)
      refine List.Perm.trans ?_ moved
      grind
  | act action =>
      simp only [Hall.step] at stepped
      split_ifs at stepped with other
      obtain ⟨sys, moved, rfl⟩ := Option.map_eq_some_iff.mp stepped
      exact ⟨each, settled.sameSettings (sameSettings_of_step moved other)⟩

/-- The asks are those of the bodies that the keys send. -/
theorem Hall.bodies_of_run {env : Env} {start : Sys}
    {trace : List (Hall × Move)} {last : Hall}
    (run : Run (Hall.step env) { sys := start } trace last) :
    last.pressed.map Ask.body = trace.filterMap fun entry => entry.2.sends := by
  induction run with
  | stay => rfl
  | @move trace before after move run stepped induction =>
      rw [List.filterMap_append, ← induction]
      cases move with
      | press v code =>
          obtain ⟨ask, asked, rfl⟩ := Option.map_eq_some_iff.mp stepped
          simp [Move.sends, command_eq, asked]
      | serve | lose =>
          obtain ⟨ask, -, rfl⟩ := Option.map_eq_some_iff.mp stepped
          simp [Move.sends]
      | act action =>
          simp only [Hall.step] at stepped
          split_ifs at stepped
          obtain ⟨sys, -, rfl⟩ := Option.map_eq_some_iff.mp stepped
          simp [Move.sends]

/-- In every run of any number of consoles, whatever they show and however their
requests cross and get lost: each request that arrives is accepted and has the
state said again, none is served twice or without a key, and the settings are
those of the last request served of each kind, the mood as many steps on as moods
were asked for.  The requests are the bodies that the console sends for its keys. -/
theorem keys_settle {env : Env} (reads : Reads env.vault.text) {start : Sys}
    {trace : List (Hall × Move)} {last : Hall}
    (run : Run (Hall.step env) { sys := start } trace last) :
    (∀ before place, (before, .serve place) ∈ trace →
      ∃ ask, before.flying[place]? = some ask ∧ before.Taken env ask) ∧
      (last.served ++ last.lost ++ last.flying).Perm last.pressed ∧
      Settled start.cx.st last.sys.cx.st last.served ∧
      last.pressed.map Ask.body =
        trace.filterMap fun entry => entry.2.sends := by
  have kept : last.Kept start := by
    refine run.kept ⟨.refl _, settled_start _⟩ ?_
    intro before move after stepped
    exact Hall.kept_of_step reads stepped
  refine ⟨fun before place member => ?_, kept.each, kept.settled,
    Hall.bodies_of_run run⟩
  obtain ⟨earlier, later, rfl⟩ := List.append_of_mem member
  obtain ⟨-, after, stepped⟩ := run.split
  obtain ⟨ask, there, -⟩ := Option.map_eq_some_iff.mp stepped
  exact ⟨ask, there, (serve_posted reads before ask).2⟩

namespace TwoConsoles

def asks : List Ask :=
  [.console true, .console false, .mood, .flip true, .flip false] ++
    (List.finRange 7).map Ask.page

/-- A library that reads the bodies of the console. -/
def text : Json.Text :=
  { Cortex.Trial.vault.text with
    parse := fun body =>
      match asks.find? fun ask => ask.body == body with
      | some ask => .ok ask.value
      | none => .error "expected value at line 1 column 1" }

theorem reads_text : Reads text := by
  have found (ask : Ask) :
      (asks.find? fun other => other.body == ask.body) = some ask := by
    cases ask with
    | console on | flip on => cases on <;> decide +kernel
    | mood => decide +kernel
    | page index =>
        revert index
        decide +kernel
  intro ask
  change (match asks.find? fun other => other.body == ask.body with
    | some ask => Except.ok ask.value
    | none => .error "expected value at line 1 column 1") = _
  rw [found ask]

def env : Env :=
  { Cortex.Trial.env with vault := { Cortex.Trial.vault with text := text } }

/-- Both consoles turn the face while neither has heard of the other, and one of
them asks for a mood. -/
def moves : List Move :=
  [.press {} (.char 'f'), .press {} (.char 'm'), .press {} (.char 'f'),
    .serve 2, .serve 0, .serve 0]

/-- No key has been pressed. -/
def start : Hall where
  sys := Cortex.boot env false Cortex.Trial.host (Cortex.Trial.server ∅)

theorem keys_settle_twoConsoles :
    ∃ trace last, TransitionRun.Run (Hall.step env) start trace last ∧
      trace.map Prod.snd = moves ∧ last.flying = [] ∧
      last.sys.cx.st.oledFlip = true ∧ last.sys.cx.st.mood = "busy" := by
  have followed : TransitionRun.follow (Hall.step env) start moves =
      some (_, _) :=
    rfl
  have run := TransitionRun.run_of_follow followed
  obtain ⟨-, -, settled, -⟩ := keys_settle reads_text run
  exact ⟨_, _, run, TransitionRun.actions_of_follow followed, rfl,
    settled.flip.trans rfl, settled.mood.trans rfl⟩

end TwoConsoles

end Console
