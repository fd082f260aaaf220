import Loa.CortexProcess

/-!
# What an action does

Of all requests only the state verbs move the cortex or make news, and they do
so as functions of the cortex and the arguments alone.  A message in moves the
readings and may queue a sample.  Everything else says something on the feed or
hands a record to the flusher.  `Effect` says of each step what it leaves.
-/

namespace Cortex

open FileDirectory Json Wire RustText

/-- The state verbs. -/
def stateVerb (cx : Cortex) (cmd : String) (args : Value) :
    Option Dispatched :=
  if cmd = "feel" then some (dispatchFeel cx args)
  else if cmd = "display" then some (dispatchDisplay cx args)
  else if cmd = "ripperdoc" then some (dispatchRipperdoc cx args)
  else none

/-- The mood that a `feel` with these arguments is accepted for. -/
def felt (cx : Cortex) (args : Value) : Option Mood :=
  cx.feelTarget ((args.get "feeling").bind Value.asStr)
    (((args.get "next").bind Value.asBool).getD false)

/-- What a state verb can come to. -/
inductive Verbed (cx : Cortex) : String → Value → Dispatched → Prop
  | refused (cmd : String) (args : Value) (out : Out) (bad : out.status ≠ 200) :
      Verbed cx cmd args ⟨out, none, cx⟩
  | felt (args : Value) (out : Out) (mood : Mood) (note : Option String)
      (target : Cortex.felt cx args = some mood)
      (good : out.status = 200) :
      Verbed cx "feel" args
        ⟨out, some ("mood", (Logged.mood mood.name mood.ring note).detail),
          cx.wear mood⟩
  | idle (args : Value) (out : Out) (good : out.status = 200) :
      Verbed cx "display" args ⟨out, none, cx⟩
  | showed (args : Value) (out : Out) (mode text : Option String)
      (dim flip : Option Bool)
      (modeGiven : mode = (args.get "mode").bind Value.asStr)
      (dimGiven : dim = (args.get "dim").bind Value.asBool)
      (flipGiven : flip = (args.get "flip").bind Value.asBool)
      (good : out.status = 200) :
      Verbed cx "display" args
        ⟨out, some ("display", (Logged.display mode text dim flip).detail),
          cx.shown mode text dim flip⟩
  | consoled (args : Value) (out : Out) (on : Bool) (page : Option String)
      (onGiven : (args.get "on").bind Value.asBool = some on)
      (pageGiven : page = (args.get "page").bind Value.asStr)
      (good : out.status = 200) :
      Verbed cx "ripperdoc" args
        ⟨out, some ("ripperdoc",
            (Logged.ripperdoc on (cx.turned page).st.page).detail),
          (cx.turned page).consoled on⟩
  | paged (args : Value) (out : Out) (page : Option String)
      (noOn : (args.get "on").bind Value.asBool = none)
      (pageGiven : page = (args.get "page").bind Value.asStr)
      (known : ∀ p, page = some p → p ∈ PAGES)
      (good : out.status = 200) :
      Verbed cx "ripperdoc" args ⟨out, none, cx.turned page⟩

theorem verbed_of_stateVerb {cx : Cortex} {cmd : String} {args : Value}
    {dispatched : Dispatched}
    (verb : stateVerb cx cmd args = some dispatched) :
    Verbed cx cmd args dispatched := by
  unfold stateVerb at verb
  split at verb
  · rename_i isFeel
    cases verb
    subst isFeel
    unfold dispatchFeel Cortex.feel
    cases target : cx.feelTarget ((args.get "feeling").bind Value.asStr)
        (((args.get "next").bind Value.asBool).getD false) with
    | none => exact .refused _ _ _ (by decide)
    | some mood => exact .felt args _ mood _ target rfl
  split at verb
  · rename_i isDisplay
    cases verb
    subst isDisplay
    unfold dispatchDisplay Cortex.display
    by_cases badMode : ((args.get "mode").bind Value.asStr).any
        fun m => m ∉ DISPLAY_MODES
    · rw [if_pos badMode]
      exact .refused _ _ _ (by decide)
    rw [if_neg badMode]
    split
    · rename_i found
      split at found <;> cases found
    · rename_i logged after found
      split at found
      · cases found
        exact .idle args _ rfl
      · cases found
        exact .showed args _ _ _ _ _ rfl rfl rfl rfl
  split at verb
  · rename_i isRipperdoc
    cases verb
    subst isRipperdoc
    unfold dispatchRipperdoc Cortex.ripperdoc
    by_cases badPage : ((args.get "page").bind Value.asStr).any
        fun p => p ∉ PAGES
    · rw [if_pos badPage]
      exact .refused _ _ _ (by decide)
    rw [if_neg badPage]
    have known (p : String)
        (given : (args.get "page").bind Value.asStr = some p) : p ∈ PAGES := by
      simpa [given] using badPage
    cases on : (args.get "on").bind Value.asBool with
    | none => exact .paged args _ _ on rfl known rfl
    | some on' => exact .consoled args _ on' _ on rfl rfl
  · cases verb

/-- The command in a request that gets as far as one. -/
def commandOf (text : Json.Text) (request : Request) :
    Option (String × Value) :=
  if request.url ≠ "/api" ∨ request.method ≠ "POST" then none
  else
    match request.body.map text.parse with
    | some (.ok parsed) =>
        ((parsed.get "cmd").bind Value.asStr).map fun cmd =>
          (cmd, (parsed.get "args").getD (.object []))
    | _ => none

theorem run_dispatch_verb {v : Vault} {cx : Cortex} {cmd : String}
    {args : Value} {token : Option String} {dispatched : Dispatched}
    (verb : stateVerb cx cmd args = some dispatched) (host : Host) :
    Program.run serve (dispatch v cx cmd args token) host =
      (dispatched, host) := by
  unfold stateVerb at verb
  unfold dispatch
  by_cases feel : cmd = "feel"
  · rw [if_pos feel] at verb ⊢
    cases verb
    rfl
  rw [if_neg feel] at verb ⊢
  by_cases display : cmd = "display"
  · rw [if_pos display] at verb ⊢
    cases verb
    rfl
  rw [if_neg display] at verb ⊢
  by_cases ripperdoc : cmd = "ripperdoc"
  · rw [if_pos ripperdoc] at verb ⊢
    cases verb
    rfl
  rw [if_neg ripperdoc] at verb
  cases verb

theorem run_dispatch_other (v : Vault) {cx : Cortex} {cmd : String}
    {args : Value} (token : Option String)
    (other : stateVerb cx cmd args = none) (host : Host) :
    (Program.run serve (dispatch v cx cmd args token) host).1.cx = cx ∧
      newsOf cmd (Program.run serve (dispatch v cx cmd args token) host).1 =
        [] := by
  unfold stateVerb at other
  unfold dispatch
  by_cases feel : cmd = "feel"
  · simp [feel] at other
  by_cases display : cmd = "display"
  · simp [display] at other
  by_cases ripperdoc : cmd = "ripperdoc"
  · simp [ripperdoc] at other
  rw [if_neg feel, if_neg display, if_neg ripperdoc]
  have noNews (out : Out) : newsOf cmd ⟨out, none, cx⟩ = [] := by
    simp [newsOf, feel, display, ripperdoc]
  split
  · rw [Program.run_bind]
    exact ⟨rfl, noNews _⟩
  split
  · split
    · exact ⟨rfl, noNews _⟩
    · rw [Program.run_bind]
      exact ⟨rfl, noNews _⟩
  split
  · rw [Program.run_bind]
    exact ⟨rfl, noNews _⟩
  · exact ⟨rfl, noNews _⟩

/-- A request is a state verb, or it leaves the cortex and the news alone. -/
theorem serveRequest_cases (env : Env) (sys : Sys) (request : Request) :
    (∃ cmd args dispatched,
      commandOf env.vault.text request = some (cmd, args) ∧
        stateVerb sys.cx cmd args = some dispatched ∧
        sys.serveRequest env request =
          { sys with
            cx := dispatched.cx
            news := sys.news ++ newsOf cmd dispatched }) ∨
      (∀ cmd args, commandOf env.vault.text request = some (cmd, args) →
        stateVerb sys.cx cmd args = none) ∧
        ∃ host, sys.serveRequest env request = { sys with host := host } := by
  unfold Sys.serveRequest route commandOf
  by_cases stray : request.url ≠ "/api" ∨ request.method ≠ "POST"
  · rw [if_pos stray, if_pos stray]
    right
    exact ⟨by simp, sys.host, by simp⟩
  rw [if_neg stray, if_neg stray]
  cases request.body with
  | none =>
      right
      exact ⟨by simp, sys.host, by simp⟩
  | some body =>
      cases parsed : env.vault.text.parse body with
      | error text =>
          right
          exact ⟨by simp [parsed], sys.host, by simp [parsed]⟩
      | ok value =>
          cases command : (value.get "cmd").bind Value.asStr with
          | none =>
              right
              exact ⟨by simp [parsed, command], sys.host,
                by simp [parsed, command]⟩
          | some cmd =>
              simp only [Option.map_some, parsed, command, Program.run_bind]
              cases verb : stateVerb sys.cx cmd
                  ((value.get "args").getD (.object [])) with
              | some dispatched =>
                  left
                  refine ⟨cmd, _, dispatched, rfl, verb, ?_⟩
                  rw [run_dispatch_verb verb]
                  rfl
              | none =>
                  right
                  obtain ⟨sameCx, quiet⟩ :=
                    run_dispatch_other env.vault request.token verb sys.host
                  refine ⟨?_, (Program.run serve (dispatch env.vault sys.cx cmd
                    ((value.get "args").getD (.object [])) request.token)
                    sys.host).2, ?_⟩
                  · intro cmd' args' same
                    cases same
                    exact verb
                  · simp only [Program.run_pure, sameCx, quiet,
                      List.append_nil]

theorem serveRequest_verb {env : Env} {sys : Sys} {request : Request}
    {cmd : String} {args : Value} {dispatched : Dispatched}
    (command : commandOf env.vault.text request = some (cmd, args))
    (verb : stateVerb sys.cx cmd args = some dispatched) :
    sys.serveRequest env request =
      { sys with
        cx := dispatched.cx
        news := sys.news ++ newsOf cmd dispatched } := by
  rcases serveRequest_cases env sys request with
    ⟨cmd', args', dispatched', command', verb', served⟩ | ⟨other, -⟩
  · cases command.symm.trans command'
    cases verb.symm.trans verb'
    exact served
  · rw [other cmd args command] at verb
    cases verb

/-- The messages that one `publish` puts on the socket. -/
def published (topic : String) (body : Body) : List Parts :=
  match encode topic (envelope body) with
  | .ok parts => [parts]
  | .error _ => []

theorem publish_eq (sys : Sys) (topic : String) (body : Body) :
    sys.publish topic body =
      { sys with feed := sys.feed ++ published topic body } := by
  unfold Sys.publish published
  cases encode topic (envelope body) with
  | ok parts => rfl
  | error error => simp

theorem publishNow_eq (env : Env) (sys : Sys) (topic : String)
    (build : F64 → Body) :
    sys.publishNow env topic build =
      { sys with
        feed := sys.feed ++ published topic (build (env.clock sys.ticks))
        ticks := sys.ticks + 1 } := by
  unfold Sys.publishNow
  rw [publish_eq]

/-- The messages of a republish. -/
def republished (env : Env) (sys : Sys) : List Parts :=
  published "state" (buildState sys.cx.st (env.clock sys.ticks)) ++
    (published "ripperdoc" (buildRipperdoc sys.cx.st sys.cx.lastFace
      (env.clock (sys.ticks + 1))) ++
    (published "ring" (buildRing sys.cx.lastRing
      (env.clock (sys.ticks + 2))) ++
    published "fault" (buildFault sys.cx sys.dbDown
      (env.clock (sys.ticks + 3)))))

theorem republish_eq (env : Env) (sys : Sys) :
    sys.republish env =
      { sys with
        feed := sys.feed ++ republished env sys
        ticks := sys.ticks + 4 } := by
  simp only [Sys.republish, publishNow_eq, republished, List.append_assoc]

theorem logEvent_eq (env : Env) (sys : Sys) (kind : String) (detail : Value) :
    sys.logEvent env kind detail =
      { sys with
        feed := sys.feed ++ published "event"
          (buildEvent env.vault.text kind detail (env.clock sys.ticks))
        writes := sys.writes ++ [.event kind detail (env.clock sys.ticks)]
        sent := sys.sent ++ [.event kind detail (env.clock sys.ticks)]
        ticks := sys.ticks + 1 } := by
  unfold Sys.logEvent
  rw [publish_eq]
  rfl

theorem samplePower_eq (env : Env) (sys : Sys) (rails : Dict F64) :
    ∃ host lastRails lastSeal powerNews ticks,
      sys.samplePower env rails =
        { sys with
          host := host
          lastRails := lastRails
          lastSeal := lastSeal
          powerNews := powerNews
          ticks := ticks } := by
  unfold Sys.samplePower
  dsimp only
  split
  · exact ⟨_, _, _, _, _, rfl⟩
  · exact ⟨_, _, _, _, _, rfl⟩

/-- A state verb moves settings, not readings. -/
theorem stateVerb_readings {cx : Cortex} {cmd : String} {args : Json.Value}
    {dispatched : Dispatched}
    (verb : stateVerb cx cmd args = some dispatched) :
    dispatched.cx.st.faults = cx.st.faults ∧
      dispatched.cx.st.faultTs = cx.st.faultTs ∧
      dispatched.cx.st.condition = cx.st.condition := by
  cases verbed_of_stateVerb verb <;> exact ⟨rfl, rfl, rfl⟩

/-- Only a fault report moves the rows and the word. -/
theorem merge_readings (now : F64) (cx : Cortex) {msg : Msg}
    (other : ∀ f, msg.env.body ≠ some (.fault f)) :
    (cx.merge now msg).st.faults = cx.st.faults ∧
      (cx.merge now msg).st.faultTs = cx.st.faultTs ∧
      (cx.merge now msg).st.condition = cx.st.condition := by
  unfold Cortex.merge
  cases carries : msg.env.body with
  | none => exact ⟨rfl, rfl, rfl⟩
  | some body =>
      cases body with
      | fault f => exact absurd carries (other f)
      | weather w =>
          dsimp only
          unfold Cortex.mergeWeather
          cases w.pressureHpa <;> exact ⟨rfl, rfl, rfl⟩
      | _ => exact ⟨rfl, rfl, rfl⟩

/-- No reading moves a setting. -/
theorem settingsSnapshot_merge (now : F64) (cx : Cortex) (msg : Msg) :
    settingsSnapshot (cx.merge now msg) = settingsSnapshot cx := by
  unfold Cortex.merge
  cases msg.env.body with
  | none => rfl
  | some body =>
      cases body with
      | weather w =>
          dsimp only
          unfold Cortex.mergeWeather
          cases w.pressureHpa <;> rfl
      | _ => rfl

/-- The sample that a reading leaves for the store. -/
def sampleOf (msg : Msg) : List Write :=
  match msg.env.body with
  | some (.weather w) =>
      match w.ts, w.pressureHpa with
      | some ts, some hpa => [.baro ts hpa]
      | _, _ => []
  | _ => []

theorem mergeReading_eq (env : Env) (sys : Sys) (msg : Msg) :
    sys.mergeReading env msg =
      { sys with
        cx := sys.cx.merge (env.clock sys.ticks) msg
        ticks := sys.ticks + 1
        writes := sys.writes ++ sampleOf msg
        sent := sys.sent ++ sampleOf msg } := by
  unfold Sys.mergeReading sampleOf
  cases carries : msg.env.body with
  | none => simp
  | some body =>
      cases body with
      | weather w =>
          dsimp only
          cases w.ts with
          | none => simp
          | some ts => cases w.pressureHpa <;> simp [Sys.send]
      | _ => simp

/-- What is rebuilt and said for a reading. -/
def rebuilt (cx : Cortex) (dbDown : Bool) (now : F64) (msg : Msg) :
    List Parts :=
  match msg.env.body with
  | some (.pir _) => published "pir" (buildPir cx.st now)
  | some (.sonar _) => published "sonar" (buildSonar cx.st now)
  | some (.weather _) => published "weather" (buildWeather cx now)
  | some (.fault _) => published "fault" (buildFault cx dbDown now)
  | _ => []

theorem rebuild_eq (env : Env) (sys : Sys) (msg : Msg) :
    ∃ ticks, sys.rebuild env msg =
      { sys with
        feed := sys.feed ++
          rebuilt sys.cx sys.dbDown (env.clock sys.ticks) msg
        ticks := ticks } := by
  unfold Sys.rebuild rebuilt
  cases msg.env.body with
  | none => exact ⟨sys.ticks, by rw [List.append_nil]⟩
  | some body =>
      cases body with
      | pir | sonar | weather | fault => exact ⟨_, publishNow_eq ..⟩
      | _ => exact ⟨sys.ticks, by rw [List.append_nil]⟩

/-- What the relay says for a frame. -/
def relayed (parts : Parts) : List Parts :=
  match routeParts parts.topic parts.payload with
  | .ok relay => [relay]
  | .error _ => []

/-- The steps of the process by what they leave, one constructor for each
branch. -/
inductive Effect (env : Env) (sys : Sys) : Action → Sys → Prop
  | asked {left : Nat} {init : Body}
      (main : sys.main = .asking (left + 1) init) :
      Effect env sys .ask
        { sys with
          feed := sys.feed ++ published "init" init
          main := .asking left init }
  | opened {init : Body} (main : sys.main = .asking 0 init) :
      Effect env sys .ask
        { sys with
          feed := sys.feed ++ republished env sys
          ticks := sys.ticks + 4
          main := .running }
  | relay {parts : Parts} (main : sys.main = .running)
      (frame : isFrame parts.topic = true) :
      Effect env sys (.inbound parts)
        { sys with feed := sys.feed ++ relayed parts }
  | dropped {parts : Parts} {error : Wire.Error} (main : sys.main = .running)
      (refused : decode env.prost parts = .error error) :
      Effect env sys (.inbound parts) sys
  | merged {parts : Parts} {msg : Msg} (ticks : Nat)
      (main : sys.main = .running)
      (decoded : decode env.prost parts = .ok msg) :
      Effect env sys (.inbound parts)
        { sys with
          cx := sys.cx.merge (env.clock sys.ticks) msg
          feed := sys.feed ++ rebuilt (sys.cx.merge (env.clock sys.ticks) msg)
            sys.dbDown (env.clock (sys.ticks + 1)) msg
          ticks := ticks
          writes := sys.writes ++ sampleOf msg
          sent := sys.sent ++ sampleOf msg }
  | verbed {request : Request} {cmd : String} {args : Value}
      {dispatched : Dispatched}
      (command : commandOf env.vault.text request = some (cmd, args))
      (verb : stateVerb sys.cx cmd args = some dispatched) :
      Effect env sys (.door request)
        { sys with
          cx := dispatched.cx
          news := sys.news ++ newsOf cmd dispatched }
  | answered {request : Request} (host : Host)
      (other : ∀ cmd args, commandOf env.vault.text request = some (cmd, args) →
        stateVerb sys.cx cmd args = none) :
      Effect env sys (.door request) { sys with host := host }
  | logged {kind : String} {detail : Value} {rest : List News}
      (main : sys.main = .running)
      (news : sys.news = .event kind detail :: rest) :
      Effect env sys .hearNews
        { sys with
          news := rest
          feed := sys.feed ++ published "event"
            (buildEvent env.vault.text kind detail (env.clock sys.ticks))
          writes := sys.writes ++ [.event kind detail (env.clock sys.ticks)]
          sent := sys.sent ++ [.event kind detail (env.clock sys.ticks)]
          ticks := sys.ticks + 1 }
  | republish {rest : List News} (main : sys.main = .running)
      (news : sys.news = .stateChanged :: rest) :
      Effect env sys .hearNews
        { sys with
          news := rest
          feed := sys.feed ++ republished env sys
          ticks := sys.ticks + 4 }
  | sampled {rails : Dict F64} (host : Host) (lastRails : Dict F64)
      (lastSeal : String) (powerNews : List Body) (ticks : Nat)
      (main : sys.main = .running) :
      Effect env sys (.sample rails)
        { sys with
          host := host
          lastRails := lastRails
          lastSeal := lastSeal
          powerNews := powerNews
          ticks := ticks }
  | powered {body : Body} {rest : List Body} (main : sys.main = .running)
      (news : sys.powerNews = body :: rest) :
      Effect env sys .hearPower
        { sys with
          powerNews := rest
          feed := sys.feed ++ published "power" body }
  | flushed {after : Sys} (flushes : Flushes sys after) :
      Effect env sys .flush after
  | cut :
      Effect env sys .outage
        { sys with store.server := sys.store.server.outage }
  | restored :
      Effect env sys .recovery
        { sys with store.server := sys.store.server.recovery }

/-- A message in is relayed or refused, or merged and rebuilt. -/
theorem effect_of_onInbox (env : Env) {sys : Sys} (parts : Parts)
    (main : sys.main = .running) :
    Effect env sys (.inbound parts) (sys.onInbox env parts) := by
  unfold Sys.onInbox
  split
  · rename_i frame
    have effect : Effect env sys (.inbound parts) _ := .relay main frame
    cases routed : routeParts parts.topic parts.payload with
    | ok relay => simpa [relayed, routed] using effect
    | error error => simpa [relayed, routed] using effect
  split
  · rename_i error refused
    exact .dropped main refused
  · rename_i msg decoded
    obtain ⟨ticks, rebuilt⟩ := rebuild_eq env (sys.mergeReading env msg) msg
    rw [rebuilt, mergeReading_eq]
    exact .merged ticks main decoded

theorem effect_of_step {env : Env} {sys after : Sys} {action : Action}
    (stepped : sys.step env action = some after) :
    Effect env sys action after := by
  cases action with
  | ask =>
      simp only [Sys.step, publish_eq, republish_eq] at stepped
      split at stepped
      · rename_i left init main
        cases stepped
        exact .asked main
      · rename_i init main
        cases stepped
        exact .opened main
      · cases stepped
  | inbound parts =>
      simp only [Sys.step] at stepped
      split at stepped
      · rename_i main
        cases stepped
        exact effect_of_onInbox env parts main
      · cases stepped
  | door request =>
      cases stepped
      rcases serveRequest_cases env sys request with
        ⟨cmd, args, dispatched, command, verb, served⟩ | ⟨other, host, served⟩
      · rw [served]
        exact .verbed command verb
      · rw [served]
        exact .answered host other
  | hearNews =>
      simp only [Sys.step, logEvent_eq, republish_eq] at stepped
      split at stepped
      · rename_i kind detail rest main news
        cases stepped
        exact .logged main news
      · rename_i rest main news
        cases stepped
        exact .republish main news
      · cases stepped
  | sample rails =>
      simp only [Sys.step] at stepped
      split at stepped
      · rename_i main
        cases stepped
        obtain ⟨host, lastRails, lastSeal, powerNews, ticks, sampled⟩ :=
          samplePower_eq env sys rails
        rw [sampled]
        exact .sampled host lastRails lastSeal powerNews ticks main
      · cases stepped
  | hearPower =>
      simp only [Sys.step, publish_eq] at stepped
      split at stepped
      · rename_i body rest main news
        cases stepped
        exact .powered main news
      · cases stepped
  | flush => exact .flushed (flushes_of_flush stepped)
  | outage =>
      cases stepped
      exact .cut
  | recovery =>
      cases stepped
      exact .restored

/-- A request is one step of the process. -/
theorem effect_of_serveRequest (env : Env) (sys : Sys) (request : Request) :
    Effect env sys (.door request) (sys.serveRequest env request) :=
  effect_of_step rfl

/-- The step puts the state back on the wire. -/
def republishes (sys : Sys) : Action → Bool
  | .ask =>
      match sys.main with
      | .asking 0 _ => true
      | _ => false
  | .hearNews =>
      match sys.main, sys.news with
      | .running, .stateChanged :: _ => true
      | _, _ => false
  | _ => false

theorem republishes_cases {env : Env} {sys after : Sys} {action : Action}
    (effect : Effect env sys action after)
    (again : republishes sys action = true) :
    after.feed = sys.feed ++ republished env sys ∧ after.cx = sys.cx ∧
      after.dbDown = sys.dbDown ∧ after.main = .running := by
  cases effect with
  | asked main => simp [republishes, main] at again
  | opened main => exact ⟨rfl, rfl, rfl, rfl⟩
  | logged main news => simp [republishes, main, news] at again
  | republish main news => exact ⟨rfl, rfl, rfl, main⟩
  | _ => cases again

/-- The body of a message that the inbound leg takes through the contract. -/
def accepted (env : Env) (parts : Parts) : Option Body :=
  if isFrame parts.topic then none
  else
    match decode env.prost parts with
    | .ok msg => msg.env.body
    | .error _ => none

/-- What has been said stays said. -/
theorem feed_grows {env : Env} {sys after : Sys} {action : Action}
    (effect : Effect env sys action after) : sys.feed <+: after.feed := by
  cases effect with
  | asked | opened | relay | merged | logged | republish | powered =>
      exact List.prefix_append ..
  | flushed flushes => cases flushes <;> exact List.prefix_refl _
  | _ => exact List.prefix_refl _

/-- A step beside the flusher's: it may queue records, and it leaves the
flusher and the tables of the store alone. -/
structure Queues (sys after : Sys) (records : List Write) : Prop where
  writes : after.writes = sys.writes ++ records
  sent : after.sent = sys.sent ++ records
  flusher : after.flusher = sys.flusher
  settings : after.store.server.settings = sys.store.server.settings
  events : after.store.server.events = sys.store.server.events
  baroSamples : after.store.server.baroSamples = sys.store.server.baroSamples

theorem queues_of_effect {env : Env} {sys after : Sys} {action : Action}
    (effect : Effect env sys action after) (notFlush : action ≠ .flush) :
    ∃ records, Queues sys after records := by
  cases effect with
  | merged => exact ⟨_, rfl, rfl, rfl, rfl, rfl, rfl⟩
  | logged => exact ⟨_, rfl, rfl, rfl, rfl, rfl, rfl⟩
  | flushed => exact absurd rfl notFlush
  | _ =>
      exact ⟨[], (List.append_nil _).symm, (List.append_nil _).symm, rfl, rfl,
        rfl, rfl⟩

/-- No step of the cortex moves what the database accepts. -/
theorem accepts_of_effect {env : Env} {sys after : Sys} {action : Action}
    (effect : Effect env sys action after) :
    after.store.server.accepts = sys.store.server.accepts := by
  cases effect with
  | flushed flushes =>
      cases flushes with
      | wrote | saved => exact Server.accepts_execute _ _
      | _ => rfl
  | _ => rfl

section Under

variable {α : Type} (prost : Prost) (topic : String) (read : Body → Option α)

/-- What a message says, if it is under this topic. -/
def under (parts : Parts) : Option α :=
  match decode prost parts with
  | .ok msg => if msg.topic = topic then msg.env.body.bind read else none
  | .error _ => none

def saidUnder (feed : List Parts) : List α :=
  feed.filterMap (under prost topic read)

@[simp]
theorem saidUnder_append (feed said : List Parts) :
    saidUnder prost topic read (feed ++ said) =
      saidUnder prost topic read feed ++ saidUnder prost topic read said :=
  List.filterMap_append

variable {topic}

theorem under_of_topic_ne {other : String} {payload : Frame}
    (different : other ≠ topic) :
    under prost topic read ⟨asBytes other, payload⟩ = none := by
  unfold under
  split
  · rename_i msg decoded
    obtain ⟨rfl, -⟩ := decode_named decoded
    rw [if_neg different]
  · rfl

theorem saidUnder_published_other {other : String}
    (different : other ≠ topic) (body : Body) :
    saidUnder prost topic read (published other body) = [] := by
  unfold published
  cases encoded : encode other (envelope body) with
  | error error => rfl
  | ok parts =>
      have sent : parts.topic = asBytes other := topic_of_encode encoded
      obtain ⟨bytes, payload⟩ := parts
      subst sent
      simp [saidUnder, under_of_topic_ne prost read different]

theorem saidUnder_published (known : topic ∈ TOPICS) {body : Body}
    {parts : Parts} (encoded : encode topic (envelope body) = .ok parts) :
    saidUnder prost topic read (published topic body) = (read body).toList := by
  have decoded := decode_encode prost known encoded
  have found : under prost topic read parts = read body := by
    rw [under, decoded]
    exact if_pos rfl
  rw [published, encoded]
  cases said : read body with
  | none => simp [saidUnder, found, said]
  | some word => simp [saidUnder, found, said]

theorem saidUnder_relayed (unrouted : ∀ route ∈ ROUTES, route.2 ≠ topic)
    (parts : Parts) : saidUnder prost topic read (relayed parts) = [] := by
  unfold relayed
  cases routed : routeParts parts.topic parts.payload with
  | error error => rfl
  | ok relay =>
      obtain ⟨route, member, rfl⟩ := route_of_routeParts routed
      simp [saidUnder, under_of_topic_ne prost read (unrouted route member)]

/-- The topics that are rebuilt for a reading. -/
def REBUILT : List String :=
  ["pir", "sonar", "weather", "fault"]

theorem saidUnder_rebuilt (unbuilt : topic ∉ REBUILT) (cx : Cortex)
    (dbDown : Bool) (now : F64) (msg : Msg) :
    saidUnder prost topic read (rebuilt cx dbDown now msg) = [] := by
  have other {built : String} (member : built ∈ REBUILT) : built ≠ topic :=
    fun same => unbuilt (same ▸ member)
  unfold rebuilt
  split
  · exact saidUnder_published_other prost read (other (by decide)) _
  · exact saidUnder_published_other prost read (other (by decide)) _
  · exact saidUnder_published_other prost read (other (by decide)) _
  · exact saidUnder_published_other prost read (other (by decide)) _
  · rfl

/-- A republish says one message under each of its four topics. -/
theorem saidUnder_republished (topic : String) (env : Env) (sys : Sys) :
    saidUnder prost topic read (republished env sys) =
      if topic = "state" then
        (read (buildState sys.cx.st (env.clock sys.ticks))).toList
      else if topic = "ripperdoc" then
        (read (buildRipperdoc sys.cx.st sys.cx.lastFace
          (env.clock (sys.ticks + 1)))).toList
      else if topic = "ring" then
        (read (buildRing sys.cx.lastRing (env.clock (sys.ticks + 2)))).toList
      else if topic = "fault" then
        (read (buildFault sys.cx sys.dbDown
          (env.clock (sys.ticks + 3)))).toList
      else [] := by
  have own {named : String} (known : named ∈ TOPICS) {body : Body}
      (encoded : encode named (envelope body) =
        .ok ⟨asBytes named, .encoded (envelope body)⟩) :=
    saidUnder_published prost read known encoded
  have other {named : String} (different : named ≠ topic) (body : Body) :=
    saidUnder_published_other prost read different body
  unfold republished
  simp only [saidUnder_append]
  by_cases state : topic = "state"
  · subst state
    rw [if_pos rfl, own (by decide) rfl, other (by decide), other (by decide),
      other (by decide)]
    simp
  by_cases ripperdoc : topic = "ripperdoc"
  · subst ripperdoc
    rw [if_neg (by decide), if_pos rfl, own (by decide) rfl, other (by decide),
      other (by decide), other (by decide)]
    simp
  by_cases ring : topic = "ring"
  · subst ring
    rw [if_neg (by decide), if_neg (by decide), if_pos rfl,
      own (by decide) rfl, other (by decide), other (by decide),
      other (by decide)]
    simp
  by_cases fault : topic = "fault"
  · subst fault
    rw [if_neg (by decide), if_neg (by decide), if_neg (by decide), if_pos rfl,
      own (by decide) rfl, other (by decide), other (by decide),
      other (by decide)]
    simp
  · rw [if_neg state, if_neg ripperdoc, if_neg ring, if_neg fault,
      other (Ne.symm state), other (Ne.symm ripperdoc), other (Ne.symm ring),
      other (Ne.symm fault)]
    rfl

end Under

end Cortex
