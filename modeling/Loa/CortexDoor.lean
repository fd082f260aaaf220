import Loa.CortexVault
import Loa.CortexVerbs

/-!
# The door

One route takes commands in.  `dispatch` runs one command, and `route` is the
decision tree around it: the path, the body, the command, and the news that the
rest of the cortex gets to hear.
-/

namespace Cortex

open FileDirectory Json

/-- What the door answers. -/
structure Out where
  status : Nat
  body : Value

namespace Out

def good (body : Value) : Out :=
  ⟨200, body⟩

def bad (text : String) : Out :=
  ⟨400, .object [("detail", .string text)]⟩

def forbidden : Out :=
  ⟨403, .object [("detail", .string "seal broken — contents destroyed")]⟩

end Out

def VERBS : List String :=
  ["display", "feel", "ripperdoc", "vault.append", "vault.health",
    "vault.read"]

/-- The face's part of an answer. -/
def oledState (cx : Cortex) : Value :=
  .object [("dim", .bool cx.st.oledDim), ("flip", .bool cx.st.oledFlip),
    ("mode", .string cx.st.oledMode), ("text", .ofText cx.st.oledText)]

/-- What a command leaves: the answer, the event to log, and the cortex. -/
structure Dispatched where
  out : Out
  event : Option (String × Value)
  cx : Cortex

def dispatchFeel (cx : Cortex) (args : Value) : Dispatched :=
  match cx.feel ((args.get "feeling").bind Value.asStr)
      (((args.get "next").bind Value.asBool).getD false)
      ((args.get "note").bind Value.asStr) with
  | (.error text, cx) => ⟨.bad text, none, cx⟩
  | (.ok .none, cx) => ⟨.bad "feel needs feeling or next", none, cx⟩
  | (.ok logged, cx) =>
      let detail := logged.detail
      ⟨.good (.object
          [("feeling", (detail.get "feeling").getD .null),
            ("oled", .object [("dim", .bool cx.st.oledDim),
              ("mode", .string cx.st.oledMode),
              ("text", .ofText cx.st.oledText)]),
            ("ok", .bool true),
            ("ring", (detail.get "ring").getD .null)]),
        some ("mood", detail), cx⟩

def dispatchDisplay (cx : Cortex) (args : Value) : Dispatched :=
  match cx.display ((args.get "mode").bind Value.asStr)
      ((args.get "text").bind Value.asStr)
      ((args.get "dim").bind Value.asBool)
      ((args.get "flip").bind Value.asBool) with
  | (.error text, cx) => ⟨.bad text, none, cx⟩
  | (.ok logged, cx) =>
      ⟨.good (.object [("oled", oledState cx), ("ok", .bool true)]),
        if logged = .none then none else some ("display", logged.detail), cx⟩

def dispatchRipperdoc (cx : Cortex) (args : Value) : Dispatched :=
  match cx.ripperdoc ((args.get "on").bind Value.asBool)
      ((args.get "page").bind Value.asStr) with
  | (.error text, cx) => ⟨.bad text, none, cx⟩
  | (.ok logged, cx) =>
      ⟨.good (.object [("oled", .string cx.st.oledMode), ("ok", .bool true),
          ("page", .string cx.st.page),
          ("ripperdoc", .bool cx.st.ripperdoc)]),
        if logged = .none then none else some ("ripperdoc", logged.detail),
        cx⟩

/-- The vault commands that need the token: a wrong one wipes. -/
def sealedCommand (v : Vault) (token : Option String) (reason : String)
    (answer : FileProgram Value) : FileProgram Out := do
  if ← v.checkToken (token.getD "") then
    let body ← answer
    pure (.good body)
  else
    let _ ← (v.wipe reason).run
    pure .forbidden

/-- Run one command. -/
def dispatch (v : Vault) (cx : Cortex) (cmd : String) (args : Value)
    (token : Option String) : FileProgram Dispatched :=
  if cmd = "feel" then pure (dispatchFeel cx args)
  else if cmd = "display" then pure (dispatchDisplay cx args)
  else if cmd = "ripperdoc" then pure (dispatchRipperdoc cx args)
  else if cmd = "vault.health" then do
    let body ← v.health
    pure ⟨.good body, none, cx⟩
  else if cmd = "vault.append" then
    match (args.get "entry").bind Value.asStr with
    | none => pure ⟨.bad "entry is required", none, cx⟩
    | some entry => do
        let out ← sealedCommand v token "append without token"
          (v.appendResponse entry)
        pure ⟨out, none, cx⟩
  else if cmd = "vault.read" then do
    let out ← sealedCommand v token "read without token" v.readResponse
    pure ⟨out, none, cx⟩
  else
    pure ⟨.bad ("unknown cmd " ++ v.text.quote cmd ++ "; valid: " ++
      ", ".intercalate VERBS), none, cx⟩

/-- A request as the server library hands it over. -/
structure Request where
  url : String
  method : String
  /-- The body, unless it could not be read as text. -/
  body : Option String
  /-- The value of the token header, if there is one. -/
  token : Option String

/-- What the door tells the rest of the cortex. -/
inductive News
  | stateChanged
  | event (kind : String) (detail : Value)

/-- What a request leaves: the answer, the news in order, and the cortex. -/
structure Routed where
  out : Out
  news : List News
  cx : Cortex

/-- The news of a command: an event goes ahead of the state change, and a state
verb that succeeds always reports a state change. -/
def newsOf (cmd : String) (dispatched : Dispatched) : List News :=
  match dispatched.event with
  | some (kind, detail) => [.event kind detail, .stateChanged]
  | none =>
      if dispatched.out.status = 200 ∧ cmd ∈ ["feel", "display", "ripperdoc"]
      then [.stateChanged] else []

/-- The decision tree around the commands. -/
def route (v : Vault) (cx : Cortex) (request : Request) :
    FileProgram Routed :=
  if request.url ≠ "/api" ∨ request.method ≠ "POST" then
    pure ⟨⟨404, .object [("detail", .string "not found")]⟩, [], cx⟩
  else
    match request.body with
    | none => pure ⟨.bad "unreadable body", [], cx⟩
    | some body =>
        match v.text.parse body with
        | .error text =>
            pure ⟨⟨422, .object [("detail", .string text)]⟩, [], cx⟩
        | .ok parsed =>
            match (parsed.get "cmd").bind Value.asStr with
            | none =>
                pure ⟨⟨422, .object
                  [("detail", .string "cmd is required")]⟩, [], cx⟩
            | some cmd => do
                let dispatched ← dispatch v cx cmd
                  ((parsed.get "args").getD (.object [])) request.token
                pure ⟨dispatched.out, newsOf cmd dispatched, dispatched.cx⟩

end Cortex
