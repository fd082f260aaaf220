import Loa.CortexState

/-!
# Moods and the state verbs

The mood table and the three verbs that move the settings.  A verb answers with
what the caller has to log, or with the text of a refusal, and hands back the
cortex as it left it.
-/

namespace Cortex

/-- One word, and the face and ring picture it stands for.  A one-shot mood is a
record, not a state of the ring. -/
structure Mood where
  name : String
  ring : String
  oneShot : Bool
  oledMode : String
  oledText : Option String
  oledDim : Bool
  deriving DecidableEq

/-- The mood table; its order is the order of the walk. -/
def MOODS : List Mood :=
  [⟨"calm", "home", false, "scope", none, false⟩,
    ⟨"busy", "busy", false, "ecg", none, false⟩,
    ⟨"pleased", "scan", true, "ripple", none, false⟩,
    ⟨"annoyed", "glitch", true, "noise", none, false⟩,
    ⟨"alarmed", "alarm", false, "text", some "!! FLATLINE !!", false⟩,
    ⟨"asleep", "home", false, "ripple", none, true⟩]

def Mood.calm : Mood :=
  ⟨"calm", "home", false, "scope", none, false⟩

def byName (name : String) : Option Mood :=
  MOODS.find? fun mood => mood.name == name

/-- The mood after the current one; an unknown one starts the walk at calm. -/
def nextFrom (current : String) : Mood :=
  match MOODS.findIdx? fun mood => mood.name == current with
  | some index => MOODS.getD ((index + 1) % MOODS.length) Mood.calm
  | none => MOODS.getD 0 Mood.calm

def PAGES : List String :=
  ["sensors", "pir", "snr", "temp", "frag", "power", "fault"]

def DISPLAY_MODES : List String :=
  ["scope", "ecg", "ripple", "noise", "text", "showoff", "ripperdoc", "off"]

/-- What a verb decided, for the door to render and the log to keep. -/
inductive Logged
  | mood (feeling ring : String) (note : Option String)
  | display (mode text : Option String) (dim flip : Option Bool)
  | ripperdoc (on : Bool) (page : String)
  | none
  deriving DecidableEq

/-- The event detail; the keys of an object are in order. -/
def Logged.detail : Logged → Json.Value
  | .mood feeling ring note =>
      .object [("feeling", .string feeling), ("note", .ofText note),
        ("ring", .string ring)]
  | .display mode text dim flip =>
      .object [("dim", .ofFlag dim), ("flip", .ofFlag flip),
        ("mode", .ofText mode), ("text", .ofText text)]
  | .ripperdoc on page => .object [("on", .bool on), ("page", .string page)]
  | .none => .null

def feelingRefusal : String :=
  "feeling must be one of " ++ "/".intercalate
    ((MOODS.map Mood.name).mergeSort fun first second => first ≤ second)

/-- Put a mood on: the ring's state moves only for a sustained mood. -/
def wear (cx : Cortex) (mood : Mood) : Cortex :=
  { cx with
    st := { cx.st with
      ringState := if mood.oneShot then cx.st.ringState else mood.ring
      mood := mood.name
      oledMode := mood.oledMode
      oledText := mood.oledText
      oledDim := mood.oledDim } }

/-- The mood that a `feel` asks for; `next` wins over a word. -/
def feelTarget (cx : Cortex) (feeling : Option String) (next : Bool) :
    Option Mood :=
  if next then some (nextFrom cx.st.mood) else feeling.bind byName

def feel (cx : Cortex) (feeling : Option String) (next : Bool)
    (note : Option String) : Except String Logged × Cortex :=
  match cx.feelTarget feeling next with
  | none => (.error feelingRefusal, cx)
  | some mood => (.ok (.mood mood.name mood.ring note), cx.wear mood)

/-- What the face is told to show; a mode change clears the text unless the new
mode shows it. -/
def shown (cx : Cortex) (mode text : Option String) (dim flip : Option Bool) :
    Cortex :=
  { cx with
    st := { cx.st with
      oledMode := mode.getD cx.st.oledMode
      oledText :=
        match mode with
        | some m => if m = "text" then text else none
        | none => cx.st.oledText
      oledDim := dim.getD cx.st.oledDim
      oledFlip := flip.getD cx.st.oledFlip } }

/-- A call that changes nothing logs nothing. -/
def display (cx : Cortex) (mode text : Option String) (dim flip : Option Bool) :
    Except String Logged × Cortex :=
  if mode.any fun m => m ∉ DISPLAY_MODES then
    (.error ("mode must be " ++ "|".intercalate DISPLAY_MODES), cx)
  else if mode.isNone ∧ dim.isNone ∧ flip.isNone then (.ok .none, cx)
  else
    (.ok (.display mode text dim flip), cx.shown mode text dim flip)

def turned (cx : Cortex) (page : Option String) : Cortex :=
  { cx with st := { cx.st with page := page.getD cx.st.page } }

/-- The console on or off; it takes the face, or gives it back. -/
def consoled (cx : Cortex) (on : Bool) : Cortex :=
  { cx with
    st := { cx.st with
      ripperdoc := on
      oledMode := if on then "ripperdoc" else "scope" } }

/-- The console flag and the page; a call with a page alone logs nothing. -/
def ripperdoc (cx : Cortex) (on : Option Bool) (page : Option String) :
    Except String Logged × Cortex :=
  if page.any fun p => p ∉ PAGES then
    (.error ("page must be " ++ "|".intercalate PAGES), cx)
  else
    let cx := cx.turned page
    match on with
    | some on => (.ok (.ripperdoc on cx.st.page), cx.consoled on)
    | none => (.ok .none, cx)

end Cortex
