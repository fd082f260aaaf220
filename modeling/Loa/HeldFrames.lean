import Loa.CortexEffects
import Loa.TransitionRun

/-!
# The held frames

The device frames go through the relay without a look inside, and the cortex has
a cell for the last one of each kind, which its messages are built from.  The
file follows the two cells through every run and compares what a republish
carries with what was relayed.
-/

namespace Cortex

open FileDirectory Wire RustText TransitionRun

/-- No frame is held. -/
structure Bare (cx : Cortex) : Prop where
  face : cx.lastFace = none
  ring : cx.lastRing = none

theorem bare_merge {cx : Cortex} (bare : Bare cx) (now : F64) (msg : Msg) :
    Bare (cx.merge now msg) := by
  unfold Cortex.merge
  cases msg.env.body with
  | none => exact bare
  | some body =>
      cases body with
      | weather w =>
          dsimp only
          unfold Cortex.mergeWeather
          cases w.pressureHpa <;> exact ⟨bare.face, bare.ring⟩
      | _ => exact ⟨bare.face, bare.ring⟩

theorem bare_stateVerb {cx : Cortex} (bare : Bare cx) {cmd : String}
    {args : Json.Value} {dispatched : Dispatched}
    (verb : stateVerb cx cmd args = some dispatched) :
    Bare dispatched.cx := by
  cases verbed_of_stateVerb verb <;> exact ⟨bare.face, bare.ring⟩

theorem bare_boot (env : Env) (dsn : Bool) (host : Host) (server : Server) :
    Bare (boot env dsn host server).cx := by
  obtain ⟨rows, started⟩ := boot_cx env dsn host server
  rw [started]
  exact ⟨rfl, rfl⟩

/-- No step fills a cell: the relay passes the frame on and keeps nothing. -/
theorem bare_of_effect {env : Env} {sys after : Sys} {action : Action}
    (bare : Bare sys.cx) (effect : Effect env sys action after) :
    Bare after.cx := by
  cases effect with
  | merged => exact bare_merge bare _ _
  | verbed command verb => exact bare_stateVerb bare verb
  | flushed flushes => cases flushes <;> exact bare
  | _ => exact bare

theorem bare_of_run {env : Env} {dsn : Bool} {host : Host} {server : Server}
    {trace : List (Sys × Action)} {sys : Sys}
    (run : Run (Sys.step env) (boot env dsn host server) trace sys) :
    Bare sys.cx := by
  have holds : (fun sys : Sys => Bare sys.cx) sys :=
    run.kept (bare_boot env dsn host server) fun _ _ _ stepped bare =>
      bare_of_effect bare (effect_of_step stepped)
  exact holds

section Pictures

variable (prost : Prost)

/-- The picture in a payload. -/
def faceIn (payload : Frame) : Option Bytes :=
  match payload.decode prost with
  | .ok env =>
      match env.body with
      | some (.ripperdoc m) => m.face
      | _ => none
  | .error _ => none

def ringIn (payload : Frame) : Option Bytes :=
  match payload.decode prost with
  | .ok env =>
      match env.body with
      | some (.ring m) => m.ring
      | _ => none
  | .error _ => none

/-- The pictures of the frames relayed from one device, in order. -/
def relayedFrom (device : String) (picture : Frame → Option Bytes)
    (trace : List (Sys × Action)) : List Bytes :=
  trace.filterMap fun entry =>
    match entry.2 with
    | .inbound parts =>
        if parts.topic = asBytes device then picture parts.payload else none
    | _ => none

def relayedFaces : List (Sys × Action) → List Bytes :=
  relayedFrom "oled" (faceIn prost)

def relayedRings : List (Sys × Action) → List Bytes :=
  relayedFrom "ring" (ringIn prost)

/-- The pictures that the messages under `ripperdoc` and `ring` carry. -/
def facesOn (feed : List Parts) : List (Option Bytes) :=
  saidUnder prost "ripperdoc"
    (fun body =>
      match body with
      | .ripperdoc m => some m.face
      | _ => none)
    feed

def ringsOn (feed : List Parts) : List (Option Bytes) :=
  saidUnder prost "ring"
    (fun body =>
      match body with
      | .ring m => some m.ring
      | _ => none)
    feed

theorem facesOn_republished (env : Env) (sys : Sys) :
    facesOn env.prost (republished env sys) = [sys.cx.lastFace] := by
  unfold facesOn
  rw [saidUnder_republished]
  rfl

theorem ringsOn_republished (env : Env) (sys : Sys) :
    ringsOn env.prost (republished env sys) = [sys.cx.lastRing] := by
  unfold ringsOn
  rw [saidUnder_republished]
  rfl

end Pictures

/-- Something holds of every republish of a run, given what came before it. -/
def AtRepublish (trace : List (Sys × Action))
    (holds : List (Sys × Action) → Sys → Prop) : Prop :=
  ∀ earlier before action later,
    trace = earlier ++ (before, action) :: later →
    republishes before action = true → holds earlier before

theorem relayedFrom_earlier {device : String}
    {picture : Frame → Option Bytes} {trace earlier : List (Sys × Action)}
    {later : List (Sys × Action)} (split : trace = earlier ++ later)
    (quiet : relayedFrom device picture trace = []) :
    relayedFrom device picture earlier = [] := by
  rw [split, relayedFrom, List.filterMap_append] at quiet
  exact (List.append_eq_nil_iff.mp quiet).1

/-- The messages of every republish carry the frames last relayed exactly when
no frame was relayed before any of them. -/
theorem republish_carries_iff (env : Env) (dsn : Bool) (host : Host)
    (server : Server) {trace : List (Sys × Action)} {sys : Sys}
    (run : Run (Sys.step env) (boot env dsn host server) trace sys) :
    (AtRepublish trace (fun earlier before =>
        facesOn env.prost (republished env before) =
          [(relayedFaces env.prost earlier).getLast?]) ↔
      AtRepublish trace fun earlier _ => relayedFaces env.prost earlier = []) ∧
    (AtRepublish trace (fun earlier before =>
        ringsOn env.prost (republished env before) =
          [(relayedRings env.prost earlier).getLast?]) ↔
      AtRepublish trace fun earlier _ => relayedRings env.prost earlier = []) := by
  have bare {earlier later : List (Sys × Action)} {before : Sys}
      {action : Action} (split : trace = earlier ++ (before, action) :: later) :
      Bare before.cx := by
    subst split
    exact bare_of_run run.split.1
  constructor
  · refine forall₅_congr fun earlier before action later split => ?_
    refine imp_congr_right fun _ => ?_
    dsimp only
    rw [facesOn_republished, (bare split).face]
    simp [eq_comm]
  · refine forall₅_congr fun earlier before action later split => ?_
    refine imp_congr_right fun _ => ?_
    dsimp only
    rw [ringsOn_republished, (bare split).ring]
    simp [eq_comm]

namespace Trial

/-- A rendered face as the glass daemon pushes it: the pixels and a time. -/
def faceFrame : Action :=
  push "oled" (.ripperdoc { face := some (List.replicate 1024 0xAB), ts := some 5 })

/-- A frame is relayed and a page is turned. -/
def framed : List Action :=
  asks ++ [faceFrame, post turnPage]

/-- The republish for the page has no face. -/
theorem republish_faceless :
    ∃ earlier before after,
      Run (Sys.step env) (boot env true host (server ∅))
        (earlier ++ [(before, .hearNews)]) after ∧
      earlier.map Prod.snd = framed ∧
      republishes before .hearNews = true ∧
      facesOn env.prost (republished env before) = [none] ∧
      (relayedFaces env.prost earlier).getLast? =
        some (List.replicate 1024 0xAB) := by
  have followed :
      follow (Sys.step env) (boot env true host (server ∅)) framed =
        some (_, _) := rfl
  exact ⟨_, _, _, (run_of_follow followed).move rfl,
    actions_of_follow followed, rfl, rfl, rfl⟩

/-- Without a frame relayed, what is carried is what was relayed. -/
theorem republish_carries_iff_asks :
    ∃ trace sys, Run (Sys.step env) (boot env true host (server ∅)) trace sys ∧
      trace.map Prod.snd = asks ∧
      AtRepublish trace fun earlier before =>
        facesOn env.prost (republished env before) =
          [(relayedFaces env.prost earlier).getLast?] := by
  have followed :
      follow (Sys.step env) (boot env true host (server ∅)) asks =
        some (_, _) := rfl
  refine ⟨_, _, run_of_follow followed, actions_of_follow followed,
    (republish_carries_iff env true host (server ∅)
      (run_of_follow followed)).1.mpr ?_⟩
  intro earlier before action later split _
  exact relayedFrom_earlier split rfl

end Trial

end Cortex
