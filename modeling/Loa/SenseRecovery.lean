import Loa.DriftingGate
import Loa.MotionLevel
import Loa.RestartResync
import Loa.SensorGates

/-!
# What the cortex knows after a restart

The cortex forgets the readings when it starts anew, and what was on its way to it
may be lost.  Its asks bring the full payloads of the daemons, each of which may
never come or come late, between the partials.  The first one that is taken brings
the cortex in step with its daemon: exactly, for motion; within twice the gate for
the numbers that are published when they move, since an answer tells the number of
the moment and not the one last published.
-/

namespace Sense

open RestartResync TransitionRun

namespace Motion

/-- A motion daemon that remembers the start of a hold just while the level is
high. -/
structure Steady where
  pir : Motion
  holds : pir.remembered.onTs.isSome = pir.remembered.high

theorem holds_edge {pir : Motion}
    (holds : pir.remembered.onTs.isSome = pir.remembered.high) (level : Bool)
    (now : F64) :
    (pir.edge level now).2.remembered.onTs.isSome =
      (pir.edge level now).2.remembered.high := by
  unfold edge
  split
  · exact holds
  · cases level <;> rfl

theorem holds_poll {pir : Motion}
    (holds : pir.remembered.onTs.isSome = pir.remembered.high) (pass : Poll) :
    (pir.poll pass).2.remembered.onTs.isSome =
      (pir.poll pass).2.remembered.high := by
  cases pass with
  | error => exact holds
  | level high now =>
      change (pir.tick high now).2.remembered.onTs.isSome =
        (pir.tick high now).2.remembered.high
      rw [tick_eq]
      dsimp only
      split
      · exact holds_edge holds high now
      · exact holds_edge holds high now

theorem holds_born (cooldown : F64) (seed : Option (Bool × F64)) :
    (born cooldown seed).pir.remembered.onTs.isSome =
      (born cooldown seed).pir.remembered.high := by
  match seed with
  | none => rfl
  | some (true, now) => rfl
  | some (false, now) => rfl

/-- The daemon and the cortex. -/
def line : Protocol Steady Poll Wire.Pir Cortex where
  act := fun steady pass =>
    ((steady.pir.poll pass).1.map message,
      ⟨(steady.pir.poll pass).2, holds_poll steady.holds pass⟩)
  full := fun steady => steady.pir.full
  merge := Cortex.mergePir
  fresh := {}

/-- The daemon has the times that a message carries. -/
structure Ours (steady : Steady) (message : Wire.Pir) : Prop where
  ts : message.ts = none
  lastTs : steady.pir.remembered.lastTs = none → message.lastTs = none
  lastHold : steady.pir.remembered.lastHold = none → message.lastHold = none

/-- The daemon has the times that the cortex holds. -/
structure Clean (steady : Steady) (cx : Cortex) : Prop where
  lastTs : steady.pir.remembered.lastTs = none → cx.st.pirLastTs = none
  lastHold : steady.pir.remembered.lastHold = none → cx.st.pirLastHold = 0

/-- The readings of motion are the same. -/
structure Same (first second : Cortex) : Prop where
  high : first.st.pirHigh = second.st.pirHigh
  count : first.st.pirCount = second.st.pirCount
  lastTs : first.st.pirLastTs = second.st.pirLastTs
  lastHold : first.st.pirLastHold = second.st.pirLastHold
  onTs : first.st.pirOnTs = second.st.pirOnTs

/-- An edge only ever adds a hold, and remembers the one it publishes. -/
theorem edge_times (pir : Motion) (level : Bool) (now : F64) :
    let seen := (pir.edge level now).2.remembered
    (seen.lastHold = none → pir.remembered.lastHold = none) ∧
      ∀ news ∈ (pir.edge level now).1.map message, news.ts = none ∧
        news.lastTs = none ∧ (seen.lastHold = none → news.lastHold = none) := by
  unfold edge
  split
  · refine ⟨id, fun news listed => ?_⟩
    cases listed
  · cases level with
    | true =>
        refine ⟨id, fun news listed => ?_⟩
        rw [List.mem_singleton.mp listed]
        exact ⟨rfl, rfl, fun _ => rfl⟩
    | false =>
        refine ⟨(fun known => by cases known), fun news listed => ?_⟩
        rw [List.mem_singleton.mp listed]
        exact ⟨rfl, rfl, (fun known => by cases known)⟩

/-- What a poll remembers and what it publishes: times are only ever added, and
those that are published are remembered. -/
theorem poll_times (pir : Motion) (pass : Poll) :
    let after := (pir.poll pass).2.remembered
    (after.lastTs = none → pir.remembered.lastTs = none) ∧
      (after.lastHold = none → pir.remembered.lastHold = none) ∧
      ∀ news ∈ (pir.poll pass).1.map message, news.ts = none ∧
        (after.lastTs = none → news.lastTs = none) ∧
        (after.lastHold = none → news.lastHold = none) := by
  cases pass with
  | error =>
      refine ⟨id, id, fun news listed => ?_⟩
      cases listed
  | level high now =>
      obtain ⟨hold, told⟩ := edge_times pir high now
      have lastTs := (edge_keeps pir high now).2.2.2.2.2
      change let after := (pir.tick high now).2.remembered
        (after.lastTs = none → pir.remembered.lastTs = none) ∧
          (after.lastHold = none → pir.remembered.lastHold = none) ∧
          ∀ news ∈ (pir.tick high now).1.map message, news.ts = none ∧
            (after.lastTs = none → news.lastTs = none) ∧
            (after.lastHold = none → news.lastHold = none)
      rw [tick_eq]
      dsimp only
      split
      · refine ⟨(fun known => by cases known), hold, fun news listed => ?_⟩
        rw [List.map_append] at listed
        rcases List.mem_append.mp listed with edge | fire
        · obtain ⟨ts, -, lastHold⟩ := told news edge
          exact ⟨ts, (fun known => by cases known), lastHold⟩
        · rw [List.mem_singleton.mp fire]
          exact ⟨rfl, (fun known => by cases known), fun _ => rfl⟩
      · refine ⟨fun known => lastTs ▸ known, hold, fun news listed => ?_⟩
        obtain ⟨ts, silent, lastHold⟩ := told news listed
        exact ⟨ts, fun _ => silent, lastHold⟩

theorem tracks_full {steady : Steady} {cx : Cortex} (clean : Clean steady cx) :
    Tracks (cx.mergePir steady.pir.full).st steady.pir.remembered where
  high := rfl
  count := rfl
  lastTs := by
    change Option.or none (steady.pir.remembered.lastTs.or cx.st.pirLastTs) = _
    cases known : steady.pir.remembered.lastTs with
    | none => exact clean.lastTs known
    | some ts => rfl
  lastHold := by
    change steady.pir.remembered.lastHold.getD cx.st.pirLastHold = _
    cases known : steady.pir.remembered.lastHold with
    | none => exact clean.lastHold known
    | some hold => rfl
  onTs := by
    change steady.pir.remembered.onTs = if steady.pir.remembered.high then
      steady.pir.remembered.onTs.or cx.st.pirOnTs else none
    have holds := steady.holds
    cases known : steady.pir.remembered.onTs with
    | none =>
        rw [known] at holds
        rw [← holds]
        rfl
    | some ts =>
        rw [known] at holds
        rw [← holds]
        rfl

/-- The cortex has what the daemon remembers, and no time that it does not. -/
def Synced (steady : Steady) (cx : Cortex) : Prop :=
  Tracks cx.st steady.pir.remembered

theorem laws_line : Laws line Same Ours Clean Synced where
  same_merge := by
    intro first second same message
    obtain ⟨high, count, lastTs, lastHold, onTs⟩ := same
    refine ⟨?_, ?_, ?_, ?_, ?_⟩
    · exact congrArg message.high.getD high
    · exact congrArg message.count.getD count
    · exact congrArg (fun held => message.ts.or (message.lastTs.or held)) lastTs
    · exact congrArg message.lastHold.getD lastHold
    · exact congrArg message.onTs.or onTs
  clean_same := by
    intro steady first second same clean
    exact ⟨fun known => same.lastTs ▸ clean.lastTs known,
      fun known => same.lastHold ▸ clean.lastHold known⟩
  synced_same := by
    intro steady first second same tracks
    exact ⟨same.high ▸ tracks.high, same.count ▸ tracks.count,
      same.lastTs ▸ tracks.lastTs, same.lastHold ▸ tracks.lastHold,
      same.onTs ▸ tracks.onTs⟩
  clean_fresh := fun steady => ⟨fun _ => rfl, fun _ => rfl⟩
  clean_merge := by
    intro steady cx message ours clean
    constructor
    · intro known
      change message.ts.or (message.lastTs.or cx.st.pirLastTs) = none
      rw [ours.ts, ours.lastTs known, clean.lastTs known]
      rfl
    · intro known
      change message.lastHold.getD cx.st.pirLastHold = 0
      rw [ours.lastHold known, clean.lastHold known]
      rfl
  clean_act := by
    intro steady cx clean pass
    obtain ⟨lastTs, lastHold, -⟩ := poll_times steady.pir pass
    exact ⟨fun known => clean.lastTs (lastTs known),
      fun known => clean.lastHold (lastHold known)⟩
  ours_full := fun steady => ⟨rfl, id, id⟩
  ours_news := by
    intro steady pass news listed
    obtain ⟨-, -, told⟩ := poll_times steady.pir pass
    obtain ⟨ts, lastTs, lastHold⟩ := told news listed
    exact ⟨ts, lastTs, lastHold⟩
  ours_act := by
    intro steady message ours pass
    obtain ⟨lastTs, lastHold, -⟩ := poll_times steady.pir pass
    exact ⟨ours.ts, fun known => ours.lastTs (lastTs known),
      fun known => ours.lastHold (lastHold known)⟩
  clean_of_synced := by
    intro steady cx tracks
    constructor
    · intro known
      exact tracks.lastTs.trans known
    · intro known
      rw [tracks.lastHold, known]
      rfl
  synced_full := fun clean => tracks_full clean
  synced_act := fun tracks pass => tracks_poll tracks pass

/-- The daemon behind its own start; what it said there is on its way. -/
def started (cooldown : F64) (seed : Option (Bool × F64)) :
    Link Steady Wire.Pir Cortex where
  state := ⟨(born cooldown seed).pir, holds_born cooldown seed⟩
  queue := news (full { cooldown := cooldown } :: (born cooldown seed).seeded)
  view := {}
  told := false

theorem ours_started (cooldown : F64) (seed : Option (Bool × F64)) :
    ∀ message ∈ full { cooldown := cooldown } :: (born cooldown seed).seeded,
      Ours ⟨(born cooldown seed).pir, holds_born cooldown seed⟩ message := by
  intro message listed
  rcases List.mem_cons.mp listed with rfl | listed
  · exact ⟨rfl, fun _ => rfl, fun _ => rfl⟩
  · cases seed with
    | none => cases listed
    | some look =>
        rw [List.mem_singleton.mp listed]
        exact ⟨rfl, fun _ => rfl, fun _ => rfl⟩

/-- In every run of the motion daemon and a cortex that starts anew at any moment,
with any front part lost of what was on its way, and asks at any moment: from the first
answer that the cortex takes behind its start, it has the daemon's level, count, last time
and last hold, and while the level is high the start of the hold, as soon as it has
taken what is on its way. -/
theorem motion_recovers {cooldown : F64} {seed : Option (Bool × F64)}
    {trace : List (Link Steady Wire.Pir Cortex × Event Poll Cortex)}
    {link : Link Steady Wire.Pir Cortex}
    (ran : Run (step line) (started cooldown seed) trace link)
    (minds : Along (Minds Same) trace) (told : link.told = true) :
    Tracks (carried line link.view link.queue).st link.state.pir.remembered :=
  synced_of_told laws_line (ours_started cooldown seed) ran minds told

/-- A rise and a scan that a restart loses, and an answer behind it. -/
def lost : List (Event Poll Cortex) :=
  [.act (.level true 10), .act (.level true 11), .restart 3, .ask, .take]

theorem motion_recovers_lost :
    ∃ trace link, Run (step line) (started 5 none) trace link ∧
      trace.map Prod.snd = lost ∧
      (carried line link.view link.queue).st.pirHigh = true ∧
      (carried line link.view link.queue).st.pirCount = 1 := by
  have found : (follow (step line) (started 5 none) lost).map
        (fun found => (found.2.told, found.2.state.pir.remembered.high,
          found.2.state.pir.remembered.count)) = some (true, true, 1) := by
    decide +kernel
  obtain ⟨⟨trace, link⟩, followed, same⟩ := Option.map_eq_some_iff.mp found
  obtain ⟨told, same⟩ := Prod.mk.inj same
  obtain ⟨high, count⟩ := Prod.mk.inj same
  have run := run_of_follow followed
  have actions := actions_of_follow followed
  have minds : Along (Minds Same) trace := along_of_merging (by
    rw [actions]
    simp [lost])
  have tracks := motion_recovers run minds told
  exact ⟨trace, link, run, actions, tracks.high.trans high,
    tracks.count.trans count⟩

end Motion

open DriftingGate

namespace Snr

/-- A sonar daemon whose distance is not away from the one last published. -/
structure Gauged (moveCm : F64) where
  snr : Snr
  gated : Gated moveCm snr.cm snr.lastPubCm

variable {moveCm quietS : F64}

/-- What a measurement does to the distance, and what it tells. -/
theorem sound_cases (snr : Snr) (sounding : Sounding) :
    let after := (snr.sound moveCm quietS sounding).2
    after.cm = some sounding.1 ∧
      ((snr.sound moveCm quietS sounding).1 = [] ∧
          after.lastPubCm = snr.lastPubCm ∧ Still moveCm snr sounding.1 ∨
        (∃ told, (snr.sound moveCm quietS sounding).1 = [told] ∧
          told.cm = some sounding.1) ∧ after.lastPubCm = some sounding.1) := by
  unfold sound
  rcases measured_cases snr sounding.1 sounding.2 moveCm quietS with
    ⟨kept, still, -⟩ | ⟨sent, -⟩
  · rw [kept]
    exact ⟨rfl, .inl ⟨rfl, rfl, still⟩⟩
  · rw [sent]
    exact ⟨rfl, .inr ⟨⟨_, rfl, rfl⟩, rfl⟩⟩

theorem cm_sound_ne_none (snr : Snr) (sounding : Sounding) :
    (snr.sound moveCm quietS sounding).2.cm ≠ none := by
  rw [(sound_cases snr sounding).1]
  exact Option.some_ne_none _

theorem gated_sound (positive : 0 < moveCm) (snr : Snr) (sounding : Sounding) :
    Gated moveCm (snr.sound moveCm quietS sounding).2.cm
      (snr.sound moveCm quietS sounding).2.lastPubCm := by
  obtain ⟨cm, ⟨-, kept, still⟩ | ⟨-, sent⟩⟩ := sound_cases snr sounding
  · obtain ⟨last, pub, -, close⟩ := still
    rw [cm, kept]
    exact gated_keep ⟨last, pub, close⟩
  · rw [cm, sent]
    exact gated_publish positive sounding.1

/-- The daemon and the cortex. -/
def line (quietS : F64) (positive : 0 < moveCm) :
    Protocol (Gauged moveCm) Sounding Wire.Sonar Cortex where
  act := fun gauged sounding =>
    ((gauged.snr.sound moveCm quietS sounding).1,
      ⟨(gauged.snr.sound moveCm quietS sounding).2,
        gated_sound positive gauged.snr sounding⟩)
  full := fun gauged => gauged.snr.full
  merge := Cortex.mergeSonar
  fresh := {}

def Same (first second : Cortex) : Prop :=
  first.st.snrCm = second.st.snrCm

/-- A message of a daemon that has measured nothing has no distance. -/
def Ours (gauged : Gauged moveCm) (message : Wire.Sonar) : Prop :=
  gauged.snr.cm = none → message.cm = none

def Clean (gauged : Gauged moveCm) (cx : Cortex) : Prop :=
  gauged.snr.cm = none → cx.st.snrCm = none

/-- The distance that the cortex holds is close to the one last published. -/
structure Synced (gauged : Gauged moveCm) (cx : Cortex) : Prop where
  loose : Loose moveCm gauged.snr.lastPubCm cx.st.snrCm
  clean : Clean gauged cx

theorem laws_line (quietS : F64) (positive : 0 < moveCm) :
    Laws (line quietS positive) Same Ours Clean Synced where
  same_merge := fun same message => congrArg message.cm.or same
  clean_same := by
    intro gauged first second same clean known
    exact same.symm.trans (clean known)
  synced_same := by
    intro gauged first second same synced
    obtain ⟨loose, clean⟩ := synced
    exact ⟨same ▸ loose, fun known => same.symm.trans (clean known)⟩
  clean_fresh := fun _ _ => rfl
  clean_merge := by
    intro gauged cx message ours clean known
    change message.cm.or cx.st.snrCm = none
    rw [ours known, clean known]
    rfl
  clean_act := by
    intro gauged cx clean sounding known
    exact absurd known (cm_sound_ne_none gauged.snr sounding)
  ours_full := fun gauged known => known
  ours_news := by
    intro gauged sounding message _ known
    exact absurd known (cm_sound_ne_none gauged.snr sounding)
  ours_act := by
    intro gauged message ours sounding known
    exact absurd known (cm_sound_ne_none gauged.snr sounding)
  clean_of_synced := fun synced => synced.clean
  synced_full := by
    intro gauged cx clean
    refine ⟨loose_told gauged.gated cx.st.snrCm, fun known => ?_⟩
    change gauged.snr.cm.or cx.st.snrCm = none
    rw [known, clean known]
    rfl
  synced_act := by
    intro gauged cx synced sounding
    obtain ⟨-, published⟩ := @sound_cases moveCm quietS gauged.snr sounding
    refine ⟨?_, fun known => absurd known (cm_sound_ne_none gauged.snr sounding)⟩
    change Loose moveCm (gauged.snr.sound moveCm quietS sounding).2.lastPubCm
      ((gauged.snr.sound moveCm quietS sounding).1.foldl Cortex.mergeSonar cx).st.snrCm
    rcases published with ⟨silent, kept, -⟩ | ⟨⟨message, told, carried⟩, sent⟩
    · rw [silent, kept]
      exact synced.loose
    · rw [told, sent]
      change Loose moveCm (some sounding.1) (message.cm.or cx.st.snrCm)
      rw [carried]
      exact loose_publish positive sounding.1

/-- A distance is published, the next is told on an ask, and the third is on the other
side of the first. -/
def around : List (Event Sounding Cortex) :=
  [.act (100, 0), .take, .take, .act (104, 1), .ask, .take, .act (96, 2)]

theorem five_positive : (0 : F64) < 5 := by
  norm_num

/-- The gate alone is no bound once an answer was taken: here it is 5, and the cortex
is 8 off. -/
theorem answer_passes_gate :
    ¬ ∀ (trace : List (Link (Gauged 5) Wire.Sonar Cortex × Event Sounding Cortex))
      (link : Link (Gauged 5) Wire.Sonar Cortex),
      Run (step (line 0 five_positive)) ⟨⟨{}, gated_none 5⟩, news [full {}], {}, false⟩
        trace link →
      ∀ cm ∈ link.state.snr.cm,
        ∃ held ∈ (carried (line 0 five_positive) link.view link.queue).st.snrCm,
          |cm - held| < 5 := by
  intro within
  have found : (follow (step (line 0 five_positive))
      ⟨⟨{}, gated_none 5⟩, news [full {}], {}, false⟩ around).map
        (fun found => (found.2.state.snr.cm,
          (carried (line 0 five_positive) found.2.view found.2.queue).st.snrCm)) =
      some (some 96, some 104) := by
    decide +kernel
  obtain ⟨⟨trace, link⟩, followed, same⟩ := Option.map_eq_some_iff.mp found
  obtain ⟨cm, snrCm⟩ := Prod.mk.inj same
  obtain ⟨held, known, near⟩ := within trace link (run_of_follow followed) 96 cm
  obtain rfl := Option.some.inj (snrCm.symm.trans known)
  norm_num at near

end Snr

namespace Air

/-- A weather daemon none of whose numbers is away from the one last published. -/
structure Gauged where
  air : Air
  temp : Gated (1 / 20) air.tempC air.pubSent
  hum : Gated (1 / 20) air.humPct air.humSent
  pressure : Gated (1 / 20) air.pressureHpa air.presSent

/-- A number that is published if it moved. -/
theorem gated_offered (number : F64) (sent : Option F64) :
    Gated (1 / 20) (some number)
      (if isNews number sent then some number else sent) := by
  cases news : isNews number sent with
  | true => exact gated_publish (by norm_num) number
  | false => exact gated_keep (close_of_not_isNews news)

theorem loose_offered {sent held : Option F64} (loose : Loose (1 / 20) sent held)
    (number : F64) :
    Loose (1 / 20) (if isNews number sent then some number else sent)
      ((offered number sent).or held) := by
  unfold offered
  cases isNews number sent with
  | true => exact loose_publish (by norm_num) number
  | false => exact loose

/-- A frame of the DHT is remembered whole, and the pressure stays. -/
theorem dht_measured (air : Air) (tempC humPct ts : F64) :
    let after := (air.dht tempC humPct ts).2
    after.tempC = some tempC ∧ after.humPct = some humPct ∧
      after.pressureHpa = air.pressureHpa := by
  unfold dht
  dsimp only
  split <;> exact ⟨rfl, rfl, rfl⟩

theorem baro_measured (air : Air) (baroTempC pressureHpa ts : F64) :
    let after := (air.baro baroTempC pressureHpa ts).2
    after.tempC = air.tempC ∧ after.humPct = air.humPct ∧
      after.pressureHpa = some pressureHpa := by
  unfold baro
  dsimp only
  split <;> exact ⟨rfl, rfl, rfl⟩

def Gauged.sample (gauged : Gauged) : AirSample → Gauged
  | .dht tempC humPct ts =>
      have measured := dht_measured gauged.air tempC humPct ts
      have after := dht_after gauged.air tempC humPct ts
      { air := (gauged.air.dht tempC humPct ts).2
        temp := by
          rw [measured.1, after.1]
          exact gated_offered tempC gauged.air.pubSent
        hum := by
          rw [measured.2.1, after.2.1]
          exact gated_offered humPct gauged.air.humSent
        pressure := by
          rw [measured.2.2, after.2.2.1]
          exact gauged.pressure }
  | .baro baroTempC pressureHpa ts =>
      have measured := baro_measured gauged.air baroTempC pressureHpa ts
      have after := baro_after gauged.air baroTempC pressureHpa ts
      { air := (gauged.air.baro baroTempC pressureHpa ts).2
        temp := by
          rw [measured.1, after.1]
          exact gauged.temp
        hum := by
          rw [measured.2.1, after.2.1]
          exact gauged.hum
        pressure := by
          rw [measured.2.2, after.2.2.1]
          exact gated_offered pressureHpa gauged.air.presSent }

/-- The daemon and the cortex. -/
def line : Protocol Gauged AirSample Wire.Weather Cortex where
  act := fun gauged sample => ((gauged.air.sample sample).1, gauged.sample sample)
  full := fun gauged => gauged.air.full
  merge := Cortex.mergeWeather
  fresh := {}

/-- The three numbers of the air are the same. -/
structure Same (first second : Cortex) : Prop where
  temp : first.st.tempC = second.st.tempC
  hum : first.st.humPct = second.st.humPct
  pressure : first.st.pressureHpa = second.st.pressureHpa

/-- Numbers that the daemon has not measured are missing. -/
structure Missing (air : Air) (temp hum pressure : Option F64) : Prop where
  temp : air.tempC = none → temp = none
  hum : air.humPct = none → hum = none
  pressure : air.pressureHpa = none → pressure = none

def Ours (gauged : Gauged) (message : Wire.Weather) : Prop :=
  Missing gauged.air message.tempC message.humPct message.pressureHpa

def Clean (gauged : Gauged) (cx : Cortex) : Prop :=
  Missing gauged.air cx.st.tempC cx.st.humPct cx.st.pressureHpa

/-- Each number that the cortex holds is close to the one last published. -/
structure Synced (gauged : Gauged) (cx : Cortex) : Prop where
  temp : Loose (1 / 20) gauged.air.pubSent cx.st.tempC
  hum : Loose (1 / 20) gauged.air.humSent cx.st.humPct
  pressure : Loose (1 / 20) gauged.air.presSent cx.st.pressureHpa
  clean : Clean gauged cx

/-- What is missing behind a measurement was missing before. -/
theorem missing_sample {gauged : Gauged} {temp hum pressure : Option F64}
    (missing : Missing gauged.air temp hum pressure) (sample : AirSample) :
    Missing (gauged.sample sample).air temp hum pressure := by
  cases sample with
  | dht tempC humPct ts =>
      obtain ⟨measuredTemp, measuredHum, kept⟩ :=
        dht_measured gauged.air tempC humPct ts
      change Missing (gauged.air.dht tempC humPct ts).2 temp hum pressure
      refine ⟨fun known => ?_, fun known => ?_, fun known => ?_⟩
      · cases measuredTemp.symm.trans known
      · cases measuredHum.symm.trans known
      · exact missing.pressure (kept.symm.trans known)
  | baro baroTempC pressureHpa ts =>
      obtain ⟨keptTemp, keptHum, measured⟩ :=
        baro_measured gauged.air baroTempC pressureHpa ts
      change Missing (gauged.air.baro baroTempC pressureHpa ts).2 temp hum pressure
      refine ⟨fun known => ?_, fun known => ?_, fun known => ?_⟩
      · exact missing.temp (keptTemp.symm.trans known)
      · exact missing.hum (keptHum.symm.trans known)
      · cases measured.symm.trans known

/-- What a measurement publishes the daemon has. -/
theorem ours_sample (gauged : Gauged) (sample : AirSample) :
    ∀ message ∈ (gauged.air.sample sample).1,
      Ours (gauged.sample sample) message := by
  intro message listed
  cases sample with
  | dht tempC humPct ts =>
      obtain ⟨measuredTemp, measuredHum, -⟩ :=
        dht_measured gauged.air tempC humPct ts
      refine ⟨fun known => ?_, fun known => ?_, fun _ => ?_⟩
      · cases measuredTemp.symm.trans known
      · cases measuredHum.symm.trans known
      · exact (dht_pressure gauged.air tempC humPct ts).2 message listed
  | baro baroTempC pressureHpa ts =>
      obtain ⟨-, -, measured⟩ := baro_measured gauged.air baroTempC pressureHpa ts
      refine ⟨fun _ => ?_, fun _ => ?_, fun known => ?_⟩
      · exact (baro_temp gauged.air baroTempC pressureHpa ts).2 message listed
      · change message ∈ (gauged.air.baro baroTempC pressureHpa ts).1 at listed
        rcases baro_news gauged.air baroTempC pressureHpa ts with ⟨silent, -⟩ | news
        · rw [silent] at listed
          cases listed
        · rw [news] at listed
          rw [List.mem_singleton.mp listed]
      · cases measured.symm.trans known

theorem clean_merge {gauged : Gauged} {cx : Cortex} {message : Wire.Weather}
    (ours : Ours gauged message) (clean : Clean gauged cx) :
    Clean gauged (cx.mergeWeather message) := by
  refine ⟨fun known => ?_, fun known => ?_, fun known => ?_⟩
  · rw [mergeWeather_tempC, ours.temp known, clean.temp known]
    rfl
  · rw [mergeWeather_humPct, ours.hum known, clean.hum known]
    rfl
  · rw [mergeWeather_pressureHpa, ours.pressure known, clean.pressure known]
    rfl

theorem synced_full {gauged : Gauged} {cx : Cortex} (clean : Clean gauged cx) :
    Synced gauged (cx.mergeWeather gauged.air.full) where
  temp := by
    rw [mergeWeather_tempC]
    exact loose_told gauged.temp cx.st.tempC
  hum := by
    rw [mergeWeather_humPct]
    exact loose_told gauged.hum cx.st.humPct
  pressure := by
    rw [mergeWeather_pressureHpa]
    exact loose_told gauged.pressure cx.st.pressureHpa
  clean := clean_merge ⟨id, id, id⟩ clean

/-- Messages of a measurement leave missing what the daemon has not measured. -/
theorem clean_hear {gauged : Gauged} {cx : Cortex} {messages : List Wire.Weather}
    (ours : ∀ message ∈ messages, Ours gauged message) (clean : Clean gauged cx) :
    Clean gauged (hearWeather cx messages) := by
  induction messages generalizing cx with
  | nil => exact clean
  | cons message rest induction =>
      exact induction (fun other listed => ours other (List.mem_cons_of_mem _ listed))
        (clean_merge (ours message List.mem_cons_self) clean)

theorem synced_sample {gauged : Gauged} {cx : Cortex} (synced : Synced gauged cx)
    (sample : AirSample) :
    Synced (gauged.sample sample) (hearWeather cx (gauged.air.sample sample).1) := by
  have clean := clean_hear (ours_sample gauged sample)
    (missing_sample synced.clean sample)
  cases sample with
  | dht tempC humPct ts =>
      obtain ⟨pubSent, humSent, presSent, -⟩ := dht_after gauged.air tempC humPct ts
      obtain ⟨temp, hum, pressure⟩ := hear_dht cx gauged.air tempC humPct ts
      refine ⟨?_, ?_, ?_, clean⟩
      · change Loose (1 / 20) (gauged.air.dht tempC humPct ts).2.pubSent
          (hearWeather cx (gauged.air.dht tempC humPct ts).1).st.tempC
        rw [pubSent, temp]
        exact loose_offered synced.temp tempC
      · change Loose (1 / 20) (gauged.air.dht tempC humPct ts).2.humSent
          (hearWeather cx (gauged.air.dht tempC humPct ts).1).st.humPct
        rw [humSent, hum]
        exact loose_offered synced.hum humPct
      · change Loose (1 / 20) (gauged.air.dht tempC humPct ts).2.presSent
          (hearWeather cx (gauged.air.dht tempC humPct ts).1).st.pressureHpa
        rw [presSent, pressure]
        exact synced.pressure
  | baro baroTempC pressureHpa ts =>
      obtain ⟨pubSent, humSent, presSent, -⟩ :=
        baro_after gauged.air baroTempC pressureHpa ts
      obtain ⟨temp, hum, pressure⟩ := hear_baro cx gauged.air baroTempC pressureHpa ts
      refine ⟨?_, ?_, ?_, clean⟩
      · change Loose (1 / 20) (gauged.air.baro baroTempC pressureHpa ts).2.pubSent
          (hearWeather cx (gauged.air.baro baroTempC pressureHpa ts).1).st.tempC
        rw [pubSent, temp]
        exact synced.temp
      · change Loose (1 / 20) (gauged.air.baro baroTempC pressureHpa ts).2.humSent
          (hearWeather cx (gauged.air.baro baroTempC pressureHpa ts).1).st.humPct
        rw [humSent, hum]
        exact synced.hum
      · change Loose (1 / 20) (gauged.air.baro baroTempC pressureHpa ts).2.presSent
          (hearWeather cx (gauged.air.baro baroTempC pressureHpa ts).1).st.pressureHpa
        rw [presSent, pressure]
        exact loose_offered synced.pressure pressureHpa

theorem laws_line : Laws line Same Ours Clean Synced where
  same_merge := by
    intro first second same message
    refine ⟨?_, ?_, ?_⟩
    · change (first.mergeWeather message).st.tempC = (second.mergeWeather message).st.tempC
      rw [mergeWeather_tempC, mergeWeather_tempC, same.temp]
    · change (first.mergeWeather message).st.humPct = (second.mergeWeather message).st.humPct
      rw [mergeWeather_humPct, mergeWeather_humPct, same.hum]
    · change (first.mergeWeather message).st.pressureHpa =
        (second.mergeWeather message).st.pressureHpa
      rw [mergeWeather_pressureHpa, mergeWeather_pressureHpa, same.pressure]
  clean_same := by
    intro gauged first second same clean
    exact ⟨fun known => same.temp ▸ clean.temp known,
      fun known => same.hum ▸ clean.hum known,
      fun known => same.pressure ▸ clean.pressure known⟩
  synced_same := by
    intro gauged first second same synced
    refine ⟨same.temp ▸ synced.temp, same.hum ▸ synced.hum,
      same.pressure ▸ synced.pressure, ?_⟩
    exact ⟨fun known => same.temp ▸ synced.clean.temp known,
      fun known => same.hum ▸ synced.clean.hum known,
      fun known => same.pressure ▸ synced.clean.pressure known⟩
  clean_fresh := fun _ => ⟨fun _ => rfl, fun _ => rfl, fun _ => rfl⟩
  clean_merge := clean_merge
  clean_act := missing_sample
  ours_full := fun _ => ⟨id, id, id⟩
  ours_news := ours_sample
  ours_act := missing_sample
  clean_of_synced := fun synced => synced.clean
  synced_full := synced_full
  synced_act := synced_sample

/-- The same for the weather daemon and each of its numbers, whose gate is half the
step of the sensor. -/
theorem air_recovers
    {trace : List (Link Gauged Wire.Weather Cortex × Event AirSample Cortex)}
    {link : Link Gauged Wire.Weather Cortex}
    (ran : Run (step line)
      ⟨⟨{}, gated_none _, gated_none _, gated_none _⟩, news [full {}], {}, false⟩
      trace link)
    (minds : Along (Minds Same) trace) (told : link.told = true) :
    let heard := (carried line link.view link.queue).st
    (∀ temp ∈ link.state.air.tempC, ∃ held ∈ heard.tempC, |temp - held| < 1 / 10) ∧
      (∀ hum ∈ link.state.air.humPct, ∃ held ∈ heard.humPct, |hum - held| < 1 / 10) ∧
      ∀ pressure ∈ link.state.air.pressureHpa, ∃ held ∈ heard.pressureHpa,
        |pressure - held| < 1 / 10 := by
  intro heard
  have own : ∀ message ∈ [full {}],
      Ours ⟨{}, gated_none _, gated_none _, gated_none _⟩ message := by
    intro message listed
    rw [List.mem_singleton.mp listed]
    exact ⟨id, id, id⟩
  have synced := synced_of_told laws_line own ran minds told
  have twice : (1 / 20 : F64) + 1 / 20 = 1 / 10 := by norm_num
  have temp := synced.temp.near link.state.temp
  have hum := synced.hum.near link.state.hum
  have pressure := synced.pressure.near link.state.pressure
  rw [twice] at temp hum pressure
  exact ⟨temp, hum, pressure⟩

/-- A frame that a restart loses, and an answer behind it. -/
def lost : List (Event AirSample Cortex) :=
  [.act (.dht 21 40 0), .restart 2, .ask, .take]

theorem air_recovers_lost :
    ∃ trace link, Run (step line)
        ⟨⟨{}, gated_none _, gated_none _, gated_none _⟩, news [full {}], {}, false⟩
        trace link ∧
      trace.map Prod.snd = lost ∧ link.state.air.tempC = some 21 ∧
      ∃ held ∈ (carried line link.view link.queue).st.tempC,
        |21 - held| < 1 / 10 := by
  have found : (follow (step line)
      ⟨⟨{}, gated_none _, gated_none _, gated_none _⟩, news [full {}], {}, false⟩
      lost).map (fun found => (found.2.told, found.2.state.air.tempC)) =
      some (true, some 21) := by
    decide +kernel
  obtain ⟨⟨trace, link⟩, followed, same⟩ := Option.map_eq_some_iff.mp found
  obtain ⟨told, temp⟩ := Prod.mk.inj same
  have run := run_of_follow followed
  have actions := actions_of_follow followed
  have minds : Along (Minds Same) trace := along_of_merging (by
    rw [actions]
    simp [lost])
  exact ⟨trace, link, run, actions, temp,
    (air_recovers run minds told).1 21 temp⟩

end Air

end Sense
