import Loa.CortexState
import Loa.PublishGate
import Loa.SenseDaemons

/-!
# The gates of the weather and the sonar daemon

Each daemon publishes a number when it moved from the one last published, so a
cortex that merges what is published stays within the threshold of what is
measured.  The three numbers of the air ride one message, each behind its own
threshold.  The distance is also published when the daemon has been quiet for
long.  The counts go round at 2 ^ 32.
-/

namespace Sense

open PublishGate Wire

/-- One measurement of the weather daemon. -/
inductive AirSample
  | dht (tempC humPct ts : F64)
  | baro (baroTempC pressureHpa ts : F64)

namespace AirSample

def temp : AirSample → Option F64
  | .dht tempC _ _ => some tempC
  | .baro .. => none

def hum : AirSample → Option F64
  | .dht _ humPct _ => some humPct
  | .baro .. => none

def pressure : AirSample → Option F64
  | .dht .. => none
  | .baro _ pressureHpa _ => some pressureHpa

end AirSample

/-- The last number that was measured. -/
def lastMeasured {Sample : Type} (number : Sample → Option F64)
    (samples : List Sample) : Option F64 :=
  (samples.filterMap number).getLast?

/-- The frames of the DHT, which are what the weather daemon counts. -/
def frames (samples : List AirSample) : ℕ :=
  (samples.filterMap AirSample.temp).length

def Air.sample (air : Air) : AirSample → List Wire.Weather × Air
  | .dht tempC humPct ts => air.dht tempC humPct ts
  | .baro baroTempC pressureHpa ts => air.baro baroTempC pressureHpa ts

/-- A cortex merges these messages in order. -/
def hearWeather (cx : Cortex) (messages : List Wire.Weather) : Cortex :=
  messages.foldl Cortex.mergeWeather cx

def hearSonar (cx : Cortex) (messages : List Wire.Sonar) : Cortex :=
  messages.foldl Cortex.mergeSonar cx

/-- A measurement of the number is its last; any other leaves it. -/
theorem lastMeasured_concat {Sample : Type} (number : Sample → Option F64)
    (before : List Sample) (sample : Sample) :
    lastMeasured number (before ++ [sample]) =
      (number sample).or (lastMeasured number before) := by
  unfold lastMeasured
  rw [List.filterMap_append]
  cases measured : number sample with
  | none => simp [measured]
  | some value => simp [measured]

theorem frames_concat (before : List AirSample) (sample : AirSample) :
    frames (before ++ [sample]) =
      frames before + if sample.temp.isSome then 1 else 0 := by
  unfold frames
  rw [List.filterMap_append, List.length_append]
  cases sample <;> rfl

/-- A number that moved is published. -/
def offered (number : F64) (sent : Option F64) : Option F64 :=
  if isNews number sent then some number else none

theorem close_of_not_isNews {number : F64} {sent : Option F64}
    (quiet : isNews number sent = false) :
    ∃ last ∈ sent, |number - last| < 1 / 20 := by
  cases sent with
  | none => cases quiet
  | some last =>
      refine ⟨last, rfl, ?_⟩
      exact not_le.mp (of_decide_eq_false quiet)

/-- A number that is published if it moved is followed. -/
theorem followed_offered {measured sent held : Option F64}
    (followed : Followed (1 / 20) measured sent held) (number : F64) :
    Followed (1 / 20) (some number)
      (if isNews number sent then some number else sent)
      ((offered number sent).or held) := by
  unfold offered
  cases news : isNews number sent with
  | true => exact followed_publish (by norm_num) number
  | false => exact followed.keep (close_of_not_isNews news)

theorem mergeWeather_tempC (cx : Cortex) (w : Wire.Weather) :
    (cx.mergeWeather w).st.tempC = w.tempC.or cx.st.tempC := by
  unfold Cortex.mergeWeather
  cases w.pressureHpa <;> rfl

theorem mergeWeather_humPct (cx : Cortex) (w : Wire.Weather) :
    (cx.mergeWeather w).st.humPct = w.humPct.or cx.st.humPct := by
  unfold Cortex.mergeWeather
  cases w.pressureHpa <;> rfl

theorem mergeWeather_pressureHpa (cx : Cortex) (w : Wire.Weather) :
    (cx.mergeWeather w).st.pressureHpa =
      w.pressureHpa.or cx.st.pressureHpa := by
  unfold Cortex.mergeWeather
  cases w.pressureHpa <;> rfl

/-- The memory after a frame of the DHT. -/
theorem dht_after (air : Air) (tempC humPct ts : F64) :
    let after := (air.dht tempC humPct ts).2
    after.pubSent =
        (if isNews tempC air.pubSent then some tempC else air.pubSent) ∧
      after.humSent =
        (if isNews humPct air.humSent then some humPct else air.humSent) ∧
      after.presSent = air.presSent ∧ after.count = air.count + 1 := by
  unfold Air.dht
  dsimp only
  cases isNews tempC air.pubSent <;> cases isNews humPct air.humSent <;>
    exact ⟨rfl, rfl, rfl, rfl⟩

/-- The memory after a reading of the barometer. -/
theorem baro_after (air : Air) (baroTempC pressureHpa ts : F64) :
    let after := (air.baro baroTempC pressureHpa ts).2
    after.pubSent = air.pubSent ∧ after.humSent = air.humSent ∧
      after.presSent =
        (if isNews pressureHpa air.presSent then some pressureHpa
        else air.presSent) ∧
      after.count = air.count := by
  unfold Air.baro
  dsimp only
  cases isNews pressureHpa air.presSent <;> exact ⟨rfl, rfl, rfl, rfl⟩

/-- A frame of the DHT publishes the numbers that moved, if any did. -/
theorem dht_news (air : Air) (tempC humPct ts : F64) :
    (air.dht tempC humPct ts).1 = [] ∧
        offered tempC air.pubSent = none ∧ offered humPct air.humSent = none ∨
      (air.dht tempC humPct ts).1 =
        [{ tempC := offered tempC air.pubSent
           humPct := offered humPct air.humSent
           ts := some ts
           count := some (air.count + 1) }] := by
  unfold Air.dht offered
  dsimp only
  cases isNews tempC air.pubSent <;> cases isNews humPct air.humSent
  · exact .inl ⟨rfl, rfl, rfl⟩
  all_goals exact .inr rfl

/-- A reading of the barometer publishes the pressure, if it moved. -/
theorem baro_news (air : Air) (baroTempC pressureHpa ts : F64) :
    (air.baro baroTempC pressureHpa ts).1 = [] ∧
        offered pressureHpa air.presSent = none ∨
      (air.baro baroTempC pressureHpa ts).1 =
        [{ pressureHpa := offered pressureHpa air.presSent
           ts := some ts
           count := if 0 < air.count then some air.count else none }] := by
  unfold Air.baro offered
  dsimp only
  cases isNews pressureHpa air.presSent
  · exact .inl ⟨rfl, rfl⟩
  · exact .inr rfl

theorem hearWeather_singleton (cx : Cortex) (message : Wire.Weather) :
    hearWeather cx [message] = cx.mergeWeather message :=
  rfl

theorem hear_dht (cx : Cortex) (air : Air) (tempC humPct ts : F64) :
    let heard := (hearWeather cx (air.dht tempC humPct ts).1).st
    heard.tempC = (offered tempC air.pubSent).or cx.st.tempC ∧
      heard.humPct = (offered humPct air.humSent).or cx.st.humPct ∧
      heard.pressureHpa = cx.st.pressureHpa := by
  intro heard
  unfold heard
  rcases dht_news air tempC humPct ts with ⟨silent, temp, hum⟩ | news
  · rw [silent, temp, hum]
    exact ⟨rfl, rfl, rfl⟩
  · rw [news, hearWeather_singleton]
    exact ⟨mergeWeather_tempC .., mergeWeather_humPct ..,
      mergeWeather_pressureHpa ..⟩

theorem hear_baro (cx : Cortex) (air : Air) (baroTempC pressureHpa ts : F64) :
    let heard := (hearWeather cx (air.baro baroTempC pressureHpa ts).1).st
    heard.tempC = cx.st.tempC ∧ heard.humPct = cx.st.humPct ∧
      heard.pressureHpa =
        (offered pressureHpa air.presSent).or cx.st.pressureHpa := by
  intro heard
  unfold heard
  rcases baro_news air baroTempC pressureHpa ts with ⟨silent, pressure⟩ | news
  · rw [silent, pressure]
    exact ⟨rfl, rfl, rfl⟩
  · rw [news, hearWeather_singleton]
    exact ⟨mergeWeather_tempC .., mergeWeather_humPct ..,
      mergeWeather_pressureHpa ..⟩

/-- The cortex follows the three numbers of the air, and the daemon counts the
frames. -/
structure AirFollowed (cx : Cortex) (samples : List AirSample)
    (outlet : Outlet Air Wire.Weather) : Prop where
  temp : Followed (1 / 20) (lastMeasured AirSample.temp samples)
    outlet.state.pubSent (hearWeather cx outlet.published).st.tempC
  hum : Followed (1 / 20) (lastMeasured AirSample.hum samples)
    outlet.state.humSent (hearWeather cx outlet.published).st.humPct
  pressure : Followed (1 / 20) (lastMeasured AirSample.pressure samples)
    outlet.state.presSent (hearWeather cx outlet.published).st.pressureHpa
  count : outlet.state.count = UInt32.ofNat (frames samples)
  marked : Marked (outlet.published.filterMap Wire.Weather.count)
    (frames samples)

theorem hearWeather_append (cx : Cortex) (first second : List Wire.Weather) :
    hearWeather cx (first ++ second) =
      hearWeather (hearWeather cx first) second :=
  List.foldl_append ..

/-- What a measurement publishes tells the count of the frames, or nothing
where that is zero. -/
theorem count_sample {air : Air} {before : List AirSample}
    (counted : air.count = UInt32.ofNat (frames before)) (sample : AirSample) :
    ∀ message ∈ (air.sample sample).1,
      message.count.getD 0 = UInt32.ofNat (frames (before ++ [sample])) := by
  intro message published
  rw [frames_concat]
  cases sample with
  | dht tempC humPct ts =>
      rcases dht_news air tempC humPct ts with ⟨silent, -⟩ | news
      · exact absurd (silent ▸ published) List.not_mem_nil
      · change message ∈ (air.dht tempC humPct ts).1 at published
        rw [news] at published
        rw [List.mem_singleton.mp published]
        change air.count + 1 = UInt32.ofNat (frames before + 1)
        rw [UInt32.ofNat_add, counted]
        rfl
  | baro baroTempC pressureHpa ts =>
      rcases baro_news air baroTempC pressureHpa ts with ⟨silent, -⟩ | news
      · exact absurd (silent ▸ published) List.not_mem_nil
      · change message ∈ (air.baro baroTempC pressureHpa ts).1 at published
        rw [news] at published
        rw [List.mem_singleton.mp published]
        change (if 0 < air.count then some air.count else none).getD 0 =
          UInt32.ofNat (frames before)
        rw [← counted]
        split
        · rfl
        · rename_i zero
          exact (UInt32.le_zero_iff.mp (UInt32.not_lt.mp zero)).symm

theorem airFollowed_start (cx : Cortex) : AirFollowed cx [] ⟨{}, []⟩ where
  temp := followed_nothing ..
  hum := followed_nothing ..
  pressure := followed_nothing ..
  count := rfl
  marked := marked_nil 0

section Air

variable {cx : Cortex} {before : List AirSample} {outlet : Outlet Air Wire.Weather}

/-- What a measurement publishes keeps the published counts in order. -/
theorem marked_feed (followed : AirFollowed cx before outlet)
    (sample : AirSample) :
    Marked ((outlet.feed Air.sample sample).published.filterMap
      Wire.Weather.count) (frames (before ++ [sample])) := by
  unfold Outlet.feed
  rw [List.filterMap_append]
  refine (followed.marked.grow ?_).publish ?_
  · rw [frames_concat]
    omega
  · intro count told
    obtain ⟨message, published, carried⟩ := List.mem_filterMap.mp told
    have counted := count_sample followed.count sample message published
    rwa [carried] at counted

theorem airFollowed_dht (followed : AirFollowed cx before outlet)
    (tempC humPct ts : F64) :
    AirFollowed cx (before ++ [.dht tempC humPct ts])
      (outlet.feed Air.sample (.dht tempC humPct ts)) := by
  obtain ⟨pubSent, humSent, presSent, count⟩ :=
    dht_after outlet.state tempC humPct ts
  obtain ⟨temp, hum, pressure⟩ :=
    hear_dht (hearWeather cx outlet.published) outlet.state tempC humPct ts
  have heard :
      hearWeather cx (outlet.feed Air.sample (.dht tempC humPct ts)).published =
        hearWeather (hearWeather cx outlet.published)
          (outlet.state.dht tempC humPct ts).1 :=
    hearWeather_append ..
  have state : (outlet.feed Air.sample (.dht tempC humPct ts)).state =
    (outlet.state.dht tempC humPct ts).2 := rfl
  refine ⟨?_, ?_, ?_, ?_, marked_feed followed _⟩
  · rw [lastMeasured_concat, heard, state, temp, pubSent]
    exact followed_offered followed.temp tempC
  · rw [lastMeasured_concat, heard, state, hum, humSent]
    exact followed_offered followed.hum humPct
  · rw [lastMeasured_concat, heard, state, pressure, presSent]
    exact followed.pressure
  · rw [frames_concat, UInt32.ofNat_add, ← followed.count]
    exact count

theorem airFollowed_baro (followed : AirFollowed cx before outlet)
    (baroTempC pressureHpa ts : F64) :
    AirFollowed cx (before ++ [.baro baroTempC pressureHpa ts])
      (outlet.feed Air.sample (.baro baroTempC pressureHpa ts)) := by
  obtain ⟨pubSent, humSent, presSent, count⟩ :=
    baro_after outlet.state baroTempC pressureHpa ts
  obtain ⟨temp, hum, pressure⟩ :=
    hear_baro (hearWeather cx outlet.published) outlet.state baroTempC
      pressureHpa ts
  have heard :
      hearWeather cx
          (outlet.feed Air.sample (.baro baroTempC pressureHpa ts)).published =
        hearWeather (hearWeather cx outlet.published)
          (outlet.state.baro baroTempC pressureHpa ts).1 :=
    hearWeather_append ..
  have state :
      (outlet.feed Air.sample (.baro baroTempC pressureHpa ts)).state =
        (outlet.state.baro baroTempC pressureHpa ts).2 := rfl
  refine ⟨?_, ?_, ?_, ?_, marked_feed followed _⟩
  · rw [lastMeasured_concat, heard, state, temp, pubSent]
    exact followed.temp
  · rw [lastMeasured_concat, heard, state, hum, humSent]
    exact followed.hum
  · rw [lastMeasured_concat, heard, state, pressure, presSent]
    exact followed_offered followed.pressure pressureHpa
  · rw [frames_concat]
    exact count.trans followed.count

end Air

theorem airFollowed_feed {cx : Cortex} (before : List AirSample)
    (sample : AirSample) (outlet : Outlet Air Wire.Weather)
    (followed : AirFollowed cx before outlet) :
    AirFollowed cx (before ++ [sample]) (outlet.feed Air.sample sample) := by
  cases sample with
  | dht tempC humPct ts => exact airFollowed_dht followed tempC humPct ts
  | baro baroTempC pressureHpa ts =>
      exact airFollowed_baro followed baroTempC pressureHpa ts

theorem airFollowed_run (cx : Cortex) (samples : List AirSample) :
    AirFollowed cx samples (run Air.sample {} samples) :=
  run_induction (airFollowed_start cx) airFollowed_feed samples

/-- One measurement of the sonar: the distance and the time. -/
abbrev Sounding := F64 × F64

def Snr.sound (moveCm quietS : F64) (snr : Snr) (sounding : Sounding) :
    List Wire.Sonar × Snr :=
  let (news, snr) := snr.measured sounding.1 sounding.2 moveCm quietS
  (news.toList, snr)

/-- The distance is closer to the last published one than the gate. -/
def Still (moveCm : F64) (snr : Snr) (cm : F64) : Prop :=
  ∃ last ∈ snr.lastPubCm, 0 < moveCm ∧ |cm - last| < moveCm

/-- The last publish is less than the quiet time ago, or there is no such
time. -/
def Recent (quietS : F64) (snr : Snr) (ts : F64) : Prop :=
  ∃ last ∈ snr.lastPubTs, 0 < quietS → ts - last < quietS

/-- A measurement is kept back where nothing moved and nothing is due; otherwise
the full payload goes out. -/
theorem measured_cases (snr : Snr) (cm ts moveCm quietS : F64) :
    let held : Snr :=
      { snr with count := snr.count + 1, cm := some cm, ts := some ts }
    (snr.measured cm ts moveCm quietS = (none, held) ∧
        Still moveCm snr cm ∧ Recent quietS snr ts) ∨
      (snr.measured cm ts moveCm quietS =
          (some held.full,
            { held with lastPubCm := some cm, lastPubTs := some ts }) ∧
        ¬ (Still moveCm snr cm ∧ Recent quietS snr ts)) := by
  obtain ⟨count, lastCm, lastTs, pubCm, pubTs⟩ := snr
  intro held
  unfold Snr.measured Still Recent
  cases pubCm with
  | none => exact .inr ⟨rfl, fun kept => nomatch kept.1⟩
  | some pubCm =>
      cases pubTs with
      | none =>
          refine .inr ⟨?_, fun kept => nomatch kept.2⟩
          simp [held]
      | some pubTs =>
          dsimp only
          split
          · rename_i news
            refine .inr ⟨rfl, ?_⟩
            rintro ⟨⟨_, ⟨⟩, gated, still⟩, ⟨_, ⟨⟩, recent⟩⟩
            simp only [Bool.or_eq_true, Bool.and_eq_true, decide_eq_true_eq]
              at news
            rcases news with (ungated | moved) | ⟨timed, due⟩
            · exact absurd gated (not_lt.mpr ungated)
            · exact absurd still (not_lt.mpr moved)
            · exact absurd (recent timed) (not_lt.mpr due)
          · rename_i kept
            refine .inl ⟨rfl, ⟨pubCm, rfl, ?_⟩, ⟨pubTs, rfl, ?_⟩⟩
            · simp only [Bool.or_eq_true, decide_eq_true_eq, not_or] at kept
              exact ⟨not_le.mp kept.1.1, not_le.mp kept.1.2⟩
            · intro timed
              simp only [Bool.or_eq_true, Bool.and_eq_true,
                decide_eq_true_eq, not_or, not_and] at kept
              exact not_le.mp (kept.2 timed)

/-- The cortex follows the distance, and the daemon knows when it last
published and how often it measured. -/
structure SonarFollowed (moveCm : F64) (cx : Cortex)
    (soundings : List Sounding) (outlet : Outlet Snr Wire.Sonar) : Prop where
  near : Followed moveCm (lastMeasured (fun sounding => some sounding.1)
    soundings) outlet.state.lastPubCm (hearSonar cx outlet.published).st.snrCm
  pubTs : outlet.state.lastPubTs =
    outlet.published.getLast?.bind Wire.Sonar.ts
  count : outlet.state.count = UInt32.ofNat soundings.length
  marked : Marked (outlet.published.filterMap Wire.Sonar.count)
    soundings.length

theorem sonarFollowed_start (moveCm : F64) (cx : Cortex) :
    SonarFollowed moveCm cx [] ⟨{}, []⟩ where
  near := followed_nothing ..
  pubTs := rfl
  count := rfl
  marked := marked_nil 0

section Sonar

variable {moveCm quietS : F64} {cx : Cortex}

theorem sonarFollowed_feed (gated : 0 < moveCm) (before : List Sounding)
    (sounding : Sounding) (outlet : Outlet Snr Wire.Sonar)
    (followed : SonarFollowed moveCm cx before outlet) :
    SonarFollowed moveCm cx (before ++ [sounding])
      (outlet.feed (Snr.sound moveCm quietS) sounding) := by
  obtain ⟨cm, ts⟩ := sounding
  have length : (before ++ [(cm, ts)]).length = before.length + 1 :=
    List.length_append
  have count : outlet.state.count + 1 =
      UInt32.ofNat (before ++ [(cm, ts)]).length := by
    rw [length, UInt32.ofNat_add, followed.count]
    rfl
  have grown := followed.marked.grow (Nat.le.intro length.symm)
  unfold Outlet.feed Snr.sound
  rcases measured_cases outlet.state cm ts moveCm quietS with
    ⟨kept, still, -⟩ | ⟨sent, -⟩
  · rw [kept]
    dsimp only [Option.toList_none]
    rw [List.append_nil]
    refine ⟨?_, followed.pubTs, count, grown⟩
    rw [lastMeasured_concat]
    obtain ⟨last, pub, -, close⟩ := still
    exact followed.near.keep ⟨last, pub, close⟩
  · rw [sent]
    dsimp only [Option.toList_some]
    refine ⟨?_, ?_, count, ?_⟩
    · rw [lastMeasured_concat]
      unfold hearSonar
      rw [List.foldl_concat]
      exact followed_publish gated cm
    · rw [List.getLast?_concat]
      rfl
    · rw [List.filterMap_append]
      refine grown.publish ?_
      intro told single
      rw [List.mem_singleton.mp single]
      exact count

theorem sonarFollowed_run (moveCm quietS : F64) (gated : 0 < moveCm)
    (cx : Cortex) (soundings : List Sounding) :
    SonarFollowed moveCm cx soundings
      (run (Snr.sound moveCm quietS) {} soundings) :=
  run_induction (sonarFollowed_start moveCm cx) (sonarFollowed_feed gated)
    soundings

/-- A measurement that is kept back comes less than the quiet time after the
last publish. -/
theorem recent_of_silent {outlet : Outlet Snr Wire.Sonar}
    {before : List Sounding} (followed : SonarFollowed moveCm cx before outlet)
    (timed : 0 < quietS) {sounding : Sounding}
    (silent : (outlet.state.sound moveCm quietS sounding).1 = []) :
    ∃ message ∈ outlet.published.getLast?, ∃ last ∈ message.ts,
      sounding.2 - last < quietS := by
  unfold Snr.sound at silent
  rcases measured_cases outlet.state sounding.1 sounding.2 moveCm quietS with
    ⟨-, -, last, pub, recent⟩ | ⟨sent, -⟩
  · rw [followed.pubTs] at pub
    obtain ⟨message, latest, stamped⟩ := Option.bind_eq_some_iff.mp pub
    exact ⟨message, latest, last, stamped, recent timed⟩
  · rw [sent] at silent
    cases silent

/-- What a measurement publishes tells the number of measurements. -/
theorem count_sound {outlet : Outlet Snr Wire.Sonar} {before : List Sounding}
    (followed : SonarFollowed moveCm cx before outlet) (sounding : Sounding) :
    ∀ message ∈ (outlet.state.sound moveCm quietS sounding).1,
      message.count =
        some (UInt32.ofNat (before ++ [sounding]).length) := by
  intro message published
  unfold Snr.sound at published
  rcases measured_cases outlet.state sounding.1 sounding.2 moveCm quietS with
    ⟨kept, -⟩ | ⟨sent, -⟩
  · rw [kept] at published
    cases published
  · rw [sent] at published
    rw [List.mem_singleton.mp published, List.length_append,
      UInt32.ofNat_add, ← followed.count]
    rfl

end Sonar

/-- After every run of measurements a cortex that merged every published
message holds a temperature, a humidity and a pressure less than 0.05 from the
last measured one, and with a gate above zero a distance less than the gate from
the last measured one; a distance that is not published comes less than the
quiet time, if there is one, after the last publish; and the published counts
are the measurements counted so far in 32 bits, which do not go back while these
are fewer than 2 ^ 32. -/
theorem gates_bound_receiver (cx : Cortex) :
    (∀ samples : List AirSample,
      let outlet := run Air.sample {} samples
      let receiver := (hearWeather cx outlet.published).st
      Near (1 / 20) (lastMeasured AirSample.temp samples) receiver.tempC ∧
      Near (1 / 20) (lastMeasured AirSample.hum samples) receiver.humPct ∧
      Near (1 / 20) (lastMeasured AirSample.pressure samples)
        receiver.pressureHpa ∧
      (∀ sample, ∀ message ∈ (outlet.state.sample sample).1,
        message.count.getD 0 = UInt32.ofNat (frames (samples ++ [sample]))) ∧
      (frames samples < 2 ^ 32 →
        (outlet.published.filterMap Wire.Weather.count).Pairwise (· ≤ ·))) ∧
    ∀ (moveCm quietS : F64) (soundings : List Sounding), 0 < moveCm →
      let outlet := run (Snr.sound moveCm quietS) {} soundings
      let receiver := (hearSonar cx outlet.published).st
      Near moveCm (lastMeasured (fun sounding => some sounding.1) soundings)
        receiver.snrCm ∧
      (∀ sounding, 0 < quietS →
        (outlet.state.sound moveCm quietS sounding).1 = [] →
        ∃ message ∈ outlet.published.getLast?, ∃ last ∈ message.ts,
          sounding.2 - last < quietS) ∧
      (∀ sounding, ∀ message ∈ (outlet.state.sound moveCm quietS sounding).1,
        message.count =
          some (UInt32.ofNat (soundings ++ [sounding]).length)) ∧
      (soundings.length < 2 ^ 32 →
        (outlet.published.filterMap Wire.Sonar.count).Pairwise (· ≤ ·)) := by
  refine ⟨fun samples => ?_, fun moveCm quietS soundings gated => ?_⟩
  · have followed := airFollowed_run cx samples
    exact ⟨followed.temp.near, followed.hum.near, followed.pressure.near,
      count_sample followed.count, followed.marked.nondecreasing⟩
  · have followed := sonarFollowed_run moveCm quietS gated cx soundings
    exact ⟨followed.near.near, fun sounding timed => recent_of_silent followed
      timed, count_sound followed, followed.marked.nondecreasing⟩

namespace Vectors

/-- A frame of the DHT, a smaller move, and a pressure. -/
theorem gates_bound_receiver_still :
    let samples : List AirSample :=
      [.dht 21 40 1, .dht (2104 / 100) 40 2, .baro 20 1013 3]
    let soundings : List Sounding := [(100, 1), (103, 2)]
    Near (1 / 20) (some (2104 / 100))
      (hearWeather {} (run Air.sample {} samples).published).st.tempC ∧
    Near 5 (some 103)
      (hearSonar {} (run (Snr.sound 5 30) {} soundings).published).st.snrCm :=
  ⟨((gates_bound_receiver {}).1
      [.dht 21 40 1, .dht (2104 / 100) 40 2, .baro 20 1013 3]).1,
    ((gates_bound_receiver {}).2 5 30 [(100, 1), (103, 2)] (by norm_num)).1⟩

end Vectors

/-- A distance that moved is published. -/
theorem published_of_moved (moveCm quietS : F64) {snr : Snr}
    (sounding : Sounding)
    (moved : ∀ last ∈ snr.lastPubCm, moveCm ≤ |sounding.1 - last|) :
    ∃ message, (snr.sound moveCm quietS sounding).1 = [message] := by
  unfold Snr.sound
  rcases measured_cases snr sounding.1 sounding.2 moveCm quietS with
    ⟨-, ⟨last, pub, -, close⟩, -⟩ | ⟨sent, -⟩
  · exact absurd close (not_lt.mpr (moved last pub))
  · rw [sent]
    exact ⟨_, rfl⟩

/-- Soundings that all read the same at the same time. -/
def standing (n : ℕ) : List Sounding :=
  List.replicate n (0, 0)

theorem lastMeasured_standing (n : ℕ) :
    lastMeasured (fun sounding : Sounding => some sounding.1)
      (standing (n + 1)) = some 0 := by
  unfold standing
  rw [List.replicate_succ', lastMeasured_concat]
  rfl

theorem standing_ordered (n : ℕ) (cm : F64) :
    ((standing n ++ [(cm, 0)]).map Prod.snd).Pairwise (· ≤ ·) := by
  unfold standing
  rw [List.map_append, List.map_replicate, List.pairwise_append]
  refine ⟨List.pairwise_replicate.mpr (.inr le_rfl),
    List.pairwise_singleton .., ?_⟩
  intro earlier constant later last
  rw [List.eq_of_mem_replicate constant, List.mem_singleton.mp last]

/-- The measurement that brings the count to 2 ^ 32 is published under zero. -/
theorem count_goes_round :
    ¬ ∀ (moveCm quietS : F64) (soundings : List Sounding) (sounding : Sounding),
      0 < moveCm →
      ((soundings ++ [sounding]).map Prod.snd).Pairwise (· ≤ ·) →
      ∀ message ∈ ((run (Snr.sound moveCm quietS) {} soundings).state.sound
          moveCm quietS sounding).1,
        message.count.map UInt32.toNat =
          some (soundings ++ [sounding]).length := by
  intro always
  let before := standing (2 ^ 32 - 2 + 1)
  have followed := sonarFollowed_run 1 30 one_pos {} before
  have length : (before ++ [(100, 0)]).length = 2 ^ 32 := by
    unfold before standing
    rw [List.length_append, List.length_replicate]
    rfl
  obtain ⟨message, sent⟩ := published_of_moved 1 30 (100, 0)
    fun last pub => by
      obtain ⟨_, same, close⟩ :=
        followed.near.close 0 (lastMeasured_standing _)
      rw [pub] at same
      cases same
      rw [abs_lt] at close
      exact le_abs.mpr (.inl (by linarith))
  have published := sent ▸ List.mem_singleton_self message
  have told := always 1 30 before (100, 0) one_pos (standing_ordered _ 100)
    message published
  rw [count_sound followed (100, 0) message published, length] at told
  cases told

end Sense
