/-
The numbers of instrument settings.

The settings have their numbers from the map that they are made of, or from the defaults of a sequencer. So they are
finite where those of the map are, and the numbers that a sequencer takes lie in the ranges that it takes.
- `sequencer_inRange`, `sequencer_allFinite`: a sequencer that is made;
- `Qblox.sound_of_applied`: a module with one channel more, and `Zhinst.allFinite_of_output` the same of an output;
- `sound_of_generate`: the settings of a map with finite numbers;
- `InstrumentSettings.nulls_toJson`: their written form, in which a `null` is a value that is left out;
- `compileSettings_finite`: whatever numbers a config holds, those of its map and its settings are finite.
-/
import Mathlib.Tactic
import RackMap.Instrument.Settings
import RackMap.Proofs.Instrument.Qblox
import RackMap.Proofs.Instrument.Zhinst
import RackMap.Proofs.WrittenNumbers

namespace RackMap

open RackMap.Decimal (Double)

/-- the sequencer options of the port-clocks on a map are within their bounds -/
def CompiledMap.InBounds (m : CompiledMap) : Prop :=
  ∀ q ∈ m.channels, ∀ entry ∈ q.2.portClocks, ∀ o, entry.corrections.sequencer? = some o → o.InBounds

namespace Instrument

/-! ## Lists of numbers -/

def OscillatorSettings.numbers (s : OscillatorSettings) : List Double := s.power?.toList ++ s.frequency?.toList

def SequencerSettings.numbers (s : SequencerSettings) : List Double :=
  s.modulation?.toList ++ [s.gainRatio, s.phaseOffset, s.offset0, s.offset1, s.gain0, s.gain1] ++ s.threshold?.toList

def ModuleSettings.numbers (m : ModuleSettings) : List Double :=
  m.lo0?.toList ++ m.lo1?.toList ++ m.offsets ++ m.sequencers.flatMap SequencerSettings.numbers

def OutputSettings.numbers (s : OutputSettings) : List Double :=
  s.modulation?.toList ++ s.gain1?.toList ++ s.gain2?.toList ++ s.latency?.toList ++
    s.mixer?.toList.flatMap MixerCorrection.numbers

def oscillatorNumbers (oscillators : Table String OscillatorSettings) : List Double :=
  List.flatMap (fun p => p.2.numbers) oscillators

/-- all floating numbers of the settings -/
def InstrumentSettings.numbers : InstrumentSettings → List Double
  | qblox s => List.flatMap (fun p => p.2.numbers) s.modules ++ oscillatorNumbers s.oscillators
  | zhinst s =>
    List.flatMap (fun device => List.flatMap (fun p => p.2.numbers) device.2) s.devices ++ oscillatorNumbers s.oscillators

/-- all sequencers; Zurich Instruments devices have none -/
def InstrumentSettings.sequencers : InstrumentSettings → List SequencerSettings
  | qblox s => List.flatMap (fun p => p.2.sequencers) s.modules
  | zhinst _ => []

/-- the numbers of a sequencer lie in the ranges that it takes -/
structure SequencerSettings.InRange (s : SequencerSettings) : Prop where
  gainRatio : s.gainRatio.within (Double.ofRatio false 1 2) (Double.ofInt 2) = true
  phaseOffset : s.phaseOffset.within (Double.ofInt (-45)) (Double.ofInt 45) = true
  offset0 : s.offset0.within (Double.ofInt (-1)) (Double.ofInt 1) = true
  offset1 : s.offset1.within (Double.ofInt (-1)) (Double.ofInt 1) = true
  gain0 : s.gain0.within (Double.ofInt (-1)) (Double.ofInt 1) = true
  gain1 : s.gain1.within (Double.ofInt (-1)) (Double.ofInt 1) = true

variable {map : CompiledMap} {q : ChannelPath × CompiledChannel} {entry : CompiledPortClock} {path : ChannelPath}
  {channel : CompiledChannel}

/-! ## External oscillators -/

theorem allFinite_ofMap (hmap : AllFinite map.numbers) :
    AllFinite (oscillatorNumbers (OscillatorSettings.ofMap map)) := by
  refine allFinite_flatMap.2 fun p hp => ?_
  obtain ⟨c, hc, hentry⟩ := List.mem_filterMap.1 (Table.mem_sortedOfPairs hp)
  obtain ⟨q, hq, rfl⟩ := List.mem_map.1 hc
  obtain ⟨hoscillator, -⟩ := allFinite_append.1 (allFinite_append.1 (allFinite_flatMap.1 hmap q hq)).1
  unfold OscillatorSettings.ofChannel? at hentry
  split at hentry
  · rename_i ho
    cases hentry
    obtain ⟨hfrequency, hpower⟩ := allFinite_append.1 (allFinite_flatMap.1 hoscillator _ (Option.mem_toList.2 ho))
    exact allFinite_append.2 ⟨hpower, hfrequency⟩
  · cases hentry

/-! ## Qblox -/

namespace Qblox

variable {index : Nat} {ioName : String} {s : SequencerSettings} {m m' : ModuleSettings}
  {modules modules' : Table String ModuleSettings}

theorem within_getD {x? : Option Double} {x low high : Double}
    (h : ∀ x, x? = some x → x.within low high = true) (hx : x.within low high = true) :
    (x?.getD x).within low high = true := by
  cases x? with
  | none => exact hx
  | some y => exact h y rfl

/-- what a sequencer is made with: its two corrections are checked here, the initial values were before -/
theorem sequencer_eq_ok (h : sequencer index ioName entry = .ok s) :
    s.gainRatio.within half (Double.ofInt 2) = true ∧
      s.phaseOffset.within (Double.ofInt (-45)) (Double.ofInt 45) = true ∧ s.modulation? = entry.frequencies.interm? ∧
      ∃ options, options = entry.corrections.sequencer?.getD .none ∧ s.offset0 = options.offset0?.getD .zero ∧
        s.offset1 = options.offset1?.getD .zero ∧ s.gain0 = options.gain0?.getD (Double.ofInt 1) ∧
        s.gain1 = options.gain1?.getD (Double.ofInt 1) ∧ s.threshold? = options.threshold? := by
  unfold sequencer at h
  obtain ⟨gainRatio, hratio, h⟩ := bind_eq_ok_iff.1 h
  obtain ⟨phaseOffset, hphase, h⟩ := bind_eq_ok_iff.1 h
  obtain ⟨hratioIn, rfl⟩ := inRange_eq_ok_iff.1 hratio
  obtain ⟨hphaseIn, rfl⟩ := inRange_eq_ok_iff.1 hphase
  cases h
  exact ⟨hratioIn, hphaseIn, rfl, _, rfl, rfl, rfl, rfl, rfl, rfl⟩

theorem sequencer_inRange (h : sequencer index ioName entry = .ok s)
    (hbounds : ∀ o, entry.corrections.sequencer? = some o → o.InBounds) : s.InRange := by
  obtain ⟨hratio, hphase, -, options, hoptions, hoffset0, hoffset1, hgain0, hgain1, -⟩ := sequencer_eq_ok h
  have hin : options.InBounds := by
    rw [hoptions]
    cases hset : entry.corrections.sequencer? with
    | none => simp [SequencerOptions.InBounds, SequencerOptions.bounded, SequencerOptions.none]
    | some o => exact hbounds o hset
  have hvalue : ∀ field x?, (field, x?) ∈ options.bounded → ∀ x, x? = some x →
      x.within (Double.ofInt (-1)) (Double.ofInt 1) = true := fun field x? hfield => hin (field, x?) hfield
  have hzero : Double.zero.within (Double.ofInt (-1)) (Double.ofInt 1) = true := by decide +kernel
  have hone : (Double.ofInt 1).within (Double.ofInt (-1)) (Double.ofInt 1) = true := by decide +kernel
  refine ⟨hratio, hphase, ?_, ?_, ?_, ?_⟩
  · rw [hoffset0]
    exact within_getD (hvalue "init_offset_awg_path_0" _ (by simp [SequencerOptions.bounded])) hzero
  · rw [hoffset1]
    exact within_getD (hvalue "init_offset_awg_path_1" _ (by simp [SequencerOptions.bounded])) hzero
  · rw [hgain0]
    exact within_getD (hvalue "init_gain_awg_path_0" _ (by simp [SequencerOptions.bounded])) hone
  · rw [hgain1]
    exact within_getD (hvalue "init_gain_awg_path_1" _ (by simp [SequencerOptions.bounded])) hone

/-- the ranges of a sequencer are finite -/
theorem SequencerSettings.InRange.allFinite (h : s.InRange) :
    AllFinite [s.gainRatio, s.phaseOffset, s.offset0, s.offset1, s.gain0, s.gain1] := by
  have hratio := isFinite_of_within (by decide +kernel) (by decide +kernel) h.gainRatio
  have hphase := isFinite_of_within (by decide +kernel) (by decide +kernel) h.phaseOffset
  simp [AllFinite, hratio, hphase, isFinite_of_unit h.offset0, isFinite_of_unit h.offset1, isFinite_of_unit h.gain0,
    isFinite_of_unit h.gain1]

theorem sequencer_allFinite (h : sequencer index ioName entry = .ok s) (hentry : AllFinite entry.numbers)
    (hrange : s.InRange) : AllFinite s.numbers := by
  obtain ⟨-, -, hmodulation, options, hoptions, -, -, -, -, hthreshold⟩ := sequencer_eq_ok h
  obtain ⟨hsplit, hcorrections⟩ := allFinite_append.1 hentry
  refine allFinite_append.2 ⟨allFinite_append.2 ⟨?_, SequencerSettings.InRange.allFinite hrange⟩, ?_⟩
  · rw [hmodulation]
    exact (allFinite_append.1 hsplit).1
  · rw [hthreshold, hoptions]
    cases hset : entry.corrections.sequencer? with
    | none => exact allFinite_nil
    | some o =>
      have hnumbers : AllFinite o.numbers := CorrectionSet.allFinite_of_get hcorrections .sequencer hset
      exact (allFinite_append.1 hnumbers).2

/-- a module with finite numbers, and sequencers with numbers in their ranges -/
structure Sound (m : ModuleSettings) : Prop where
  finite : AllFinite m.numbers
  inRange : ∀ s ∈ m.sequencers, s.InRange

theorem sound_start (unitType : String) : Sound { unitType := unitType } where
  finite := by simp [ModuleSettings.numbers, ModuleSettings.offsets]
  inRange := by simp

theorem allFinite_applyOscillator (hchannel : AllFinite channel.numbers) (h0 : AllFinite m.lo0?.toList)
    (h1 : AllFinite m.lo1?.toList) :
    AllFinite (applyOscillator channel m).lo0?.toList ∧ AllFinite (applyOscillator channel m).lo1?.toList := by
  obtain ⟨hoscillator, -⟩ := allFinite_append.1 (allFinite_append.1 hchannel).1
  unfold applyOscillator
  split
  · rename_i ho
    obtain ⟨hfrequency, -⟩ := allFinite_append.1 (allFinite_flatMap.1 hoscillator _ (Option.mem_toList.2 ho))
    split
    · exact ⟨hfrequency, h1⟩
    · exact ⟨h0, hfrequency⟩
  · exact ⟨h0, h1⟩

/-- the mixer offsets of a port-clock are among its numbers -/
theorem allFinite_mixerOffsets (hentry : AllFinite entry.numbers) : AllFinite (mixerOffsets entry) := by
  obtain ⟨-, hcorrections⟩ := allFinite_append.1 hentry
  unfold mixerOffsets
  cases hmixer : entry.corrections.mixer? with
  | none => exact allFinite_nil
  | some mixer =>
    have hnumbers : AllFinite mixer.numbers := CorrectionSet.allFinite_of_get hcorrections .mixer hmixer
    obtain ⟨hnumbers, hoffsetQ⟩ := allFinite_append.1 hnumbers
    exact allFinite_append.2 ⟨(allFinite_append.1 hnumbers).2, hoffsetQ⟩

/-- **One channel more.** -/
theorem sound_of_applied (happlied : Applied path channel m m') (hm : Sound m) (hchannel : AllFinite channel.numbers)
    (hbounds : ∀ entry ∈ channel.portClocks, ∀ o, entry.corrections.sequencer? = some o → o.InBounds) : Sound m' := by
  obtain ⟨-, hentries⟩ := allFinite_append.1 hchannel
  rw [allFinite_flatMap] at hentries
  obtain ⟨hbefore, hsequencers⟩ := allFinite_append.1 hm.finite
  obtain ⟨hbefore, hoffsets⟩ := allFinite_append.1 hbefore
  obtain ⟨hlo0, hlo1⟩ := allFinite_append.1 hbefore
  obtain ⟨hlo0, hlo1⟩ := allFinite_applyOscillator hchannel hlo0 hlo1
  have hrange : ∀ s ∈ m'.sequencers, s.InRange := by
    intro s hs
    rcases happlied.sequencers s hs with hs | ⟨index, entry, hentry, hs⟩
    · exact hm.inRange s hs
    · exact sequencer_inRange hs (hbounds entry hentry)
  refine ⟨allFinite_append.2 ⟨allFinite_append.2 ⟨allFinite_append.2 ⟨?_, ?_⟩, fun x hx => ?_⟩,
    allFinite_flatMap.2 fun s hs => ?_⟩, hrange⟩
  · rw [happlied.lo0]
    exact hlo0
  · rw [happlied.lo1]
    exact hlo1
  · rcases happlied.offsets x hx with hx | ⟨entry, hentry, hx⟩
    · exact hoffsets x hx
    · exact allFinite_mixerOffsets (hentries entry hentry) x hx
  · have hin := hrange s hs
    rcases happlied.sequencers s hs with hs | ⟨index, entry, hentry, hs⟩
    · exact allFinite_flatMap.1 hsequencers s hs
    · exact sequencer_allFinite hs (hentries entry hentry) hin

/-- **All channels.** -/
theorem sound_of_generate {settings : QbloxSettings} (hmap : AllFinite map.numbers) (hbounds : map.InBounds)
    (h : generate map = .ok settings) : ∀ p ∈ settings.modules, Sound p.2 := by
  obtain ⟨-, hmodules, -⟩ := generate_eq_ok h
  refine foldlM_induction (fun _ (modules : Table String ModuleSettings) => ∀ p ∈ modules, Sound p.2)
    (List.forall_mem_nil _) ?_ hmodules
  intro done q modules modules' hq hbefore hadd p hp
  obtain ⟨unit, m', -, happly, rfl⟩ := addChannel_eq_ok_iff.1 hadd
  rcases Table.mem_putSorted hp with rfl | hp
  · refine sound_of_applied (applied_of_applyChannel happly) ?_ (allFinite_flatMap.1 hmap q hq) (hbounds q hq)
    cases hlookup : modules.lookup? unit with
    | none => exact sound_start q.2.unitType
    | some m => exact hbefore (unit, m) (Table.mem_of_lookup? hlookup)
  · exact hbefore p hp

end Qblox

/-! ## Zurich Instruments -/

namespace Zhinst

variable {s : OutputSettings}

theorem allFinite_of_output (h : output path channel = .ok s) (hchannel : AllFinite channel.numbers) :
    AllFinite s.numbers := by
  obtain ⟨entry, hentries, hs⟩ := output_eq_ok h
  have hentry : AllFinite entry.numbers := by
    refine allFinite_flatMap.1 (allFinite_append.1 hchannel).2 entry ?_
    rw [hentries]
    exact List.mem_singleton_self entry
  obtain ⟨hsplit, hcorrections⟩ := allFinite_append.1 hentry
  have hgains : AllFinite s.gain1?.toList ∧ AllFinite s.gain2?.toList := by
    rw [hs.gain1, hs.gain2]
    cases hgain : entry.corrections.outputGain? with
    | none => exact ⟨allFinite_nil, allFinite_nil⟩
    | some gain =>
      have hnumbers : AllFinite [gain.gainI, gain.gainQ] := CorrectionSet.allFinite_of_get hcorrections .outputGain hgain
      exact (List.forall_mem_cons.1 hnumbers).imp_left List.forall_mem_singleton.2
  refine allFinite_append.2
    ⟨allFinite_append.2 ⟨allFinite_append.2 ⟨allFinite_append.2 ⟨?_, hgains.1⟩, hgains.2⟩, ?_⟩, ?_⟩
  · rw [hs.modulation]
    exact (allFinite_append.1 hsplit).1
  · rw [hs.latency]
    refine allFinite_toList.2 fun x hx => ?_
    exact CorrectionSet.allFinite_of_get hcorrections .latency hx x (List.mem_singleton_self x)
  · rw [hs.mixer]
    refine allFinite_flatMap.2 fun mixer hmixer => ?_
    exact CorrectionSet.allFinite_of_get hcorrections .mixer (Option.mem_toList.1 hmixer)

theorem allFinite_of_generate {settings : ZhinstSettings} (hmap : AllFinite map.numbers)
    (h : generate map = .ok settings) : ∀ device ∈ settings.devices, ∀ p ∈ device.2, AllFinite p.2.numbers := by
  obtain ⟨-, hdevices, -⟩ := generate_eq_ok h
  refine foldlM_induction (fun _ (devices : Table String (Table String OutputSettings)) =>
    ∀ device ∈ devices, ∀ p ∈ device.2, AllFinite p.2.numbers) (List.forall_mem_nil _) ?_ hdevices
  intro done q devices devices' hq hbefore hadd device hdevice p hp
  obtain ⟨s, hs, rfl⟩ := addChannel_eq_ok_iff.1 hadd
  rcases Table.mem_putSorted hdevice with rfl | hdevice
  · rcases Table.mem_putSorted hp with rfl | hp
    · exact allFinite_of_output hs (allFinite_flatMap.1 hmap q hq)
    · cases hlookup : devices.lookup? q.1.instrument with
      | none =>
        rw [hlookup] at hp
        cases hp
      | some outputs =>
        rw [hlookup] at hp
        exact hbefore _ (Table.mem_of_lookup? hlookup) p hp
  · exact hbefore device hdevice p hp

end Zhinst

/-! ## Settings -/

variable {s : InstrumentSettings}

/-- **Settings of a map.** Their numbers are finite if those of the map are, and sequencers have theirs in range. -/
theorem sound_of_generate (hmap : AllFinite map.numbers) (hbounds : map.InBounds) (h : generate map = .ok s) :
    AllFinite s.numbers ∧ ∀ sequencer ∈ s.sequencers, sequencer.InRange := by
  unfold generate generateFor at h
  cases hbackend : map.backend with
  | qblox =>
    rw [hbackend] at h
    obtain ⟨made, hmade, rfl⟩ := map_eq_ok_iff.1 h
    have hsound := Qblox.sound_of_generate hmap hbounds hmade
    refine ⟨allFinite_append.2 ⟨allFinite_flatMap.2 fun p hp => (hsound p hp).finite, ?_⟩, fun sequencer hin => ?_⟩
    · rw [(Qblox.generate_eq_ok hmade).2.2]
      exact allFinite_ofMap hmap
    · obtain ⟨p, hp, hin⟩ := List.mem_flatMap.1 hin
      exact (hsound p hp).inRange sequencer hin
  | zhinst =>
    rw [hbackend] at h
    obtain ⟨made, hmade, rfl⟩ := map_eq_ok_iff.1 h
    have hfinite := Zhinst.allFinite_of_generate hmap hmade
    refine ⟨allFinite_append.2 ⟨allFinite_flatMap.2 fun device hdevice => ?_, ?_⟩, List.forall_mem_nil _⟩
    · exact allFinite_flatMap.2 (hfinite device hdevice)
    · rw [(Zhinst.generate_eq_ok hmade).2.2]
      exact allFinite_ofMap hmap

/-! ## JSON form -/

def OscillatorSettings.blanks (s : OscillatorSettings) : Nat := absent s.power? + absent s.frequency?

def SequencerSettings.blanks (s : SequencerSettings) : Nat := absent s.modulation?

def ModuleSettings.blanks (m : ModuleSettings) : Nat := (m.sequencers.map SequencerSettings.blanks).sum

/-- the values that are left out and yet have a member in the written settings: powers and frequencies of external
oscillators, and modulation frequencies of sequencers -/
def InstrumentSettings.blanks : InstrumentSettings → Nat
  | qblox s => (s.modules.map fun p => p.2.blanks).sum + (s.oscillators.map fun p => p.2.blanks).sum
  | zhinst s => (s.oscillators.map fun p => p.2.blanks).sum

theorem nulls_tableJson {oscillators : Table String OscillatorSettings} (h : AllFinite (oscillatorNumbers oscillators)) :
    (OscillatorSettings.tableJson oscillators).nulls = (oscillators.map fun p => p.2.blanks).sum := by
  refine Json.memberNulls_map _ fun p hp => ?_
  obtain ⟨hpower, hfrequency⟩ := allFinite_append.1 (allFinite_flatMap.1 h p hp)
  simp [OscillatorSettings.toJson, Json.nulls_ofOption hpower, Json.nulls_ofOption hfrequency, OscillatorSettings.blanks]

theorem SequencerSettings.nulls_toJson {s : SequencerSettings} (h : AllFinite s.numbers) : s.toJson.nulls = s.blanks := by
  obtain ⟨h, hthreshold⟩ := allFinite_append.1 h
  obtain ⟨hmodulation, hvalues⟩ := allFinite_append.1 h
  have hvalue : ∀ x ∈ [s.gainRatio, s.phaseOffset, s.offset0, s.offset1, s.gain0, s.gain1],
      (Json.ofDouble x).nulls = 0 := fun x hx => Json.nulls_ofDouble (hvalues x hx)
  simp only [List.forall_mem_cons] at hvalue
  simp [SequencerSettings.toJson, PortClock.toJson, hvalue, Json.nulls_ofOption hmodulation,
    Json.memberNulls_member?_ofDouble hthreshold, SequencerSettings.blanks]

theorem ModuleSettings.nulls_toJson {m : ModuleSettings} (h : AllFinite m.numbers) : m.toJson.nulls = m.blanks := by
  obtain ⟨h, hsequencers⟩ := allFinite_append.1 h
  obtain ⟨h, hoffsets⟩ := allFinite_append.1 h
  obtain ⟨hlo0, hlo1⟩ := allFinite_append.1 h
  simp only [ModuleSettings.offsets, allFinite_append] at hoffsets
  obtain ⟨⟨⟨hoffset00, hoffset01⟩, hoffset10⟩, hoffset11⟩ := hoffsets
  simp [ModuleSettings.toJson, Json.memberNulls_member?_ofDouble hlo0,
    Json.memberNulls_member?_ofDouble hlo1, Json.memberNulls_member?_ofDouble hoffset00,
    Json.memberNulls_member?_ofDouble hoffset01, Json.memberNulls_member?_ofDouble hoffset10,
    Json.memberNulls_member?_ofDouble hoffset11,
    Json.itemNulls_map fun s hs => SequencerSettings.nulls_toJson (allFinite_flatMap.1 hsequencers s hs),
    ModuleSettings.blanks]

theorem OutputSettings.nulls_toJson {s : OutputSettings} (h : AllFinite s.numbers) : s.toJson.nulls = 0 := by
  obtain ⟨h, hmixer⟩ := allFinite_append.1 h
  obtain ⟨h, hlatency⟩ := allFinite_append.1 h
  obtain ⟨h, hgain2⟩ := allFinite_append.1 h
  obtain ⟨hmodulation, hgain1⟩ := allFinite_append.1 h
  have hmodulationJson : (OutputSettings.modulationJson s.modulation?).nulls = 0 := by
    cases hfrequency : s.modulation? with
    | none => simp [OutputSettings.modulationJson]
    | some f => simp [OutputSettings.modulationJson, Json.nulls_ofDouble (allFinite_toList.1 hmodulation f hfrequency)]
  have hmixerJson : ∀ mixer, s.mixer? = some mixer → mixer.toJson.nulls = 0 := fun mixer hset =>
    MixerCorrection.nulls_toJson (allFinite_flatMap.1 hmixer mixer (Option.mem_toList.2 hset))
  simp [OutputSettings.toJson, ChannelKind.toJson, hmodulationJson, Json.memberNulls_member?_eq_zero hmixerJson,
    Json.memberNulls_member?_ofDouble hgain1, Json.memberNulls_member?_ofDouble hgain2,
    Json.memberNulls_member?_ofDouble hlatency]

/-- **Written settings.** Where the numbers are finite, a `null` is a value that is left out. -/
theorem InstrumentSettings.nulls_toJson (h : AllFinite s.numbers) : s.toJson.nulls = s.blanks := by
  cases s with
  | qblox made =>
    obtain ⟨hmodules, hoscillators⟩ := allFinite_append.1 h
    have hmodulesJson : Json.memberNulls (List.map (fun p => (p.1, p.2.toJson)) made.modules) =
        (made.modules.map fun p => p.2.blanks).sum :=
      Json.memberNulls_map _ fun p hp => ModuleSettings.nulls_toJson (allFinite_flatMap.1 hmodules p hp)
    simp [InstrumentSettings.toJson, QbloxSettings.toJson, hmodulesJson, nulls_tableJson hoscillators,
      InstrumentSettings.blanks]
  | zhinst made =>
    obtain ⟨hdevices, hoscillators⟩ := allFinite_append.1 h
    rw [allFinite_flatMap] at hdevices
    have houtputs : ∀ device ∈ made.devices,
        (Json.obj (List.map (fun p => (p.1, p.2.toJson)) device.2)).nulls = 0 := by
      intro device hdevice
      have hnone : ∀ p ∈ device.2, p.2.toJson.nulls = 0 :=
        fun p hp => OutputSettings.nulls_toJson (allFinite_flatMap.1 (hdevices device hdevice) p hp)
      simpa using Json.memberNulls_map Prod.fst hnone
    have hdevicesJson : Json.memberNulls (List.map (fun device =>
        (device.1, Json.obj (List.map (fun p => (p.1, p.2.toJson)) device.2))) made.devices) = 0 := by
      rw [Json.memberNulls_map Prod.fst houtputs]
      simp
    simp [InstrumentSettings.toJson, ZhinstSettings.toJson, hdevicesJson, nulls_tableJson hoscillators,
      InstrumentSettings.blanks]

/-! ## Settings of a config -/

/-- **Numbers of a config.** Whatever numbers a config holds, those of its map and of its settings are finite, so that no
number is written as `null`, and sequencers have theirs in range. The arguments of filters are not looked into. -/
theorem compileSettings_finite (config : Config) (settings : Settings) :
    (∀ m, compile config settings = .ok m →
      AllFinite m.numbers ∧ m.argumentNumbers ⊆ (Parsed.optionsOf config).argumentNumbers ∧
        m.toJson.nulls = m.blanks) ∧
    ∀ s, compileSettings config settings = .ok s →
      AllFinite s.numbers ∧ s.toJson.nulls = s.blanks ∧ ∀ sequencer ∈ s.sequencers, sequencer.InRange := by
  constructor
  · intro m hm
    obtain ⟨p, warnings, hc⟩ := compile_compiled hm
    exact ⟨hc.allFinite_numbers, hc.argumentNumbers_subset, CompiledMap.nulls_toJson hc.allFinite_numbers⟩
  · intro s hs
    unfold compileSettings at hs
    split at hs
    · rename_i m hm
      obtain ⟨p, warnings, hc⟩ := compile_compiled hm
      obtain ⟨hfinite, hrange⟩ := sound_of_generate hc.allFinite_numbers (fun q hq entry hentry o ho =>
        hc.inBounds hq hentry ho) hs
      exact ⟨hfinite, InstrumentSettings.nulls_toJson hfinite, hrange⟩
    · cases hs

/-- a control module with an external oscillator, whose one port-clock has a gain ratio of 1/2, offsets and a gain -/
def correctedConfig : Config where
  backend := "qblox"
  description :=
    [("cluster0", { (default : InstrumentDescription) with
        type := "Cluster", modules? := some [("1", ⟨"QCM", []⟩)] }),
      ("lo0", { (default : InstrumentDescription) with type := "LocalOscillator", power? := some (Double.ofInt 10) })]
  options? := some {
    modulation? := some [("q0:mw-q0.01", ⟨none, some (Double.ofInt 5)⟩)]
    mixer? := some [("q0:mw-q0.01", ⟨some (Double.ofRatio false 1 2), none, some (Double.ofInt (-3)), none⟩)]
    sequencer? := some [("q0:mw-q0.01", ⟨none, some (Double.ofRatio true 1 2), none, some (Double.ofInt 1), none⟩)] }
  connectivity := .paths [("cluster0.module1.complex_output_0", .obj [("lo_name", .str "lo0"),
    ("portclock_configs", .arr [.obj [("port", .str "q0:mw"), ("clock", .str "q0.01")]])])]

/-- the intermediate frequency of the port-clock is all that is left out: on the map and in its options as well as in the
settings of its sequencer -/
theorem correctedConfig_finite :
    ∃ m s, compile correctedConfig {} = .ok m ∧ compileSettings correctedConfig {} = .ok s ∧
      m.numbers.length = 8 ∧ m.blanks = 2 ∧ s.sequencers.length = 1 ∧ s.blanks = 1 ∧ AllFinite m.numbers ∧
      m.toJson.nulls = m.blanks ∧ AllFinite s.numbers ∧ s.toJson.nulls = s.blanks ∧
      ∀ sequencer ∈ s.sequencers, sequencer.InRange := by
  obtain ⟨m, hm, hmap⟩ := exists_eq_ok (x := compile correctedConfig {})
    (c := fun m => m.numbers.length = 8 ∧ m.blanks = 2) (by decide +kernel)
  obtain ⟨s, hs, hsettings⟩ := exists_eq_ok (x := compileSettings correctedConfig {})
    (c := fun s => s.sequencers.length = 1 ∧ s.blanks = 1) (by decide +kernel)
  obtain ⟨hnumbers, hblanks⟩ := of_decide_eq_true hmap
  obtain ⟨hsequencers, hleft⟩ := of_decide_eq_true hsettings
  obtain ⟨hfinite, -, hnulls⟩ := (compileSettings_finite correctedConfig {}).1 m hm
  obtain ⟨hfinite', hnulls', hrange⟩ := (compileSettings_finite correctedConfig {}).2 s hs
  exact ⟨m, s, hm, hs, hnumbers, hblanks, hsequencers, hleft, hfinite, hnulls, hfinite', hnulls', hrange⟩

end Instrument

end RackMap
