/-
What each step of making Qblox settings can do.

Of a step that succeeds `Adjusts`, `Applied` and `addChannel_eq_ok_iff` say which settings it touches and where the values
come from; of a step that fails `Refused` says with which faults. The proofs about whole settings start from these and
never open the steps again.
- `applied_of_applyChannel`: a channel brings the frequency of its oscillator, mixer offsets of its port-clocks and a
  sequencer for each of them, and nothing else that is a floating number;
- `refused_of_applyChannel`: it is refused for its name, its attenuator, values that disagree or one that is out of range;
- `generate_eq_ok_iff`: settings are made iff all channels are taken and no module has too many sequencers.
-/
import Mathlib.Tactic
import RackMap.Instrument.Qblox
import RackMap.Proofs.Outcome

namespace RackMap.Instrument

open RackMap.Decimal (Double)

/-- the mixer offsets of a module, as far as they are set -/
def ModuleSettings.offsets (m : ModuleSettings) : List Double :=
  m.offset00?.toList ++ m.offset01?.toList ++ m.offset10?.toList ++ m.offset11?.toList

/-- the mixer offsets that a port-clock asks for -/
def mixerOffsets (entry : CompiledPortClock) : List Double :=
  (entry.corrections.mixer?.bind MixerCorrection.offsetI?).toList ++
    (entry.corrections.mixer?.bind MixerCorrection.offsetQ?).toList

namespace Qblox

variable {path : ChannelPath} {channel : CompiledChannel} {m m' : ModuleSettings} {entry : CompiledPortClock}
  {fault : Fault} {index : Nat} {ioName setting : String} {pc : PortClock} {low high value x : Double}
  {s : SequencerSettings}

/-! ## Values -/

theorem inRange_eq_ok_iff : inRange setting pc low high value = .ok x ↔ value.within low high = true ∧ x = value := by
  unfold inRange
  split
  · rename_i hwithin
    simp [hwithin, eq_comm]
  · rename_i hwithin
    simp [hwithin]

theorem inRange_eq_error_iff :
    inRange setting pc low high value = .error fault ↔
      value.within low high = false ∧ fault = .outOfRange setting pc value low high := by
  unfold inRange
  split
  · rename_i hwithin
    simp [hwithin]
  · rename_i hwithin
    simp [hwithin, eq_comm]

section Agreed

variable {α : Type} {same : α → α → Bool} {shared : α → Shared} {value? : CompiledPortClock → Option α}
  {entries : List CompiledPortClock} {a? : Option α}

/-- what port-clocks agree on is what one of them asks for -/
theorem mem_of_agreed (h : agreed path setting same shared value? entries = .ok a?) {a : α} (ha : a? = some a) :
    ∃ entry ∈ entries, value? entry = some a := by
  unfold agreed at h
  split at h
  · cases h
    cases ha
  · rename_i pc first rest hasked
    split at h
    · cases h
      cases ha
      have hfirst : (pc, a) ∈ entries.filterMap fun entry => (value? entry).map fun v => (entry.portClock, v) := by
        rw [hasked]
        exact List.mem_cons_self
      obtain ⟨entry, hentry, hvalue⟩ := List.mem_filterMap.1 hfirst
      obtain ⟨v, hv, heq⟩ := Option.map_eq_some_iff.1 hvalue
      cases heq
      exact ⟨entry, hentry, hv⟩
    · cases h

theorem agreed_eq_error (h : agreed path setting same shared value? entries = .error fault) :
    ∃ values, fault = .conflicting path setting values := by
  unfold agreed at h
  split at h
  · cases h
  · split at h
    · cases h
    · cases h
      exact ⟨_, rfl⟩

end Agreed

/-! ## Faults of a channel -/

/-- why a channel is refused -/
inductive Refused (path : ChannelPath) (channel : CompiledChannel) : Fault → Prop
  | badChannelName : ioIndex? path.name = none → Refused path channel (.badChannelName path.name)
  | conflicting (setting : String) (values : List (PortClock × Shared)) :
    Refused path channel (.conflicting path setting values)
  | noAttenuator : Refused path channel (.noAttenuator path)
  | outOfRange {entry : CompiledPortClock} {setting : String} {value low high : Double} :
    entry ∈ channel.portClocks → value.within low high = false →
      Refused path channel (.outOfRange setting entry.portClock value low high)

theorem refused_of_agreed {α : Type} {same : α → α → Bool} {shared : α → Shared}
    {value? : CompiledPortClock → Option α} {entries : List CompiledPortClock}
    (h : agreed path setting same shared value? entries = .error fault) : Refused path channel fault := by
  obtain ⟨values, rfl⟩ := agreed_eq_error h
  exact .conflicting setting values

/-! ## Sequencers -/

theorem sequencer_eq_error (h : sequencer index ioName entry = .error fault) :
    ∃ setting value low high, value.within low high = false ∧
      fault = .outOfRange setting entry.portClock value low high := by
  unfold sequencer at h
  rcases bind_eq_error_iff.1 h with h | ⟨gainRatio, -, h⟩
  · exact ⟨_, _, _, _, inRange_eq_error_iff.1 h⟩
  · rcases bind_eq_error_iff.1 h with h | ⟨phaseOffset, -, h⟩
    · exact ⟨_, _, _, _, inRange_eq_error_iff.1 h⟩
    · cases h

/-- a port-clock of the channel has this sequencer -/
def IsSequencerOf (path : ChannelPath) (channel : CompiledChannel) (s : SequencerSettings) : Prop :=
  ∃ index, ∃ entry ∈ channel.portClocks, sequencer index path.name entry = .ok s

theorem foldlM_addSequencer_eq_ok (h : channel.portClocks.foldlM (addSequencer path.name) m = .ok m') :
    ∃ added, m' = { m with sequencers := m.sequencers ++ added } ∧ ∀ s ∈ added, IsSequencerOf path channel s := by
  refine foldlM_induction (fun _ x => ∃ added, x = { m with sequencers := m.sequencers ++ added } ∧
    ∀ s ∈ added, IsSequencerOf path channel s) ⟨[], by rw [List.append_nil], by simp⟩ ?_ h
  rintro done entry x x' hentry ⟨added, rfl, hadded⟩ hx
  obtain ⟨s, hs, hx⟩ := bind_eq_ok_iff.1 hx
  cases hx
  refine ⟨added ++ [s], by rw [List.append_assoc], fun s' hs' => ?_⟩
  rcases List.mem_append.1 hs' with hs' | hs'
  · exact hadded s' hs'
  · obtain rfl := List.mem_singleton.1 hs'
    exact ⟨_, entry, hentry, hs⟩

theorem foldlM_addSequencer_eq_error (h : channel.portClocks.foldlM (addSequencer path.name) m = .error fault) :
    Refused path channel fault := by
  obtain ⟨entry, hentry, x, hx⟩ := exists_of_foldlM_eq_error h
  rcases bind_eq_error_iff.1 hx with hx | ⟨s, -, hx⟩
  · obtain ⟨setting, value, low, high, hrange, rfl⟩ := sequencer_eq_error hx
    exact .outOfRange hentry hrange
  · cases hx

/-! ## Settings of a module -/

/-- a step that touches neither the type nor the frequencies nor the sequencers of a module, and sets offsets that the
port-clocks of a channel ask for -/
structure Adjusts (channel : CompiledChannel) (m m' : ModuleSettings) : Prop where
  unitType : m'.unitType = m.unitType
  lo0 : m'.lo0? = m.lo0?
  lo1 : m'.lo1? = m.lo1?
  offsets : ∀ x ∈ m'.offsets, x ∈ m.offsets ∨ ∃ entry ∈ channel.portClocks, x ∈ mixerOffsets entry
  sequencers : m'.sequencers = m.sequencers

theorem Adjusts.refl (channel : CompiledChannel) (m : ModuleSettings) : Adjusts channel m m :=
  ⟨rfl, rfl, rfl, fun _ hx => Or.inl hx, rfl⟩

theorem Adjusts.trans {m'' : ModuleSettings} (h : Adjusts channel m m') (h' : Adjusts channel m' m'') :
    Adjusts channel m m'' where
  unitType := h'.unitType.trans h.unitType
  lo0 := h'.lo0.trans h.lo0
  lo1 := h'.lo1.trans h.lo1
  offsets x hx := (h'.offsets x hx).elim (h.offsets x) Or.inr
  sequencers := h'.sequencers.trans h.sequencers

theorem adjusts_of_applyAttenuation (h : applyAttenuation path index channel m = .ok m') : Adjusts channel m m' := by
  unfold applyAttenuation at h
  obtain ⟨attenuation?, -, h⟩ := bind_eq_ok_iff.1 h
  split at h
  · cases h
    exact .refl channel m
  · simp only at h
    split at h <;> cases h <;> exact ⟨rfl, rfl, rfl, fun _ hx => Or.inl hx, rfl⟩

theorem refused_of_applyAttenuation (h : applyAttenuation path index channel m = .error fault) :
    Refused path channel fault := by
  unfold applyAttenuation at h
  rcases bind_eq_error_iff.1 h with h | ⟨attenuation?, -, h⟩
  · exact refused_of_agreed h
  · split at h
    · cases h
    · simp only at h
      split at h <;> cases h
      exact .noAttenuator

theorem adjusts_of_applyGain (h : applyGain path index channel m = .ok m') : Adjusts channel m m' := by
  unfold applyGain at h
  split at h
  · cases h
    exact .refl channel m
  · obtain ⟨gain?, -, h⟩ := bind_eq_ok_iff.1 h
    split at h
    · cases h
      exact .refl channel m
    · cases h
      exact ⟨rfl, rfl, rfl, fun _ hx => Or.inl hx, rfl⟩
    · split at h <;> cases h <;> exact ⟨rfl, rfl, rfl, fun _ hx => Or.inl hx, rfl⟩

theorem refused_of_applyGain (h : applyGain path index channel m = .error fault) : Refused path channel fault := by
  unfold applyGain at h
  split at h
  · cases h
  · rcases bind_eq_error_iff.1 h with h | ⟨gain?, -, h⟩
    · exact refused_of_agreed h
    · split at h
      · cases h
      · cases h
      · split at h <;> cases h

theorem adjusts_of_applyOffsets (h : applyOffsets path index channel m = .ok m') : Adjusts channel m m' := by
  unfold applyOffsets at h
  split at h
  · obtain ⟨offsetI?, hoffsetI, h⟩ := bind_eq_ok_iff.1 h
    obtain ⟨offsetQ?, hoffsetQ, h⟩ := bind_eq_ok_iff.1 h
    have hasked : ∀ x, offsetI? = some x ∨ offsetQ? = some x → ∃ entry ∈ channel.portClocks, x ∈ mixerOffsets entry := by
      rintro x (hx | hx)
      · obtain ⟨entry, hentry, hvalue⟩ := mem_of_agreed hoffsetI hx
        exact ⟨entry, hentry, List.mem_append_left _ (Option.mem_toList.2 hvalue)⟩
      · obtain ⟨entry, hentry, hvalue⟩ := mem_of_agreed hoffsetQ hx
        exact ⟨entry, hentry, List.mem_append_right _ (Option.mem_toList.2 hvalue)⟩
    split at h <;> cases h <;> refine ⟨rfl, rfl, rfl, fun x hx => ?_, rfl⟩ <;>
      simp only [ModuleSettings.offsets, List.mem_append, Option.mem_toList] at hx ⊢
    · rcases hx with ((hx | hx) | hx) | hx
      · exact Or.inr (hasked x (Or.inl hx))
      · exact Or.inr (hasked x (Or.inr hx))
      · exact Or.inl (Or.inl (Or.inr hx))
      · exact Or.inl (Or.inr hx)
    · rcases hx with (hx | hx) | hx
      · exact Or.inl (Or.inl (Or.inl hx))
      · exact Or.inr (hasked x (Or.inl hx))
      · exact Or.inr (hasked x (Or.inr hx))
  · cases h
    exact .refl channel m

theorem refused_of_applyOffsets (h : applyOffsets path index channel m = .error fault) :
    Refused path channel fault := by
  unfold applyOffsets at h
  split at h
  · rcases bind_eq_error_iff.1 h with h | ⟨offsetI?, -, h⟩
    · exact refused_of_agreed h
    · rcases bind_eq_error_iff.1 h with h | ⟨offsetQ?, -, h⟩
      · exact refused_of_agreed h
      · split at h <;> cases h
  · cases h

/-! ## Channels -/

/-- a module with one channel more -/
structure Applied (path : ChannelPath) (channel : CompiledChannel) (m m' : ModuleSettings) : Prop where
  unitType : m'.unitType = m.unitType
  lo0 : m'.lo0? = (applyOscillator channel m).lo0?
  lo1 : m'.lo1? = (applyOscillator channel m).lo1?
  offsets : ∀ x ∈ m'.offsets, x ∈ m.offsets ∨ ∃ entry ∈ channel.portClocks, x ∈ mixerOffsets entry
  sequencers : ∀ s ∈ m'.sequencers, s ∈ m.sequencers ∨ IsSequencerOf path channel s

/-- the oscillator of a channel sets a frequency of the module, and nothing else -/
theorem applyOscillator_frame (channel : CompiledChannel) (m : ModuleSettings) :
    ∃ lo0? lo1?, applyOscillator channel m = { m with lo0? := lo0?, lo1? := lo1? } := by
  unfold applyOscillator
  split
  · split
    · exact ⟨_, _, rfl⟩
    · exact ⟨_, _, rfl⟩
  · exact ⟨_, _, rfl⟩

theorem applyChannel_eq_ok_iff :
    applyChannel path channel m = .ok m' ↔
      ∃ index m₁ m₂ m₃, ioIndex? path.name = some index ∧
        applyAttenuation path index channel (applyOscillator channel m) = .ok m₁ ∧
        applyGain path index channel m₁ = .ok m₂ ∧ applyOffsets path index channel m₂ = .ok m₃ ∧
        channel.portClocks.foldlM (addSequencer path.name) m₃ = .ok m' := by
  unfold applyChannel
  cases ioIndex? path.name with
  | none => simp
  | some index => simp [bind_eq_ok_iff]

/-- **A channel that is taken.** -/
theorem applied_of_applyChannel (h : applyChannel path channel m = .ok m') : Applied path channel m m' := by
  obtain ⟨index, m₁, m₂, m₃, -, h₁, h₂, h₃, h⟩ := applyChannel_eq_ok_iff.1 h
  have hadjusts := ((adjusts_of_applyAttenuation h₁).trans (adjusts_of_applyGain h₂)).trans
    (adjusts_of_applyOffsets h₃)
  obtain ⟨added, rfl, hadded⟩ := foldlM_addSequencer_eq_ok h
  obtain ⟨lo0?, lo1?, hframe⟩ := applyOscillator_frame channel m
  have hunit : (applyOscillator channel m).unitType = m.unitType := by rw [hframe]
  have hoffsets : (applyOscillator channel m).offsets = m.offsets := by rw [hframe]; rfl
  have hsequencers : (applyOscillator channel m).sequencers = m.sequencers := by rw [hframe]
  refine ⟨hadjusts.unitType.trans hunit, hadjusts.lo0, hadjusts.lo1, fun x hx => ?_, fun s hs => ?_⟩
  · rw [← hoffsets]
    exact hadjusts.offsets x hx
  · rcases List.mem_append.1 hs with hs | hs
    · rw [hadjusts.sequencers, hsequencers] at hs
      exact Or.inl hs
    · exact Or.inr (hadded s hs)

/-- **A channel that is refused.** -/
theorem refused_of_applyChannel (h : applyChannel path channel m = .error fault) : Refused path channel fault := by
  unfold applyChannel at h
  split at h
  · rename_i hname
    cases h
    exact .badChannelName hname
  · rcases bind_eq_error_iff.1 h with h | ⟨m₁, -, h⟩
    · exact refused_of_applyAttenuation h
    · rcases bind_eq_error_iff.1 h with h | ⟨m₂, -, h⟩
      · exact refused_of_applyGain h
      · rcases bind_eq_error_iff.1 h with h | ⟨m₃, -, h⟩
        · exact refused_of_applyOffsets h
        · exact foldlM_addSequencer_eq_error h

/-! ## Modules -/

variable {modules modules' : Table String ModuleSettings} {q : ChannelPath × CompiledChannel} {map : CompiledMap}
  {settings : QbloxSettings}

theorem addChannel_eq_ok_iff :
    addChannel modules q = .ok modules' ↔
      ∃ unit m', q.1.parent? = some unit ∧
        applyChannel q.1 q.2 ((modules.lookup? unit).getD { unitType := q.2.unitType }) = .ok m' ∧
        modules' = modules.putSorted unit m' := by
  obtain ⟨path, channel⟩ := q
  unfold addChannel
  simp only
  cases hparent : path.parent? with
  | none => simp
  | some unit => simp [bind_eq_ok_iff, @eq_comm _ modules']

theorem addChannel_eq_error (h : addChannel modules q = .error fault) :
    (q.1.parent? = none ∧ fault = .noModule q.1) ∨ Refused q.1 q.2 fault := by
  unfold addChannel at h
  cases hparent : q.1.parent? with
  | none =>
    simp only [hparent] at h
    cases h
    exact Or.inl ⟨rfl, rfl⟩
  | some unit =>
    simp only [hparent] at h
    rcases bind_eq_error_iff.1 h with h | ⟨m', -, h⟩
    · exact Or.inr (refused_of_applyChannel h)
    · cases h

theorem checkSequencers_eq_ok_iff {entry : String × ModuleSettings} {checked : Unit} :
    checkSequencers entry = .ok checked ↔ entry.2.sequencers.length ≤ sequencerCount entry.2.unitType := by
  unfold checkSequencers
  simp only
  split <;> simp_all

theorem checkSequencers_eq_error {entry : String × ModuleSettings} (h : checkSequencers entry = .error fault) :
    sequencerCount entry.2.unitType < entry.2.sequencers.length ∧
      fault = .tooManySequencers entry.1 entry.2.sequencers.length (sequencerCount entry.2.unitType) := by
  unfold checkSequencers at h
  simp only at h
  split at h
  · cases h
  · rename_i hmany
    cases h
    exact ⟨Nat.lt_of_not_le hmany, rfl⟩

theorem generate_eq (hbackend : map.backend = .qblox) : generate map = do
    let modules ← map.channels.foldlM addChannel []
    let _ ← modules.mapM checkSequencers
    return ⟨modules, OscillatorSettings.ofMap map⟩ := by
  rw [generate, if_neg (not_not.2 hbackend)]

/-- settings are made of a map for this backend iff all channels are taken and every module has enough sequencers -/
theorem generate_eq_ok_iff :
    generate map = .ok settings ↔
      map.backend = .qblox ∧ map.channels.foldlM addChannel [] = .ok settings.modules ∧
        settings.oscillators = OscillatorSettings.ofMap map ∧
        ∀ x ∈ settings.modules, x.2.sequencers.length ≤ sequencerCount x.2.unitType := by
  by_cases hbackend : map.backend = .qblox
  · have hchecked : ∀ modules : Table String ModuleSettings, (∃ checked, modules.mapM checkSequencers = .ok checked) ↔
        ∀ x ∈ modules, x.2.sequencers.length ≤ sequencerCount x.2.unitType := by
      intro modules
      simp only [exists_mapM_iff, checkSequencers_eq_ok_iff, exists_const]
    obtain ⟨modules, oscillators⟩ := settings
    simp only [generate_eq hbackend, bind_eq_ok_iff, pure_eq_ok, Except.ok.injEq, QbloxSettings.mk.injEq, hbackend,
      true_and, ← hchecked]
    constructor
    · rintro ⟨modules', hmodules, checked, hmapM, rfl, rfl⟩
      exact ⟨hmodules, rfl, checked, hmapM⟩
    · rintro ⟨hmodules, rfl, checked, hmapM⟩
      exact ⟨modules, hmodules, checked, hmapM, rfl, rfl⟩
  · simp [generate, hbackend]

/-- **Settings that are made.** -/
theorem generate_eq_ok (h : generate map = .ok settings) :
    map.backend = .qblox ∧ map.channels.foldlM addChannel [] = .ok settings.modules ∧
      settings.oscillators = OscillatorSettings.ofMap map := by
  obtain ⟨hbackend, hmodules, hoscillators, -⟩ := generate_eq_ok_iff.1 h
  exact ⟨hbackend, hmodules, hoscillators⟩

/-- **Settings that are not made.** -/
theorem generate_eq_error (h : generate map = .error fault) :
    (map.backend ≠ .qblox ∧ fault = .backendMismatch .qblox map.backend) ∨
      (∃ q ∈ map.channels, (q.1.parent? = none ∧ fault = .noModule q.1) ∨ Refused q.1 q.2 fault) ∨
      ∃ unit required available, available < required ∧ fault = .tooManySequencers unit required available := by
  unfold generate at h
  split at h
  · rename_i hbackend
    cases h
    exact Or.inl ⟨hbackend, rfl⟩
  · rcases bind_eq_error_iff.1 h with h | ⟨modules, -, h⟩
    · obtain ⟨q, hq, x, hx⟩ := exists_of_foldlM_eq_error h
      exact Or.inr (Or.inl ⟨q, hq, addChannel_eq_error hx⟩)
    · rcases bind_eq_error_iff.1 h with h | ⟨checked, -, h⟩
      · obtain ⟨entry, -, hentry⟩ := exists_of_mapM_eq_error h
        obtain ⟨hmany, rfl⟩ := checkSequencers_eq_error hentry
        exact Or.inr (Or.inr ⟨_, _, _, hmany, rfl⟩)
      · cases h

end Qblox

end RackMap.Instrument
