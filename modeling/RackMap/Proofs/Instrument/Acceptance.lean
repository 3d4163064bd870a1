/-
Which maps the settings of Qblox instruments can be made of.

The channels come one after the other, and the first fault ends the run. But no step asks what the module holds already,
so whether a channel is taken is a matter of this channel alone, and only the count of sequencers is one of a module.
- `SharedSetting`: the settings that the port-clocks of a channel have to agree on, with the channels that have them;
- `Checks.agreed_eq`: the check of one of them, which fails with all values that are asked for;
- `Named`: what the steps of a channel read off its name, and `exists_named` that it is right;
- `exists_applyChannel_iff`: a channel is taken iff it is `Consistent`; `conflicts_of_applyChannel`: what it reports if
  its port-clocks disagree;
- `compile_acceptance`: settings are made of a map iff all its channels are consistent and no unit has too many
  port-clocks.
-/
import Mathlib.Tactic
import RackMap.Proofs.Instrument.Attenuators
import RackMap.Proofs.Instrument.Sequencers

namespace RackMap.Instrument

open RackMap.Decimal (Double)

/-! ## Values that are asked for -/

namespace Shared

/-- numbers are compared as numbers, so an offset of -0 agrees with one of 0 -/
def same : Shared → Shared → Bool
  | attenuation v, attenuation w => v == w
  | gain v, gain w => v == w
  | offset v, offset w => v.same w
  | _, _ => false

theorem same_symm {a b : Shared} (h : a.same b = true) : b.same a = true := by
  cases a <;> cases b <;> simp_all [same, Double.same_comm]

theorem same_through {a b c : Shared} (hab : a.same b = true) (hbc : b.same c = true) : a.same c = true := by
  cases a <;> cases b <;> cases c <;> simp only [same, Bool.false_eq_true, beq_iff_eq] at hab hbc ⊢
  · exact hab.trans hbc
  · exact hab.trans hbc
  · exact Double.same_trans hab hbc

end Shared

namespace Qblox

variable {config : Config} {settings : Settings} {p : Parsed} {warnings : List String} {m : CompiledMap}
  {s : QbloxSettings} {path : ChannelPath} {channel : CompiledChannel} {ms ms' : ModuleSettings} {index : Nat}
  {ioName setting : String} {entries : List CompiledPortClock} {entry : CompiledPortClock}
  {q : ChannelPath × CompiledChannel} {values : List (PortClock × Shared)}

/-- all values that are asked for are the same -/
def Unanimous (values : List (PortClock × Shared)) : Prop := ∀ a ∈ values, ∀ b ∈ values, a.2.same b.2 = true

instance (values : List (PortClock × Shared)) : Decidable (Unanimous values) :=
  inferInstanceAs (Decidable (∀ a ∈ values, ∀ b ∈ values, a.2.same b.2 = true))

/-- a setting that the port-clocks of a channel have to agree on -/
inductive SharedSetting where
  | attenuation
  | inputGain
  | offsetI
  | offsetQ
deriving DecidableEq, Repr

namespace SharedSetting

def name : SharedSetting → String
  | attenuation => "attenuation"
  | inputGain => "input_gain"
  | offsetI => "dc_offset_i"
  | offsetQ => "dc_offset_q"

/-- whether channels of this direction and kind have the setting -/
def isOn (k : SharedSetting) (channel : CompiledChannel) : Bool :=
  match k with
  | attenuation => true
  | inputGain => channel.direction = .input
  | offsetI | offsetQ => channel.direction = .output ∧ channel.kind = .complex

/-- the value that a port-clock asks for on a channel of this direction -/
def value? (k : SharedSetting) (direction : Direction) (entry : CompiledPortClock) : Option Shared :=
  match k with
  | attenuation => (requestedAtt? direction entry).map .attenuation
  | inputGain => entry.corrections.inputGain?.map .gain
  | offsetI => (entry.corrections.mixer?.bind MixerCorrection.offsetI?).map .offset
  | offsetQ => (entry.corrections.mixer?.bind MixerCorrection.offsetQ?).map .offset

/-- the port-clocks of a channel that ask for the setting, with the value that each asks for -/
def requests (k : SharedSetting) (channel : CompiledChannel) : List (PortClock × Shared) :=
  asked (k.value? channel.direction) channel.portClocks

end SharedSetting

/-- the port-clocks of a channel ask for these values of a setting that it has, and they are not all the same -/
structure Conflicts (channel : CompiledChannel) (k : SharedSetting) (setting : String)
    (values : List (PortClock × Shared)) : Prop where
  isOn : k.isOn channel = true
  name : setting = k.name
  requests : values = k.requests channel
  disagree : ¬ Unanimous values

section Agreed

variable {α : Type} {same : α → α → Bool} {shared : α → Shared} {value? : CompiledPortClock → Option α} {a? : Option α}
  {k : SharedSetting}

theorem asked_map : asked (fun entry => (value? entry).map shared) entries =
    (asked value? entries).map fun v => (v.1, shared v.2) := by
  simp only [asked, List.map_filterMap, Option.map_map]
  rfl

theorem head?_asked : (asked value? entries).head?.map Prod.snd = entries.findSome? value? := by
  simp [asked, List.head?_filterMap, List.map_findSome?, Function.comp_def]

/-- how a setting is checked on a channel -/
structure Checks (k : SharedSetting) (channel : CompiledChannel) (setting : String) (same : α → α → Bool)
    (shared : α → Shared) (value? : CompiledPortClock → Option α) : Prop where
  name : setting = k.name
  same : ∀ a b, same a b = (shared a).same (shared b)
  value : ∀ entry, k.value? channel.direction entry = (value? entry).map shared

theorem checks_attenuation : Checks .attenuation channel "attenuation" (· == ·) .attenuation
    (requestedAtt? channel.direction) :=
  ⟨rfl, fun _ _ => rfl, fun _ => rfl⟩

theorem checks_inputGain : Checks .inputGain channel "input_gain" (· == ·) .gain
    (fun entry => entry.corrections.inputGain?) :=
  ⟨rfl, fun _ _ => rfl, fun _ => rfl⟩

theorem checks_offsetI : Checks .offsetI channel "dc_offset_i" Double.same .offset
    (fun entry => entry.corrections.mixer?.bind MixerCorrection.offsetI?) :=
  ⟨rfl, fun _ _ => rfl, fun _ => rfl⟩

theorem checks_offsetQ : Checks .offsetQ channel "dc_offset_q" Double.same .offset
    (fun entry => entry.corrections.mixer?.bind MixerCorrection.offsetQ?) :=
  ⟨rfl, fun _ _ => rfl, fun _ => rfl⟩

namespace Checks

variable (h : Checks k channel setting same shared value?)

include h

theorem requests_eq : k.requests channel = (asked value? channel.portClocks).map fun v => (v.1, shared v.2) := by
  rw [← asked_map, SharedSetting.requests, funext h.value]

theorem requests_eq_nil_iff : k.requests channel = [] ↔ channel.portClocks.findSome? value? = none := by
  rw [h.requests_eq, List.map_eq_nil_iff, ← head?_asked, Option.map_eq_none_iff, List.head?_eq_none_iff]

/-- **The check of a setting.** All values are held against the first, which tells whether they are the same. -/
theorem agreed_eq : agreed path setting same shared value? channel.portClocks =
    if Unanimous (k.requests channel) then .ok (channel.portClocks.findSome? value?)
    else .error (.conflicting path setting (k.requests channel)) := by
  rw [h.requests_eq, ← head?_asked]
  unfold agreed
  rw [← asked]
  cases asked value? channel.portClocks with
  | nil => simp [Unanimous]
  | cons first rest =>
    have hall : ((first :: rest).all fun v => same v.2 first.2) = true ↔
        Unanimous ((first :: rest).map fun v => (v.1, shared v.2)) := by
      simp only [List.all_eq_true, h.same, Unanimous, List.forall_mem_map]
      constructor
      · intro hfirst v hv w hw
        exact Shared.same_through (hfirst v hv) (Shared.same_symm (hfirst w hw))
      · intro hall v hv
        exact hall v hv first List.mem_cons_self
    simp only [hall, List.head?_cons, Option.map_some]

theorem agreed_eq_ok_iff : agreed path setting same shared value? channel.portClocks = .ok a? ↔
    Unanimous (k.requests channel) ∧ a? = channel.portClocks.findSome? value? := by
  rw [h.agreed_eq]
  split <;> simp_all [eq_comm]

theorem conflicts_of_agreed {path' : ChannelPath} {setting' : String} (hon : k.isOn channel = true)
    (hfault : agreed path setting same shared value? channel.portClocks =
      .error (.conflicting path' setting' values)) :
    path' = path ∧ ∃ k, Conflicts channel k setting' values := by
  rw [h.agreed_eq] at hfault
  split at hfault
  · cases hfault
  · rename_i hdisagree
    cases hfault
    exact ⟨rfl, k, hon, h.name, rfl, hdisagree⟩

end Checks

end Agreed

/-! ## What the names of channels tell -/

/-- the number, the direction and the kind that the steps of a channel read off its name are its own -/
structure Named (index : Nat) (q : ChannelPath × CompiledChannel) : Prop where
  number : ioIndex? q.1.name = some index
  direction : directionOf q.1.name = q.2.direction
  gain : isOutput q.1.name = !SharedSetting.inputGain.isOn q.2
  offsets : (isOutput q.1.name && (Text.dropStart? "complex" q.1.name).isSome) = SharedSetting.offsetI.isOn q.2
  /-- all channels of an RF unit have the number of an attenuator, the markers too -/
  attenuator : isRf q.2.unitType = true → Attenuator.at? q.2.direction index ≠ none

theorem offsets_slot : ∀ type ∈ Backend.qblox.unitTypes, ∀ slot ∈ type.channels,
    (isOutput slot.name && (Text.dropStart? "complex" slot.name).isSome) =
      decide (slot.direction = .output ∧ slot.kind? = some .complex) := by
  decide

theorem at?_slot : ∀ type ∈ Backend.qblox.unitTypes, type.hasOscillator = true → ∀ slot ∈ type.channels,
    ((ioIndex? slot.name).bind (Attenuator.at? slot.direction)) ≠ none := by
  decide

theorem exists_named (hc : Compiled config p warnings m) (hbackend : m.backend = .qblox) (hq : q ∈ m.channels) :
    ∃ index, Named index q := by
  obtain ⟨u, slot, hprovided⟩ := hc.exists_provided hbackend hq
  obtain ⟨unit, slot', hplaced⟩ := hc.exists_placed hq
  rw [hbackend] at hplaced
  obtain ⟨index, hindex⟩ := exists_ioIndex_of_placed hplaced
  refine ⟨index, hindex, directionOf_eq hc hbackend hq, ?_, ?_, fun hrf => ?_⟩
  · rw [hprovided.isOutput_eq]
    unfold SharedSetting.isOn
    cases q.2.direction <;> rfl
  · rw [hprovided.name_eq, offsets_slot u.type hprovided.type_mem slot hprovided.known, hprovided.kind_eq,
      ← hprovided.direction]
    simp only [SharedSetting.isOn, Option.some.injEq]
  · rw [isRf, hprovided.unitType?_eq, Option.any_some] at hrf
    have hthere := at?_slot u.type hprovided.type_mem hrf slot hprovided.known
    rwa [← hprovided.name_eq, hindex, Option.bind_some, ← hprovided.direction] at hthere

/-! ## The steps of a channel -/

section Steps

variable (hnamed : Named index q)

include hnamed

theorem exists_applyAttenuation_iff (ms : ModuleSettings) :
    (∃ ms', applyAttenuation q.1 index q.2 ms = .ok ms') ↔
      Unanimous (SharedSetting.attenuation.requests q.2) ∧
        (SharedSetting.attenuation.requests q.2 ≠ [] → isRf q.2.unitType = true) := by
  rw [applyAttenuation_eq, hnamed.direction, Ne, checks_attenuation.requests_eq_nil_iff, checks_attenuation.agreed_eq]
  by_cases hsame : Unanimous (SharedSetting.attenuation.requests q.2)
  · rw [if_pos hsame, Except.bind]
    cases q.2.portClocks.findSome? (requestedAtt? q.2.direction) with
    | none => simp [hsame]
    | some v =>
      cases hrf : isRf q.2.unitType with
      | false => simp
      | true =>
        obtain ⟨a, ha⟩ := Option.ne_none_iff_exists'.1 (hnamed.attenuator hrf)
        simp [hsame, ha]
  · simp [hsame, Except.bind]

theorem conflicts_of_applyAttenuation {path' : ChannelPath}
    (h : applyAttenuation q.1 index q.2 ms = .error (.conflicting path' setting values)) :
    path' = q.1 ∧ ∃ k, Conflicts q.2 k setting values := by
  rw [applyAttenuation_eq, hnamed.direction] at h
  rcases bind_eq_error_iff.1 h with h | ⟨attenuation?, -, h⟩
  · exact checks_attenuation.conflicts_of_agreed rfl h
  · split at h
    · cases h
    · split at h <;> cases h

theorem exists_applyGain_iff (ms : ModuleSettings) :
    (∃ ms', applyGain q.1 index q.2 ms = .ok ms') ↔
      (SharedSetting.inputGain.isOn q.2 = true → Unanimous (SharedSetting.inputGain.requests q.2)) := by
  rw [applyGain, hnamed.gain]
  cases SharedSetting.inputGain.isOn q.2 with
  | false => simp
  | true =>
    simp only [Bool.not_true, Bool.false_eq_true, if_false, bind_eq_ok_iff, checks_inputGain.agreed_eq_ok_iff,
      forall_const]
    constructor
    · rintro ⟨ms', gain?, ⟨hsame, -⟩, -⟩
      exact hsame
    · intro hsame
      simp only [hsame, true_and, exists_eq_left]
      split
      · exact ⟨_, rfl⟩
      · exact ⟨_, rfl⟩
      · split <;> exact ⟨_, rfl⟩

theorem conflicts_of_applyGain {path' : ChannelPath}
    (h : applyGain q.1 index q.2 ms = .error (.conflicting path' setting values)) :
    path' = q.1 ∧ ∃ k, Conflicts q.2 k setting values := by
  rw [applyGain, hnamed.gain] at h
  cases hon : SharedSetting.inputGain.isOn q.2 with
  | false =>
    rw [hon] at h
    cases h
  | true =>
    rw [hon] at h
    rcases bind_eq_error_iff.1 h with h | ⟨gain?, -, h⟩
    · exact checks_inputGain.conflicts_of_agreed hon h
    · split at h
      · cases h
      · cases h
      · split at h <;> cases h

theorem exists_applyOffsets_iff (ms : ModuleSettings) :
    (∃ ms', applyOffsets q.1 index q.2 ms = .ok ms') ↔
      (SharedSetting.offsetI.isOn q.2 = true → Unanimous (SharedSetting.offsetI.requests q.2)) ∧
        (SharedSetting.offsetQ.isOn q.2 = true → Unanimous (SharedSetting.offsetQ.requests q.2)) := by
  have hboth : SharedSetting.offsetQ.isOn q.2 = SharedSetting.offsetI.isOn q.2 := rfl
  rw [applyOffsets, hnamed.offsets, hboth]
  cases SharedSetting.offsetI.isOn q.2 with
  | false => simp
  | true =>
    simp only [if_true, bind_eq_ok_iff, checks_offsetI.agreed_eq_ok_iff, checks_offsetQ.agreed_eq_ok_iff, forall_const]
    constructor
    · rintro ⟨ms', offsetI?, ⟨hsameI, -⟩, offsetQ?, ⟨hsameQ, -⟩, -⟩
      exact ⟨hsameI, hsameQ⟩
    · rintro ⟨hsameI, hsameQ⟩
      simp only [hsameI, hsameQ, true_and, exists_eq_left]
      split <;> exact ⟨_, rfl⟩

theorem conflicts_of_applyOffsets {path' : ChannelPath}
    (h : applyOffsets q.1 index q.2 ms = .error (.conflicting path' setting values)) :
    path' = q.1 ∧ ∃ k, Conflicts q.2 k setting values := by
  rw [applyOffsets, hnamed.offsets] at h
  cases hon : SharedSetting.offsetI.isOn q.2 with
  | false =>
    rw [hon] at h
    cases h
  | true =>
    rw [hon] at h
    rcases bind_eq_error_iff.1 h with h | ⟨offsetI?, -, h⟩
    · exact checks_offsetI.conflicts_of_agreed hon h
    · rcases bind_eq_error_iff.1 h with h | ⟨offsetQ?, -, h⟩
      · exact checks_offsetQ.conflicts_of_agreed hon h
      · split at h <;> cases h

end Steps

/-- the mixer correction of a port-clock is one that a sequencer takes -/
structure MixerInRange (entry : CompiledPortClock) : Prop where
  ratio : ∀ x, entry.corrections.mixer?.bind MixerCorrection.ampRatio? = some x →
    x.within half (Double.ofInt 2) = true
  phase : ∀ x, entry.corrections.mixer?.bind MixerCorrection.phaseError? = some x →
    x.within (Double.ofInt (-45)) (Double.ofInt 45) = true

/-- a value that is not given is not out of range -/
theorem exists_inRange_getD_iff {pc : PortClock} {low high start : Double} {x? : Option Double}
    (hstart : start.within low high = true) :
    (∃ x, inRange setting pc low high (x?.getD start) = .ok x) ↔ ∀ x, x? = some x → x.within low high = true := by
  simp only [inRange_eq_ok_iff]
  cases x? <;> simp [hstart]

theorem exists_sequencer_iff (index : Nat) (ioName : String) :
    (∃ made, sequencer index ioName entry = .ok made) ↔ MixerInRange entry := by
  have hratio : (entry.corrections.mixer?.getD .none).ampRatio? =
      entry.corrections.mixer?.bind MixerCorrection.ampRatio? := by
    cases entry.corrections.mixer? <;> rfl
  have hphase : (entry.corrections.mixer?.getD .none).phaseError? =
      entry.corrections.mixer?.bind MixerCorrection.phaseError? := by
    cases entry.corrections.mixer? <;> rfl
  have hone : (Double.ofInt 1).within half (Double.ofInt 2) = true := by decide +kernel
  have hzero : Double.zero.within (Double.ofInt (-45)) (Double.ofInt 45) = true := by decide +kernel
  unfold sequencer
  simp only [hratio, hphase, bind_eq_ok_iff, pure_eq_ok]
  constructor
  · rintro ⟨made, gainRatio, hgain, phaseOffset, hoffset, -⟩
    exact ⟨(exists_inRange_getD_iff hone).1 ⟨gainRatio, hgain⟩,
      (exists_inRange_getD_iff hzero).1 ⟨phaseOffset, hoffset⟩⟩
  · intro h
    obtain ⟨gainRatio, hgain⟩ := (exists_inRange_getD_iff hone).2 h.ratio
    obtain ⟨phaseOffset, hoffset⟩ := (exists_inRange_getD_iff hzero).2 h.phase
    exact ⟨_, gainRatio, hgain, phaseOffset, hoffset, rfl⟩

theorem exists_addSequencer_iff (ioName : String) (ms : ModuleSettings) :
    (∃ ms', addSequencer ioName ms entry = .ok ms') ↔ MixerInRange entry := by
  rw [← exists_sequencer_iff ms.sequencers.length ioName]
  unfold addSequencer
  simp only [bind_eq_ok_iff, pure_eq_ok]
  constructor
  · rintro ⟨ms', made, hmade, -⟩
    exact ⟨made, hmade⟩
  · rintro ⟨made, hmade⟩
    exact ⟨_, made, hmade, rfl⟩

theorem exists_addSequencers_iff (ioName : String) (ms : ModuleSettings) :
    (∃ ms', entries.foldlM (addSequencer ioName) ms = .ok ms') ↔ ∀ entry ∈ entries, MixerInRange entry :=
  exists_foldlM_iff fun _ _ ms => exists_addSequencer_iff ioName ms

/-! ## A channel -/

/-- the port-clocks of a channel ask for nothing that cannot be set -/
structure Consistent (channel : CompiledChannel) : Prop where
  agreed : ∀ k : SharedSetting, k.isOn channel = true → Unanimous (k.requests channel)
  attenuator : SharedSetting.attenuation.requests channel ≠ [] → isRf channel.unitType = true
  inRange : ∀ entry ∈ channel.portClocks, MixerInRange entry

/-- **A channel** is taken or refused whatever its module holds. -/
theorem exists_applyChannel_iff (hnamed : Named index q) (ms : ModuleSettings) :
    (∃ ms', applyChannel q.1 q.2 ms = .ok ms') ↔ Consistent q.2 := by
  simp only [applyChannel_eq_ok_iff]
  constructor
  · rintro ⟨ms', index', m₁, m₂, m₃, hindex, h₁, h₂, h₃, h⟩
    obtain rfl : index = index' := Option.some.inj (hnamed.number.symm.trans hindex)
    obtain ⟨hattenuation, hthere⟩ := (exists_applyAttenuation_iff hnamed _).1 ⟨m₁, h₁⟩
    have hgain := (exists_applyGain_iff hnamed m₁).1 ⟨m₂, h₂⟩
    obtain ⟨hoffsetI, hoffsetQ⟩ := (exists_applyOffsets_iff hnamed m₂).1 ⟨m₃, h₃⟩
    refine ⟨fun k hon => ?_, hthere, (exists_addSequencers_iff q.1.name m₃).1 ⟨ms', h⟩⟩
    cases k with
    | attenuation => exact hattenuation
    | inputGain => exact hgain hon
    | offsetI => exact hoffsetI hon
    | offsetQ => exact hoffsetQ hon
  · intro h
    obtain ⟨m₁, h₁⟩ := (exists_applyAttenuation_iff hnamed (applyOscillator q.2 ms)).2
      ⟨h.agreed .attenuation rfl, h.attenuator⟩
    obtain ⟨m₂, h₂⟩ := (exists_applyGain_iff hnamed m₁).2 (h.agreed .inputGain)
    obtain ⟨m₃, h₃⟩ := (exists_applyOffsets_iff hnamed m₂).2 ⟨h.agreed .offsetI, h.agreed .offsetQ⟩
    obtain ⟨ms', h₄⟩ := (exists_addSequencers_iff q.1.name m₃).2 h.inRange
    exact ⟨ms', index, m₁, m₂, m₃, hnamed.number, h₁, h₂, h₃, h₄⟩

/-- **Conflicts of a channel.** -/
theorem conflicts_of_applyChannel (hnamed : Named index q)
    (h : applyChannel q.1 q.2 ms = .error (.conflicting path setting values)) :
    path = q.1 ∧ ∃ k, Conflicts q.2 k setting values := by
  rw [applyChannel, hnamed.number] at h
  simp only at h
  rcases bind_eq_error_iff.1 h with h | ⟨m₁, -, h⟩
  · exact conflicts_of_applyAttenuation hnamed h
  · rcases bind_eq_error_iff.1 h with h | ⟨m₂, -, h⟩
    · exact conflicts_of_applyGain hnamed h
    · rcases bind_eq_error_iff.1 h with h | ⟨m₃, -, h⟩
      · exact conflicts_of_applyOffsets hnamed h
      · obtain ⟨entry, -, x, hx⟩ := exists_of_foldlM_eq_error h
        rcases bind_eq_error_iff.1 hx with hx | ⟨made, -, hx⟩
        · obtain ⟨_, _, _, _, -, hfault⟩ := sequencer_eq_error hx
          cases hfault
        · cases hx

/-! ## A map -/

/-- no channel asks for what cannot be set, and no unit for more sequencers than it has -/
structure Settable (m : CompiledMap) : Prop where
  channels : ∀ q ∈ m.channels, Consistent q.2
  sequencers : ∀ q ∈ m.channels, ∀ unit, q.1.parent? = some unit →
    (unitEntries m.channels unit).length ≤ sequencerCount q.2.unitType

section Compiled

variable (hc : Compiled config p warnings m) (hbackend : m.backend = .qblox)

include hc hbackend

theorem exists_modules_iff :
    (∃ modules, m.channels.foldlM addChannel [] = .ok modules) ↔ ∀ q ∈ m.channels, Consistent q.2 := by
  refine exists_foldlM_iff fun q hq modules => ?_
  obtain ⟨index, hnamed⟩ := exists_named hc hbackend hq
  obtain ⟨u, slot, hprovided⟩ := hc.exists_provided hbackend hq
  rw [← exists_applyChannel_iff hnamed ((modules.lookup? u.path).getD { unitType := q.2.unitType })]
  simp only [addChannel_eq_ok_iff, hprovided.parent?_eq, Option.some.injEq]
  constructor
  · rintro ⟨modules', unit, ms', rfl, happly, -⟩
    exact ⟨ms', happly⟩
  · rintro ⟨ms', happly⟩
    exact ⟨_, u.path, ms', rfl, happly, rfl⟩

theorem exists_generate_iff : (∃ s, generate m = .ok s) ↔ Settable m := by
  constructor
  · rintro ⟨s, hs⟩
    obtain ⟨-, hmodules, -, henough⟩ := generate_eq_ok_iff.1 hs
    refine ⟨(exists_modules_iff hc hbackend).1 ⟨s.modules, hmodules⟩, fun q hq unit hparent => ?_⟩
    obtain ⟨ms, hms⟩ := exists_module hmodules hq hparent
    rw [← length_sequencers hmodules hms, ← sequencerCount_eq hc hbackend hmodules hms hq]
    exact henough (unit, ms) (Table.mem_of_lookup? hms)
  · intro h
    obtain ⟨modules, hmodules⟩ := (exists_modules_iff hc hbackend).2 h.channels
    refine ⟨⟨modules, OscillatorSettings.ofMap m⟩, generate_eq_ok_iff.2 ⟨hbackend, hmodules, rfl, ?_⟩⟩
    rintro ⟨unit, ms⟩ hin
    have hms : modules.lookup? unit = some ms :=
      Table.lookup?_of_mem (loaded_of_modules hc hbackend hmodules).ascending.nodup_keys hin
    obtain ⟨q, hq, hparent, htype⟩ := exists_unitType_of_modules hmodules hms
    rw [length_sequencers hmodules hms, htype]
    exact h.sequencers q hq unit hparent

theorem conflicts_of_generate (h : generate m = .error (.conflicting path setting values)) :
    ∃ q ∈ m.channels, q.1 = path ∧ ∃ k, Conflicts q.2 k setting values := by
  rw [generate_eq hbackend] at h
  rcases bind_eq_error_iff.1 h with h | ⟨modules, -, h⟩
  · obtain ⟨q, hq, modules, hadd⟩ := exists_of_foldlM_eq_error h
    obtain ⟨index, hnamed⟩ := exists_named hc hbackend hq
    obtain ⟨u, slot, hprovided⟩ := hc.exists_provided hbackend hq
    obtain ⟨path', channel⟩ := q
    rw [addChannel, hprovided.parent?_eq] at hadd
    rcases bind_eq_error_iff.1 hadd with hadd | ⟨ms', -, hadd⟩
    · obtain ⟨rfl, hconflicts⟩ := conflicts_of_applyChannel hnamed hadd
      exact ⟨(path, channel), hq, rfl, hconflicts⟩
    · cases hadd
  · rcases bind_eq_error_iff.1 h with h | ⟨checked, -, h⟩
    · obtain ⟨x, -, hcheck⟩ := exists_of_mapM_eq_error h
      cases (checkSequencers_eq_error hcheck).2
    · cases h

end Compiled

/-- **Acceptance.** Settings are made of a map iff no channel asks for what cannot be set and no unit for more
sequencers than it has. A conflict is reported with all port-clocks of a channel that ask for the setting, in document
order. -/
theorem compile_acceptance (h : compile config settings = .ok m) (hbackend : m.backend = .qblox) :
    ((∃ s, generate m = .ok s) ↔ Settable m) ∧
      ∀ path setting values, generate m = .error (.conflicting path setting values) →
        ∃ q ∈ m.channels, q.1 = path ∧ (∃ k, Conflicts q.2 k setting values) ∧
          q.2.portClocks.map CompiledPortClock.portClock =
            (config.connectivity.edges.filter (·.channel = path)).map Edge.portClock := by
  obtain ⟨p, warnings, hc⟩ := compile_compiled h
  refine ⟨exists_generate_iff hc hbackend, fun path setting values hfault => ?_⟩
  obtain ⟨q, hq, rfl, hconflicts⟩ := conflicts_of_generate hc hbackend hfault
  exact ⟨q, hq, rfl, hconflicts, portClocks_eq hc hq⟩

/-- two port-clocks on the first output of an RF module, with these attenuations -/
def attenuatedConfig (first second : Nat) : Config where
  backend := "qblox"
  description := [("cluster0", { (default : InstrumentDescription) with
    type := "Cluster", modules? := some [("1", ⟨"QCM_RF", []⟩)] })]
  options? := some { outputAtt? := some [("q0:mw-q0.01", first), ("q1:mw-q1.01", second)] }
  connectivity := .paths [("cluster0.module1", .obj [
    ("complex_output_0", .obj [("portclock_configs", .arr [
      .obj [("port", .str "q1:mw"), ("clock", .str "q1.01")],
      .obj [("port", .str "q0:mw"), ("clock", .str "q0.01")]])])])]

/-- the attenuations are set if they are the same, and else reported in the order of the connectivity -/
theorem attenuatedConfig_accepted :
    (∃ m s, compile (attenuatedConfig 10 10) {} = .ok m ∧ m.backend = .qblox ∧ generate m = .ok s ∧ Settable m) ∧
      ∃ m q k, compile (attenuatedConfig 10 20) {} = .ok m ∧ m.backend = .qblox ∧ q ∈ m.channels ∧
        generate m = .error (.conflicting (.ofSegments ["cluster0.module1", "complex_output_0"]) "attenuation"
          [(⟨"q1:mw", "q1.01"⟩, .attenuation 20), (⟨"q0:mw", "q0.01"⟩, .attenuation 10)]) ∧
        Conflicts q.2 k "attenuation"
          [(⟨"q1:mw", "q1.01"⟩, .attenuation 20), (⟨"q0:mw", "q0.01"⟩, .attenuation 10)] := by
  constructor
  · obtain ⟨m, hm, hmade⟩ := exists_eq_ok (x := compile (attenuatedConfig 10 10) {})
      (c := fun m => (generate m).toOption.isSome) (by decide +kernel)
    obtain ⟨s, hs⟩ := Option.isSome_iff_exists.1 hmade
    rw [toOption_eq_some_iff] at hs
    have hbackend : m.backend = .qblox := (generate_eq_ok hs).1
    exact ⟨m, s, hm, hbackend, hs, (compile_acceptance hm hbackend).1.1 ⟨s, hs⟩⟩
  · obtain ⟨m, hm, hrefused⟩ := exists_eq_ok (x := compile (attenuatedConfig 10 20) {})
      (c := fun m => match generate m with
        | .error (.conflicting path setting values) =>
          m.backend = .qblox ∧ path = .ofSegments ["cluster0.module1", "complex_output_0"] ∧ setting = "attenuation" ∧
            values = [(⟨"q1:mw", "q1.01"⟩, .attenuation 20), (⟨"q0:mw", "q0.01"⟩, .attenuation 10)]
        | _ => false)
      (by decide +kernel)
    split at hrefused
    · rename_i path setting values hfault
      obtain ⟨hbackend, rfl, rfl, rfl⟩ := of_decide_eq_true hrefused
      obtain ⟨q, hq, -, ⟨k, hconflicts⟩, -⟩ := (compile_acceptance hm hbackend).2 _ _ _ hfault
      exact ⟨m, q, k, hm, hbackend, hq, hfault, hconflicts⟩
    · cases hrefused

end Qblox

end RackMap.Instrument
