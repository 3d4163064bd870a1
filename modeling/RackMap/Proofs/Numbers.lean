/-
The numbers of a compiled map.

A number that is infinite or undefined has no JSON form and is written as `null`, as if it were left out. No such number
is on a compiled map: those of the options and the description are checked when these are read, and no number on the map
is from elsewhere. `numbers` lists all floating numbers of a value.
- `OptionKind.allFinite_numbers`: the checks of a category are about every number of its values;
- `Inventory.power_isFinite`, `Inventory.downconverter_isFinite`: so are the checks of a description;
- `Compiled.allFinite_numbers`: the numbers of a compiled map are finite;
- `Compiled.argumentNumbers_subset`: the arguments of filters are trees of their own, which are passed on as they are.
-/
import Mathlib.Tactic
import RackMap.Proofs.Instrument.Placed
import RackMap.Proofs.Inventory.Hiding
import RackMap.Proofs.Json.Numbers

namespace RackMap

open RackMap.Decimal (Double)

/-! ## Options -/

namespace Modulation

def numbers (m : Modulation) : List Double := m.interm?.toList ++ m.lo?.toList

end Modulation

namespace MixerCorrection

def numbers (m : MixerCorrection) : List Double :=
  m.ampRatio?.toList ++ m.phaseError?.toList ++ m.offsetI?.toList ++ m.offsetQ?.toList

end MixerCorrection

namespace Distortion

/-- the clipping values; the arguments of the filter are a matter of their own -/
def numbers (d : Distortion) : List Double := (d.clipping?.map Prod.fst).toList ++ (d.clipping?.map Prod.snd).toList

def argumentNumbers (d : Distortion) : List Double := Json.memberNumbers d.kwargs

end Distortion

namespace SequencerOptions

def numbers (o : SequencerOptions) : List Double := o.bounded.flatMap (fun p => p.2.toList) ++ o.threshold?.toList

/-- the offsets and gains lie in [-1, 1] -/
def InBounds (o : SequencerOptions) : Prop :=
  ∀ p ∈ o.bounded, ∀ x, p.2 = some x → x.within (Double.ofInt (-1)) (Double.ofInt 1) = true

end SequencerOptions

/-- the floating numbers of a value of some kind -/
def OptionKind.numbers : (kind : OptionKind) → kind.Value → List Double
  | latency, (value : Double) => [value]
  | distortion, (value : Distortion) => value.numbers
  | modulation, (value : Modulation) => value.numbers
  | mixer, (value : MixerCorrection) => value.numbers
  | outputGain, (value : OutputGain) => [value.gainI, value.gainQ]
  | sequencer, (value : SequencerOptions) => value.numbers
  | outputAtt, _ | inputAtt, _ | inputGain, _ => []

namespace OptionCategory

variable {field : String} {x? : Option Double}

theorem finiteCauses_eq_nil_iff : finiteCauses field x? = [] ↔ AllFinite x?.toList := by
  simp [finiteCauses, AllFinite]

theorem boundCauses_eq_nil_iff :
    boundCauses field x? = [] ↔ ∀ x, x? = some x → x.within (Double.ofInt (-1)) (Double.ofInt 1) = true := by
  simp [boundCauses]

end OptionCategory

/-- the checks of a category bound the initial values of a sequencer -/
theorem SequencerOptions.inBounds_of_causes {o : SequencerOptions} (h : OptionCategory.sequencer.causes o = []) :
    o.InBounds := by
  obtain ⟨hbounded, -⟩ := List.append_eq_nil_iff.1 h
  intro p hp
  exact OptionCategory.boundCauses_eq_nil_iff.1 (List.flatMap_eq_nil_iff.1 hbounded p hp)

/-- **Checks of options.** They are about every number of a value. -/
theorem OptionKind.allFinite_numbers {kind : OptionKind} {value : kind.Value} (h : kind.category.causes value = []) :
    AllFinite (kind.numbers value) := by
  cases kind with
  | latency => exact OptionCategory.finiteCauses_eq_nil_iff.1 h
  | distortion =>
    obtain ⟨hlow, hhigh⟩ := List.append_eq_nil_iff.1 h
    exact allFinite_append.2
      ⟨OptionCategory.finiteCauses_eq_nil_iff.1 hlow, OptionCategory.finiteCauses_eq_nil_iff.1 hhigh⟩
  | modulation =>
    obtain ⟨hinterm, hlo⟩ := List.append_eq_nil_iff.1 h
    exact allFinite_append.2
      ⟨OptionCategory.finiteCauses_eq_nil_iff.1 hinterm, OptionCategory.finiteCauses_eq_nil_iff.1 hlo⟩
  | mixer =>
    obtain ⟨h, hoffsetQ⟩ := List.append_eq_nil_iff.1 h
    obtain ⟨h, hoffsetI⟩ := List.append_eq_nil_iff.1 h
    obtain ⟨hratio, hphase⟩ := List.append_eq_nil_iff.1 h
    rw [OptionCategory.finiteCauses_eq_nil_iff] at hratio hphase hoffsetI hoffsetQ
    exact allFinite_append.2 ⟨allFinite_append.2 ⟨allFinite_append.2 ⟨hratio, hphase⟩, hoffsetI⟩, hoffsetQ⟩
  | outputGain =>
    obtain ⟨hgainI, hgainQ⟩ := List.append_eq_nil_iff.1 h
    rw [OptionCategory.finiteCauses_eq_nil_iff] at hgainI hgainQ
    exact allFinite_append.2 ⟨hgainI, hgainQ⟩
  | sequencer =>
    obtain ⟨-, hthreshold⟩ := List.append_eq_nil_iff.1 h
    have hbounds := SequencerOptions.inBounds_of_causes h
    refine allFinite_append.2 ⟨allFinite_flatMap.2 fun p hp => ?_, OptionCategory.finiteCauses_eq_nil_iff.1 hthreshold⟩
    exact allFinite_toList.2 fun x hx => isFinite_of_unit (hbounds p hp x hx)
  | outputAtt => exact allFinite_nil
  | inputAtt => exact allFinite_nil
  | inputGain => exact allFinite_nil

namespace CorrectionSet

/-- the floating numbers of all values of a set -/
def numbers (set : CorrectionSet) : List Double :=
  OptionKind.all.flatMap fun kind => (kind.category.get set).toList.flatMap kind.numbers

theorem Checked.passes {set : CorrectionSet} (h : set.Checked) (kind : OptionKind) : kind.category.Passes set := by
  cases kind with
  | latency => exact h.latency
  | distortion => exact h.distortion
  | modulation => exact h.modulation
  | mixer => exact h.mixer
  | outputAtt => exact h.outputAtt
  | inputAtt => exact h.inputAtt
  | outputGain => exact h.outputGain
  | inputGain => exact h.inputGain
  | sequencer => exact h.sequencer

theorem Checked.allFinite_numbers {set : CorrectionSet} (h : set.Checked) : AllFinite set.numbers := by
  refine allFinite_flatMap.2 fun kind _ => allFinite_flatMap.2 fun value hvalue => ?_
  exact OptionKind.allFinite_numbers (h.passes kind value (Option.mem_toList.1 hvalue))

end CorrectionSet

/-! ## Descriptions -/

namespace Inventory

variable {backend : Backend} {description : HardwareDescription} {inv : Inventory} {path : ChannelPath} {ch : Channel}
  {name : String} {o : Oscillator} {x : Double}

/-- an oscillator of an inventory is one that the description declares -/
theorem exists_entry_of_oscillator? (h : build description backend = .ok inv) (ho : inv.oscillator? name = some o) :
    ∃ entry ∈ description, Sound backend entry ∧ oscillatorOf? entry = some o := by
  obtain ⟨hsound, -, rfl⟩ := build_eq_ok_iff.1 h
  rw [foldl_withEntry] at ho
  rcases Table.mem_of_lookup?_foldl_put ho with ⟨ho, -⟩ | ho
  · obtain ⟨entry, hentry, ho⟩ := List.mem_filterMap.1 ho
    exact ⟨entry, hentry, hsound entry hentry, ho⟩
  · cases ho

/-- **Checks of oscillators.** -/
theorem power_isFinite (h : build description backend = .ok inv) (ho : inv.oscillator? name = some o)
    (hx : o.power? = some x) : x.isFinite = true := by
  obtain ⟨entry, -, hsound, ho⟩ := exists_entry_of_oscillator? h ho
  unfold oscillatorOf? at ho
  split at ho
  · rename_i htype
    cases ho
    rw [Sound, if_pos htype, Draft.oscillatorCauses] at hsound
    obtain ⟨hcauses, -⟩ := List.append_eq_nil_iff.1 hsound
    obtain ⟨hpower, -⟩ := List.append_eq_nil_iff.1 hcauses
    simp only at hx
    simpa [hx] using hpower
  · cases ho

/-- a channel of an inventory is one of a unit that is described without a problem -/
theorem exists_unit_of_channel? (h : build description backend = .ok inv) (hch : inv.channel? path = some ch) :
    ∃ u ∈ declaredUnits backend description, u.described.1 = [] ∧ ch ∈ u.described.2 := by
  obtain ⟨hsound, -, rfl⟩ := build_eq_ok_iff.1 h
  rw [foldl_withEntry] at hch
  rcases Table.mem_of_lookup?_foldl_put hch with ⟨hch, -⟩ | hch
  · obtain ⟨u, hu, hch⟩ := List.mem_flatMap.1 hch
    exact ⟨u, hu, described_clean hsound hu, hch⟩
  · cases hch

/-- **Checks of channels.** -/
theorem downconverter_isFinite (h : build description backend = .ok inv) (hch : inv.channel? path = some ch)
    (hx : ch.downconverter? = some x) : x.isFinite = true := by
  obtain ⟨u, -, hclean, hch⟩ := exists_unit_of_channel? h hch
  obtain ⟨-, hslots⟩ := describeUnit_fst_eq_nil_iff.1 hclean
  rw [DeclaredUnit.described, describeUnit_snd] at hch
  obtain ⟨slot, hslot, hch⟩ := List.mem_filterMap.1 hch
  have hreport := hslots slot hslot
  unfold describeChannel at hreport hch
  simp only at hreport hch
  split at hch
  · cases hch
  · cases hch
  · rename_i kind hkind
    cases hch
    rw [hkind, Report.located_eq_nil_iff, descriptionCauses] at hreport
    obtain ⟨-, hfinite⟩ := List.append_eq_nil_iff.1 hreport
    simp only at hx
    simpa [hx] using hfinite

end Inventory

/-! ## Maps -/

def Split.numbers (s : Split) : List Double := s.interm?.toList ++ s.lo?.toList

def CompiledOscillator.numbers (o : CompiledOscillator) : List Double := o.frequency?.toList ++ o.power?.toList

def CompiledPortClock.numbers (entry : CompiledPortClock) : List Double :=
  entry.frequencies.numbers ++ entry.corrections.numbers

def CompiledChannel.numbers (c : CompiledChannel) : List Double :=
  c.oscillator?.toList.flatMap CompiledOscillator.numbers ++ c.downconverter?.toList ++
    c.portClocks.flatMap CompiledPortClock.numbers

/-- all floating numbers of a map, those in the arguments of filters apart -/
def CompiledMap.numbers (m : CompiledMap) : List Double := m.channels.flatMap fun q => q.2.numbers

def CompiledMap.argumentNumbers (m : CompiledMap) : List Double :=
  m.channels.flatMap fun q => q.2.portClocks.flatMap fun entry =>
    entry.corrections.distortion?.toList.flatMap Distortion.argumentNumbers

def HardwareOptions.argumentNumbers (options : HardwareOptions) : List Double :=
  (options.distortion?.getD []).flatMap fun p => p.2.argumentNumbers

variable {config : Config} {settings : Settings} {p : Parsed} {warnings : List String} {m : CompiledMap}
  {q : ChannelPath × CompiledChannel} {entry : CompiledPortClock} {lo : OscillatorRef} {x : Double}

namespace Compiled

/-- the frequency of an oscillator is one that a port-clock asks for -/
theorem frequency_isFinite (hc : Compiled config p warnings m) (hx : p.resolution.frequency? lo = some x) :
    x.isFinite = true := by
  rw [Parsed.resolution, Frequencies.frequency?_resolution] at hx
  obtain ⟨pc, hrequest⟩ := Frequencies.mem_requests_of_firstRequest? hx
  exact OptionTable.asksFinite_of_build hc.options pc x (Frequencies.mem_requests.1 hrequest).2

theorem allFinite_oscillator (hc : Compiled config p warnings m) (lo : OscillatorRef) :
    AllFinite (Compile.oscillator p.inventory p.resolution lo).numbers := by
  refine allFinite_append.2 ⟨allFinite_toList.2 fun x hx => hc.frequency_isFinite hx, allFinite_toList.2 fun x hx => ?_⟩
  cases lo with
  | external name =>
    obtain ⟨o, ho, hx⟩ := Option.bind_eq_some_iff.1 hx
    exact Inventory.power_isFinite hc.inventory ho hx
  | integrated => cases hx

/-- an entry has the frequencies and the options of its port-clock -/
theorem entry_eq_of_mem (hc : Compiled config p warnings m) (hq : q ∈ m.channels) (hentry : entry ∈ q.2.portClocks) :
    ∃ e ∈ p.wiring.edges, entry = Compile.entry p.options p.resolution e.portClock := by
  rw [Compile.portClocks_of_mem hc.map hq] at hentry
  obtain ⟨pc, hpc, rfl⟩ := List.mem_map.1 hentry
  obtain ⟨e, he, -, rfl⟩ := Compile.mem_portClocksOn.1 hpc
  exact ⟨e, he, rfl⟩

/-- the frequencies of a port-clock are some that it or another one asks for -/
theorem allFinite_split (hc : Compiled config p warnings m) {e : Edge} (he : e ∈ p.wiring.edges) :
    AllFinite (p.resolution.split e.portClock).numbers := by
  cases ht : e.isTuned p.inventory with
  | false =>
    rw [Parsed.resolution, Frequencies.split_resolution_untuned p.wiring.distinct he ht]
    exact allFinite_nil
  | true =>
    rw [Parsed.resolution, Frequencies.split_resolution p.wiring.distinct he ht]
    refine allFinite_append.2 ⟨allFinite_toList.2 fun x hx => ?_, allFinite_toList.2 fun x hx => ?_⟩
    · exact OptionTable.modulation_isFinite hc.options (Or.inl hx)
    · rcases Option.or_eq_some_iff.1 hx with hx | ⟨-, hx⟩
      · exact OptionTable.modulation_isFinite hc.options (Or.inr hx)
      · obtain ⟨lo, -, hx⟩ := Option.bind_eq_some_iff.1 hx
        rw [← Frequencies.frequency?_resolution] at hx
        exact hc.frequency_isFinite hx

theorem allFinite_entry (hc : Compiled config p warnings m) (hq : q ∈ m.channels) (hentry : entry ∈ q.2.portClocks) :
    AllFinite entry.numbers := by
  obtain ⟨e, he, rfl⟩ := hc.entry_eq_of_mem hq hentry
  exact allFinite_append.2
    ⟨hc.allFinite_split he, (OptionTable.build_checked hc.options e.portClock).allFinite_numbers⟩

/-- **Numbers of a map.** -/
theorem allFinite_numbers (hc : Compiled config p warnings m) : AllFinite m.numbers := by
  refine allFinite_flatMap.2 fun q hq => ?_
  obtain ⟨e, -, -, hoscillator⟩ := hc.exists_edge_of_mem hq
  obtain ⟨-, described, hdescribed, hchannel⟩ := (Compile.channel?_eq_some_iff hc.map).1 (hc.channel?_of_mem hq)
  refine allFinite_append.2 ⟨allFinite_append.2 ⟨allFinite_flatMap.2 fun o ho => ?_, allFinite_toList.2 fun x hx => ?_⟩,
    allFinite_flatMap.2 fun entry hentry => hc.allFinite_entry hq hentry⟩
  · rw [Option.mem_toList, hoscillator] at ho
    obtain ⟨lo, -, rfl⟩ := Option.map_eq_some_iff.1 ho
    exact hc.allFinite_oscillator lo
  · rw [hchannel] at hx
    exact Inventory.downconverter_isFinite hc.inventory hdescribed hx

/-- the initial values of sequencers are within their bounds -/
theorem inBounds (hc : Compiled config p warnings m) (hq : q ∈ m.channels) (hentry : entry ∈ q.2.portClocks)
    {o : SequencerOptions} (ho : entry.corrections.sequencer? = some o) : o.InBounds := by
  obtain ⟨e, -, rfl⟩ := hc.entry_eq_of_mem hq hentry
  exact SequencerOptions.inBounds_of_causes ((OptionTable.build_checked hc.options e.portClock).sequencer o ho)

/-- **Arguments of filters.** Those on a map are given in the options. -/
theorem argumentNumbers_subset (hc : Compiled config p warnings m) :
    m.argumentNumbers ⊆ (Parsed.optionsOf config).argumentNumbers := by
  intro x hx
  obtain ⟨q, hq, hx⟩ := List.mem_flatMap.1 hx
  obtain ⟨entry, hentry, hx⟩ := List.mem_flatMap.1 hx
  obtain ⟨d, hd, hargument⟩ := List.mem_flatMap.1 hx
  rw [Option.mem_toList] at hd
  obtain ⟨e, -, rfl⟩ := hc.entry_eq_of_mem hq hentry
  have hget : OptionKind.distortion.category.get (p.options.corrections e.portClock) = some d := hd
  obtain ⟨key, hlisted, -⟩ := (OptionTable.get_corrections_iff hc.options).1 hget
  obtain ⟨given, hgiven, hin⟩ := HardwareOptions.mem_listed.1 hlisted
  rw [HardwareOptions.argumentNumbers, show (Parsed.optionsOf config).distortion? = some given from hgiven]
  exact List.mem_flatMap.2 ⟨(key, d), hin, hargument⟩

end Compiled

end RackMap
