/-
Gains of the inputs of a module.

A module has two inputs with a gain each. A real channel asks for the gain of its own input, a complex one for both. So
the channels of a module write the same two settings, while only port-clocks of one channel are held against each other:
where two channels ask for different gains of one input, the later one is taken without a word.
- `register_inGain?`: the gain of an input is what the last of the channels has written;
- `Gains` is what holds of all settings: port-clocks of one channel agree, and no gain is made up;
- `compile_gains`: every gain that is asked for is set iff no two port-clocks of a module ask for different ones;
- `readoutConfig_overwrites`: in a config where two do, one gain is overwritten.
-/
import Mathlib.Tactic
import RackMap.Proofs.Instrument.Provided
import RackMap.Proofs.Instrument.Registers

namespace RackMap

/-- what a gain on a channel with this index is for one of the inputs -/
def InputGain.at? (gain : InputGain) (index input : Nat) : Option Int :=
  match gain with
  | .real g => if input = index then some g else none
  | .complex gainI gainQ => if input = 0 then some gainI else if input = 1 then some gainQ else none

namespace Instrument

/-- the gain of an input -/
def ModuleSettings.inGain? (m : ModuleSettings) (input : Nat) : Option Int :=
  if input = 0 then m.in0Gain? else if input = 1 then m.in1Gain? else none

namespace Qblox

variable {config : Config} {settings : Settings} {p : Parsed} {warnings : List String} {m : CompiledMap}
  {s : QbloxSettings} {path : ChannelPath} {channel : CompiledChannel} {ms ms' : ModuleSettings} {index input : Nat}
  {q : ChannelPath × CompiledChannel} {unit : String} {g : Int}

/-! ## One channel -/

/-- the gain that a channel asks for, if its port-clocks agree -/
def channelGain? (channel : CompiledChannel) : Option InputGain :=
  channel.portClocks.findSome? fun entry => entry.corrections.inputGain?

/-- what a channel writes as the gain of an input -/
def writtenGain? (input : Nat) (q : ChannelPath × CompiledChannel) : Option Int :=
  if isOutput q.1.name then none
  else (ioIndex? q.1.name).bind fun index => (channelGain? q.2).bind fun gain => gain.at? index input

/-- the inputs of the catalogue are numbered 0 and 1 -/
theorem ioIndex_slot : ∀ type ∈ Backend.qblox.unitTypes, ∀ slot ∈ type.channels, slot.direction = .input →
    ∃ index < 2, ioIndex? slot.name = some index := by
  decide

theorem inGain?_of_applyGain (hinput : isOutput path.name = false) (hindex : index < 2)
    (h : applyGain path index channel ms = .ok ms') :
    ms'.inGain? input = ((channelGain? channel).bind fun gain => gain.at? index input).or (ms.inGain? input) := by
  rw [applyGain, hinput, if_neg Bool.false_ne_true] at h
  obtain ⟨gain?, hagreed, h⟩ := bind_eq_ok_iff.1 h
  obtain rfl : gain? = channelGain? channel := eq_findSome?_of_agreed hagreed
  cases hgain : channelGain? channel with
  | none =>
    rw [hgain] at h
    cases h
    rw [Option.bind_none, Option.none_or]
  | some gain =>
    rw [hgain] at h
    cases gain with
    | complex gainI gainQ =>
      cases h
      simp only [ModuleSettings.inGain?, InputGain.at?, Option.bind_some]
      split_ifs <;> rfl
    | real g =>
      simp only [ModuleSettings.inGain?, InputGain.at?, Option.bind_some]
      obtain rfl | rfl : index = 0 ∨ index = 1 := by omega
      · cases h
        split_ifs <;> rfl
      · cases h
        split_ifs with h0 h1
        · omega
        · rfl
        · rfl
        · rfl

/-- a gain that a port-clock asks for is that of its channel -/
theorem channelGain?_of_applyGain {entry : CompiledPortClock} {gain : InputGain} (hinput : isOutput path.name = false)
    (h : applyGain path index channel ms = .ok ms') (hentry : entry ∈ channel.portClocks)
    (hasked : entry.corrections.inputGain? = some gain) : channelGain? channel = some gain := by
  rw [applyGain, hinput, if_neg Bool.false_ne_true] at h
  obtain ⟨gain?, hagreed, -⟩ := bind_eq_ok_iff.1 h
  rw [channelGain?, ← eq_findSome?_of_agreed hagreed]
  exact (agreed_eq_ok_iff.1 hagreed gain).2 ⟨entry, hentry, hasked⟩

/-- a gain that a channel writes is one that a port-clock asks for -/
theorem exists_of_writtenGain? (h : writtenGain? input q = some g) :
    isOutput q.1.name = false ∧ ∃ entry ∈ q.2.portClocks, ∃ index, ioIndex? q.1.name = some index ∧
      ∃ gain, entry.corrections.inputGain? = some gain ∧ gain.at? index input = some g := by
  unfold writtenGain? at h
  split at h
  · cases h
  · rename_i hinput
    obtain ⟨index, hindex, h⟩ := Option.bind_eq_some_iff.1 h
    obtain ⟨gain, hgain, h⟩ := Option.bind_eq_some_iff.1 h
    obtain ⟨entry, hentry, hasked⟩ := List.exists_of_findSome?_eq_some hgain
    exact ⟨Bool.eq_false_iff.2 hinput, entry, hentry, index, hindex, gain, hasked, h⟩

/-! ## All channels of a module -/

/-- a port-clock on an input channel of a module asks for this gain of an input -/
def AsksGain (m : CompiledMap) (unit : String) (input : Nat) (g : Int) : Prop :=
  ∃ q ∈ m.channels, (q.1.parent? = some unit ∧ q.2.direction = .input) ∧
    ∃ entry ∈ q.2.portClocks, ∃ index, ioIndex? q.1.name = some index ∧
      ∃ gain, entry.corrections.inputGain? = some gain ∧ gain.at? index input = some g

instance (m : CompiledMap) (unit : String) (input : Nat) (g : Int) : Decidable (AsksGain m unit input g) :=
  decidable_of_iff
    (m.channels.any (fun q => decide (q.1.parent? = some unit ∧ q.2.direction = .input) &&
      q.2.portClocks.any fun entry => (ioIndex? q.1.name).any fun index =>
        entry.corrections.inputGain?.any fun gain => gain.at? index input = some g) = true)
    (by simp only [AsksGain, List.any_eq_true, Bool.and_eq_true, decide_eq_true_eq, Option.any_eq_true])

/-- every gain that is asked for is set -/
def GainsHonoured (m : CompiledMap) (s : QbloxSettings) : Prop :=
  ∀ unit input g, AsksGain m unit input g → ∃ ms, s.modules.lookup? unit = some ms ∧ ms.inGain? input = some g

/-- no two port-clocks of a module ask for different gains of one input, on one channel or on two -/
def GainsAgree (m : CompiledMap) : Prop :=
  ∀ unit input g g', AsksGain m unit input g → AsksGain m unit input g' → g = g'

/-- what holds of the gains in all settings that are made -/
structure Gains (m : CompiledMap) (s : QbloxSettings) : Prop where
  /-- port-clocks of one input channel ask for the same gain -/
  agreed : ∀ q ∈ m.channels, q.2.direction = .input → ∀ entry ∈ q.2.portClocks, ∀ entry' ∈ q.2.portClocks,
    ∀ gain gain', entry.corrections.inputGain? = some gain → entry'.corrections.inputGain? = some gain' → gain = gain'
  /-- a gain that is set is asked for -/
  asked : ∀ unit ms input g, s.modules.lookup? unit = some ms → ms.inGain? input = some g → AsksGain m unit input g
  /-- of an input whose gain somebody asks for, a gain is set -/
  set : ∀ unit input g, AsksGain m unit input g →
    ∃ ms g', s.modules.lookup? unit = some ms ∧ ms.inGain? input = some g'

section Compiled

variable (hc : Compiled config p warnings m) (hbackend : m.backend = .qblox)

include hc hbackend

theorem isOutput_eq_false_iff (hq : q ∈ m.channels) : isOutput q.1.name = false ↔ q.2.direction = .input := by
  rw [hc.isOutput_eq hbackend hq]
  cases q.2.direction <;> decide

/-- the number of an input channel -/
theorem exists_ioIndex (hq : q ∈ m.channels) (hinput : q.2.direction = .input) :
    ∃ index < 2, ioIndex? q.1.name = some index := by
  obtain ⟨u, slot, hprovided⟩ := hc.exists_provided hbackend hq
  rw [hprovided.name_eq]
  exact ioIndex_slot u.type hprovided.type_mem slot hprovided.known (hprovided.direction ▸ hinput)

/-- **The gain of an input as a register.** -/
theorem register_inGain? (input : Nat) :
    Register m.channels (fun ms => ms.inGain? input) (writtenGain? input) where
  start unitType := by
    simp only [ModuleSettings.inGain?]
    split_ifs <;> rfl
  write q hq ms ms' happly := by
    obtain ⟨index, m₁, m₂, m₃, added, hindex, h₁, h₂, h₃, rfl⟩ := exists_stages_of_applyChannel happly
    obtain ⟨lo0?, lo1?, hoscillator⟩ := applyOscillator_frame q.2 ms
    obtain ⟨out0?, out1?, in0?, rfl⟩ := applyAttenuation_frame h₁
    obtain ⟨x00?, x01?, x10?, x11?, rfl⟩ := applyOffsets_frame h₃
    rw [hoscillator] at h₂
    change m₂.inGain? input = _
    cases hinput : isOutput q.1.name with
    | true =>
      rw [applyGain, hinput, if_pos rfl] at h₂
      cases h₂
      rw [writtenGain?, hinput, if_pos rfl, Option.none_or]
      rfl
    | false =>
      obtain ⟨index', hbound, hindex'⟩ :=
        exists_ioIndex hc hbackend hq ((isOutput_eq_false_iff hc hbackend hq).1 hinput)
      obtain rfl : index = index' := Option.some.inj (hindex.symm.trans hindex')
      rw [inGain?_of_applyGain hinput hbound h₂, writtenGain?, hinput, if_neg Bool.false_ne_true, hindex,
        Option.bind_some]
      rfl

variable (hmodules : m.channels.foldlM addChannel [] = .ok s.modules)

include hmodules

/-- the gain of a channel that is taken is that of each of its port-clocks -/
theorem channelGain?_eq (hq : q ∈ m.channels) (hinput : q.2.direction = .input) {entry : CompiledPortClock}
    (hentry : entry ∈ q.2.portClocks) {gain : InputGain} (hasked : entry.corrections.inputGain? = some gain) :
    channelGain? q.2 = some gain := by
  obtain ⟨before, after, happly⟩ := exists_applied hmodules hq
  obtain ⟨index, m₁, m₂, m₃, added, -, -, hgain, -, -⟩ := exists_stages_of_applyChannel happly
  exact channelGain?_of_applyGain ((isOutput_eq_false_iff hc hbackend hq).2 hinput) hgain hentry hasked

/-- the gains that are asked for are those that the channels of the module write -/
theorem asksGain_iff :
    AsksGain m unit input g ↔ ∃ q ∈ m.channels, q.1.parent? = some unit ∧ writtenGain? input q = some g := by
  constructor
  · rintro ⟨q, hq, ⟨hparent, hinput⟩, entry, hentry, index, hindex, gain, hasked, hgain⟩
    have hwritten : writtenGain? input q = some g := by
      rw [writtenGain?, (isOutput_eq_false_iff hc hbackend hq).2 hinput, if_neg Bool.false_ne_true, hindex,
        Option.bind_some, channelGain?_eq hc hbackend hmodules hq hinput hentry hasked, Option.bind_some, hgain]
    exact ⟨q, hq, hparent, hwritten⟩
  · rintro ⟨q, hq, hparent, hwritten⟩
    obtain ⟨hinput, hasked⟩ := exists_of_writtenGain? hwritten
    exact ⟨q, hq, ⟨hparent, (isOutput_eq_false_iff hc hbackend hq).1 hinput⟩, hasked⟩

/-- a gain that is asked for is that of a module, which has the gain that the last of its channels has written -/
theorem exists_module_of_asksGain (hasks : AsksGain m unit input g) :
    ∃ ms, s.modules.lookup? unit = some ms ∧ ms.inGain? input = lastOn (writtenGain? input) m.channels unit := by
  obtain ⟨q, hq, ⟨hparent, -⟩, -⟩ := hasks
  obtain ⟨ms, hms⟩ := exists_module hmodules hq hparent
  exact ⟨ms, hms, (register_inGain? hc hbackend input).read_eq hmodules hms⟩

theorem gains_of_modules : Gains m s := by
  refine ⟨fun q hq hinput entry hentry entry' hentry' gain gain' hasked hasked' => ?_,
    fun unit ms input g hms hgain => ?_, fun unit input g hasks => ?_⟩
  · have hgain := channelGain?_eq hc hbackend hmodules hq hinput hentry hasked
    rw [channelGain?_eq hc hbackend hmodules hq hinput hentry' hasked'] at hgain
    exact (Option.some.inj hgain).symm
  · have hlast : lastOn (writtenGain? input) m.channels unit = some g := by
      rw [← (register_inGain? hc hbackend input).read_eq hmodules hms]
      exact hgain
    exact (asksGain_iff hc hbackend hmodules).2 (mem_of_lastOn hlast)
  · obtain ⟨ms, hms, hgain⟩ := exists_module_of_asksGain hc hbackend hmodules hasks
    obtain ⟨q, hq, hparent, hwritten⟩ := (asksGain_iff hc hbackend hmodules).1 hasks
    obtain ⟨g', hg'⟩ := Option.ne_none_iff_exists'.1 (lastOn_ne_none hq hparent hwritten)
    exact ⟨ms, g', hms, hgain.trans hg'⟩

/-- nothing is overwritten iff nobody disagrees -/
theorem gainsHonoured_iff : GainsHonoured m s ↔ GainsAgree m := by
  constructor
  · intro h unit input g g' hasks hasks'
    obtain ⟨ms, hms, hgain⟩ := h unit input g hasks
    obtain ⟨ms', hms', hgain'⟩ := h unit input g' hasks'
    rw [hms, Option.some.injEq] at hms'
    rw [← hms', hgain, Option.some.injEq] at hgain'
    exact hgain'
  · intro h unit input g hasks
    obtain ⟨ms, hms, hgain⟩ := exists_module_of_asksGain hc hbackend hmodules hasks
    obtain ⟨q, hq, hparent, hwritten⟩ := (asksGain_iff hc hbackend hmodules).1 hasks
    refine ⟨ms, hms, hgain.trans (lastOn_eq_of_agree ?_ hq hparent hwritten)⟩
    intro q hq hparent q' hq' hparent' x x' hx hx'
    exact h unit input x x' ((asksGain_iff hc hbackend hmodules).2 ⟨q, hq, hparent, hx⟩)
      ((asksGain_iff hc hbackend hmodules).2 ⟨q', hq', hparent', hx'⟩)

end Compiled

/-- **Gains of a config.** Port-clocks of one channel agree, and no gain is made up. Every gain that is asked for is set
iff no two channels of a module ask for different gains of one input; otherwise one of them is overwritten. -/
theorem compile_gains (h : compile config settings = .ok m) (hs : generate m = .ok s) :
    Gains m s ∧ (GainsHonoured m s ↔ GainsAgree m) := by
  obtain ⟨p, warnings, hc⟩ := compile_compiled h
  obtain ⟨hbackend, hmodules, -⟩ := generate_eq_ok hs
  exact ⟨gains_of_modules hc hbackend hmodules, gainsHonoured_iff hc hbackend hmodules⟩

/-- a readout module with a complex input and a real one, whose port-clocks ask for these gains -/
def readoutConfig (complex real : InputGain) : Config where
  backend := "qblox"
  description := [("cluster0", { (default : InstrumentDescription) with
    type := "Cluster", modules? := some [("1", ⟨"QRM", []⟩)] })]
  options? := some { inputGain? := some [("q0:res-q0.ro", complex), ("q1:res-q1.ro", real)] }
  connectivity := .paths [("cluster0.module1", .obj [
    ("complex_input_0", .obj [("portclock_configs", .arr [.obj [("port", .str "q0:res"), ("clock", .str "q0.ro")]])]),
    ("real_input_0", .obj [("portclock_configs", .arr [.obj [("port", .str "q1:res"), ("clock", .str "q1.ro")]])])])]

/-- both gains are set where the channels agree on the one they share -/
theorem readoutConfig_gains :
    ∃ m s, compile (readoutConfig (.complex 2 3) (.real 2)) {} = .ok m ∧ generate m = .ok s ∧
      (s.modules.lookup? "cluster0.module1").map (fun ms => (ms.in0Gain?, ms.in1Gain?)) = some (some 2, some 3) ∧
      Gains m s ∧ (GainsHonoured m s ↔ GainsAgree m) := by
  obtain ⟨m, hm, hmade⟩ := exists_eq_ok (x := compile (readoutConfig (.complex 2 3) (.real 2)) {})
    (c := fun m => (generate m).toOption.any fun s =>
      (s.modules.lookup? "cluster0.module1").map (fun ms => (ms.in0Gain?, ms.in1Gain?)) = some (some 2, some 3))
    (by decide +kernel)
  obtain ⟨s, hs, hset⟩ := exists_eq_ok hmade
  exact ⟨m, s, hm, hs, of_decide_eq_true hset, compile_gains hm hs⟩

/-- **A gain that is overwritten.** The port-clock on the complex input asks for 2, the one on the real input for 5. -/
theorem readoutConfig_overwrites :
    ∃ m s, compile (readoutConfig (.complex 2 3) (.real 5)) {} = .ok m ∧ generate m = .ok s ∧
      AsksGain m "cluster0.module1" 0 2 ∧ AsksGain m "cluster0.module1" 0 5 ∧
      (s.modules.lookup? "cluster0.module1").bind ModuleSettings.in0Gain? = some 5 := by
  obtain ⟨m, hm, hmade⟩ := exists_eq_ok (x := compile (readoutConfig (.complex 2 3) (.real 5)) {})
    (c := fun m => (generate m).toOption.any fun s =>
      AsksGain m "cluster0.module1" 0 2 ∧ AsksGain m "cluster0.module1" 0 5 ∧
        (s.modules.lookup? "cluster0.module1").bind ModuleSettings.in0Gain? = some 5)
    (by decide +kernel)
  obtain ⟨s, hs, hset⟩ := exists_eq_ok hmade
  exact ⟨m, s, hm, hs, of_decide_eq_true hset⟩

end Qblox

end Instrument

end RackMap
