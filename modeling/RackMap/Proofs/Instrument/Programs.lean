/-
Which frequencies the settings program for the oscillators.

Both kinds of oscillators are programmed channel by channel: every channel writes the frequency and the power of its
external oscillator under the name of that, or the frequency of its integrated one into its module. Channels that share an
oscillator write over each other. It does not matter, since a channel brings the frequency of its oscillator, whichever
port-clock it took it from.
- `lookup?_ofMap`: the external oscillators of a map, each with its power and its frequency;
- `Loaded`: what the modules hold of the channels that were taken so far; `loaded_addChannel` is one channel more, and
  `loaded_of_modules` all of them;
- `programs_of_generate`: the settings of a compiled map program every oscillator that feeds a channel, and no other.
-/
import Mathlib.Tactic
import RackMap.Instrument.Settings
import RackMap.Proofs.Frequencies.Reordering
import RackMap.Proofs.Instrument.Placed
import RackMap.Proofs.Instrument.Qblox
import RackMap.Proofs.Instrument.Zhinst

namespace RackMap

open RackMap.Decimal (Double)

variable {config : Config} {settings : Settings} {p : Parsed} {warnings : List String} {m : CompiledMap}
  {q : ChannelPath × CompiledChannel} {lo : OscillatorRef} {e : Edge}

/-! ## What channels cite -/

/-- the channel is fed by this oscillator, as the map has it -/
def Cites (q : ChannelPath × CompiledChannel) (lo : OscillatorRef) : Prop :=
  q.2.oscillator?.map CompiledOscillator.lo = some lo

namespace Compiled

/-- **Cited oscillators.** They are those that feed an edge. -/
theorem exists_cites_iff (hc : Compiled config p warnings m) :
    (∃ q ∈ m.channels, Cites q lo) ↔ ∃ e ∈ p.wiring.edges, e.fedBy? p.inventory = some lo := by
  constructor
  · rintro ⟨q, hq, hcites⟩
    obtain ⟨e, he, -, hoscillator⟩ := hc.exists_edge_of_mem hq
    rw [Cites, hoscillator, Option.map_map] at hcites
    obtain ⟨lo', hlo', heq⟩ := Option.map_eq_some_iff.1 hcites
    obtain rfl : lo' = lo := heq
    exact ⟨e, he, hlo'⟩
  · rintro ⟨e, he, hfed⟩
    obtain ⟨channel, hchannel, -⟩ := Compile.entry_of_edge hc.map he
    refine ⟨(e.channel, channel), Table.mem_of_lookup? hchannel, ?_⟩
    rw [Cites, hc.lo_of_oscillator? hchannel he, hfed]

/-- a cited oscillator comes with its frequency and its power -/
theorem oscillator_of_cites (hc : Compiled config p warnings m) (hq : q ∈ m.channels) (hcites : Cites q lo) :
    q.2.oscillator? = some ⟨lo, p.resolution.frequency? lo, p.inventory.power? lo⟩ := by
  obtain ⟨e, -, -, hoscillator⟩ := hc.exists_edge_of_mem hq
  rw [Cites, hoscillator, Option.map_map] at hcites
  obtain ⟨lo', hlo', heq⟩ := Option.map_eq_some_iff.1 hcites
  obtain rfl : lo' = lo := heq
  rw [hoscillator, hlo']
  cases lo' <;> rfl

end Compiled

namespace Instrument

/-! ## External oscillators -/

/-- the settings of an external oscillator -/
def oscillatorSettings (p : Parsed) (name : String) : OscillatorSettings :=
  ⟨p.inventory.power? (.external name), p.resolution.frequency? (.external name)⟩

theorem mem_ofChannel? {c : CompiledChannel} {name : String} {o : OscillatorSettings}
    (h : OscillatorSettings.ofChannel? c = some (name, o)) :
    c.oscillator? = some ⟨.external name, o.frequency?, o.power?⟩ := by
  unfold OscillatorSettings.ofChannel? at h
  split at h
  · rename_i hoscillator
    cases h
    exact hoscillator
  · cases h

theorem ofChannel?_of_external {c : CompiledChannel} {name : String} {frequency? power? : Option Double}
    (h : c.oscillator? = some ⟨.external name, frequency?, power?⟩) :
    OscillatorSettings.ofChannel? c = some (name, ⟨power?, frequency?⟩) := by
  unfold OscillatorSettings.ofChannel?
  rw [h]

/-- the names that are entered are those that a channel cites -/
theorem mem_keys_external {name : String} (hc : Compiled config p warnings m) :
    name ∈ Table.keys (m.channels.values.filterMap OscillatorSettings.ofChannel?) ↔
      ∃ q ∈ m.channels, Cites q (.external name) := by
  simp only [Table.keys, Table.values, List.mem_map, List.mem_filterMap]
  constructor
  · rintro ⟨⟨name', o⟩, ⟨c, ⟨q, hq, rfl⟩, ho⟩, rfl⟩
    refine ⟨q, hq, ?_⟩
    rw [Cites, mem_ofChannel? ho]
    rfl
  · rintro ⟨q, hq, hcites⟩
    exact ⟨_, ⟨q.2, ⟨q, hq, rfl⟩, ofChannel?_of_external (hc.oscillator_of_cites hq hcites)⟩, rfl⟩

/-- whatever channel an entry is from, it is that of its oscillator -/
theorem eq_oscillatorSettings (hc : Compiled config p warnings m) {entry : String × OscillatorSettings}
    (h : entry ∈ m.channels.values.filterMap OscillatorSettings.ofChannel?) :
    entry.2 = oscillatorSettings p entry.1 := by
  obtain ⟨c, hcin, hentry⟩ := List.mem_filterMap.1 h
  obtain ⟨q, hq, rfl⟩ := List.mem_map.1 hcin
  have hoscillator : q.2.oscillator? = some ⟨.external entry.1, entry.2.frequency?, entry.2.power?⟩ :=
    mem_ofChannel? hentry
  have hcites : Cites q (.external entry.1) := by
    rw [Cites, hoscillator]
    rfl
  rw [hc.oscillator_of_cites hq hcites, Option.some.injEq, CompiledOscillator.mk.injEq] at hoscillator
  obtain ⟨-, hfrequency, hpower⟩ := hoscillator
  rw [oscillatorSettings, hfrequency, hpower]

/-- **External oscillators.** Each that feeds an edge has its settings, under its name. -/
theorem lookup?_ofMap (hc : Compiled config p warnings m) (name : String) :
    ((∃ e ∈ p.wiring.edges, e.fedBy? p.inventory = some (.external name)) →
        (OscillatorSettings.ofMap m).lookup? name = some (oscillatorSettings p name)) ∧
      ((¬∃ e ∈ p.wiring.edges, e.fedBy? p.inventory = some (.external name)) →
        (OscillatorSettings.ofMap m).lookup? name = none) := by
  rw [← hc.exists_cites_iff, ← mem_keys_external hc]
  constructor
  · intro hkey
    exact Table.lookup?_sortedOfPairs_of_forall (fun entry hentry => eq_oscillatorSettings hc hentry) hkey
  · intro hkey
    rw [Table.lookup?_eq_none_iff, OscillatorSettings.ofMap, Table.mem_keys_sortedOfPairs]
    exact hkey

/-! ## Integrated oscillators -/

/-- the frequency of an integrated oscillator of a module -/
def ModuleSettings.lo? (m : ModuleSettings) (index : Nat) : Option Double := if index = 0 then m.lo0? else m.lo1?

namespace Qblox

variable {done : List (ChannelPath × CompiledChannel)} {modules modules' : Table String ModuleSettings} {unit : String}
  {slot : ChannelSlot} {ms ms' : ModuleSettings} {frequency? : OscillatorRef → Option Double} {index : Nat}

/-- an integrated oscillator has its frequency if one of the channels cites it, and else none -/
structure Tuned (frequency? : OscillatorRef → Option Double) (channels : List (ChannelPath × CompiledChannel))
    (unit : String) (index : Nat) (ms : ModuleSettings) : Prop where
  cited : (∃ q ∈ channels, Cites q (.integrated unit index)) → ms.lo? index = frequency? (.integrated unit index)
  uncited : (¬∃ q ∈ channels, Cites q (.integrated unit index)) → ms.lo? index = none

/-- the modules after some of the channels -/
structure Loaded (frequency? : OscillatorRef → Option Double) (done : List (ChannelPath × CompiledChannel))
    (modules : Table String ModuleSettings) : Prop where
  ascending : modules.Ascending
  units : ∀ unit, unit ∈ modules.keys ↔ ∃ q ∈ done, q.1.parent? = some unit
  tuned : ∀ unit ms, modules.lookup? unit = some ms → ∀ index < 2, Tuned frequency? done unit index ms

/-- a channel that brings the frequency of its oscillator -/
def Brings (frequency? : OscillatorRef → Option Double) (q : ChannelPath × CompiledChannel) : Prop :=
  ∀ o, q.2.oscillator? = some o → o.frequency? = frequency? o.lo

theorem Applied.lo?_eq (h : Applied q.1 q.2 ms ms') (index : Nat) :
    ms'.lo? index = (applyOscillator q.2 ms).lo? index := by
  rw [ModuleSettings.lo?, ModuleSettings.lo?, h.lo0, h.lo1]

/-- a channel sets the frequency of the integrated oscillator that it cites -/
theorem lo?_applyOscillator_of_cites (hcites : Cites q (.integrated unit index)) (hindex : index < 2)
    (hbrings : Brings frequency? q) :
    (applyOscillator q.2 ms).lo? index = frequency? (.integrated unit index) := by
  obtain ⟨o, ho, hlo⟩ := Option.map_eq_some_iff.1 hcites
  have hfrequency := hbrings o ho
  obtain ⟨lo, f?, power?⟩ := o
  obtain rfl : lo = .integrated unit index := hlo
  obtain rfl : f? = frequency? (.integrated unit index) := hfrequency
  unfold applyOscillator
  simp only [ho]
  obtain rfl | rfl : index = 0 ∨ index = 1 := by omega
  · rfl
  · rfl

/-- it leaves all others as they were -/
theorem lo?_applyOscillator_of_not_cites (hplaced : Placed .qblox unit slot q) (hindex : index < 2)
    (hcites : ¬Cites q (.integrated unit index)) : (applyOscillator q.2 ms).lo? index = ms.lo? index := by
  unfold applyOscillator
  split
  · rename_i module other f? power? ho
    have hother : Cites q (.integrated module other) := by rw [Cites, ho]; rfl
    obtain ⟨rfl, hslot⟩ := hplaced.integrated module other hother
    have hlt : other < 2 := index_lt_of_placed hplaced hslot
    have hne : other ≠ index := fun heq => hcites (heq ▸ hother)
    rcases (by omega : other = 0 ∧ index = 1 ∨ other = 1 ∧ index = 0) with ⟨rfl, rfl⟩ | ⟨rfl, rfl⟩
    · rfl
    · rfl
  · rfl

/-- **One channel more.** -/
theorem loaded_addChannel (hloaded : Loaded frequency? done modules)
    (hdone : ∀ q' ∈ done, ∃ unit slot, Placed .qblox unit slot q') (hplaced : Placed .qblox unit slot q)
    (hbrings : Brings frequency? q) (h : addChannel modules q = .ok modules') :
    Loaded frequency? (done ++ [q]) modules' := by
  obtain ⟨unit', ms', hparent, happly, rfl⟩ := addChannel_eq_ok_iff.1 h
  obtain rfl : unit' = unit := Option.some.inj (hparent.symm.trans hplaced.parent?_eq)
  have happlied := applied_of_applyChannel happly
  have hcited : ∀ lo, (∃ q' ∈ done ++ [q], Cites q' lo) ↔ (∃ q' ∈ done, Cites q' lo) ∨ Cites q lo := by
    simp [or_and_right, exists_or]
  refine ⟨hloaded.ascending.putSorted _ _, fun other => ?_, fun other ms hms index hindex => ?_⟩
  · have hkey : other ∈ (modules.putSorted unit' ms').keys ↔ other = unit' ∨ other ∈ modules.keys := by
      rw [← not_iff_not, ← Table.lookup?_eq_none_iff, Table.lookup?_putSorted, not_or, ← Table.lookup?_eq_none_iff]
      split <;> simp_all
    rw [hkey, hloaded.units]
    simp [or_and_right, exists_or, hparent, or_comm, eq_comm]
  · rw [Table.lookup?_putSorted] at hms
    split at hms
    · rename_i hother
      subst hother
      cases hms
      -- what the module had before this channel, be it an entry or nothing
      have hbefore : Tuned frequency? done other index ((modules.lookup? other).getD { unitType := q.2.unitType }) := by
        cases hlookup : modules.lookup? other with
        | some ms => exact hloaded.tuned other ms hlookup index hindex
        | none =>
          have hnone : ¬∃ q' ∈ done, Cites q' (.integrated other index) := by
            rintro ⟨q', hq', hcites⟩
            obtain ⟨unit, slot', hplaced'⟩ := hdone q' hq'
            obtain ⟨rfl, -⟩ := hplaced'.integrated _ _ hcites
            rw [Table.lookup?_eq_none_iff, hloaded.units] at hlookup
            exact hlookup ⟨q', hq', hplaced'.parent?_eq⟩
          refine ⟨fun hcites => absurd hcites hnone, fun _ => ?_⟩
          simp [ModuleSettings.lo?]
      by_cases hcites : Cites q (.integrated other index)
      · refine ⟨fun _ => ?_, fun hnot => absurd ((hcited _).2 (Or.inr hcites)) hnot⟩
        rw [happlied.lo?_eq, lo?_applyOscillator_of_cites hcites hindex hbrings]
      · have hkept := (happlied.lo?_eq index).trans (lo?_applyOscillator_of_not_cites hplaced hindex hcites)
        refine ⟨fun hsome => ?_, fun hnot => ?_⟩
        · rw [hkept]
          exact hbefore.cited (((hcited _).1 hsome).resolve_right hcites)
        · rw [hkept]
          exact hbefore.uncited fun hsome => hnot ((hcited _).2 (Or.inl hsome))
    · rename_i hother
      have hcites : ¬Cites q (.integrated other index) := fun hcites => hother (hplaced.integrated _ _ hcites).1
      have hbefore := hloaded.tuned other ms hms index hindex
      refine ⟨fun hsome => ?_, fun hnot => ?_⟩
      · exact hbefore.cited (((hcited _).1 hsome).resolve_right hcites)
      · exact hbefore.uncited fun hsome => hnot ((hcited _).2 (Or.inl hsome))

/-- every channel of a map brings the frequency of its oscillator -/
theorem brings_of_mem (hc : Compiled config p warnings m) (hq : q ∈ m.channels) : Brings p.resolution.frequency? q := by
  intro o ho
  have hcites : Cites q o.lo := by rw [Cites, ho]; rfl
  rw [hc.oscillator_of_cites hq hcites, Option.some.injEq] at ho
  rw [← ho]

/-- **All channels.** -/
theorem loaded_of_modules (hc : Compiled config p warnings m) (hbackend : m.backend = .qblox)
    (hmodules : m.channels.foldlM addChannel [] = .ok modules) :
    Loaded p.resolution.frequency? m.channels modules := by
  have hplaced : ∀ q ∈ m.channels, ∃ unit slot, Placed .qblox unit slot q := by
    rw [← hbackend]
    exact fun q hq => hc.exists_placed hq
  have hstart : Loaded p.resolution.frequency? [] [] :=
    ⟨List.Pairwise.nil, by simp [Table.keys], fun unit ms hms => by cases hms⟩
  refine (foldlM_induction (fun done modules => (∀ q ∈ done, ∃ unit slot, Placed .qblox unit slot q) ∧
    Loaded p.resolution.frequency? done modules) ⟨by simp, hstart⟩ ?_ hmodules).2
  rintro done q modules modules' hq ⟨hdone, hloaded⟩ hadd
  obtain ⟨unit, slot, hunit⟩ := hplaced q hq
  refine ⟨fun q' hq' => ?_, loaded_addChannel hloaded hdone hunit (brings_of_mem hc hq) hadd⟩
  rcases List.mem_append.1 hq' with hq' | hq'
  · exact hdone q' hq'
  · obtain rfl := List.mem_singleton.1 hq'
    exact ⟨unit, slot, hunit⟩

theorem loaded_of_generate (hc : Compiled config p warnings m) {s : QbloxSettings} (h : generate m = .ok s) :
    Loaded p.resolution.frequency? m.channels s.modules :=
  loaded_of_modules hc (generate_eq_ok h).1 (generate_eq_ok h).2.1

end Qblox

/-! ## Settings -/

namespace InstrumentSettings

/-- the settings of the external oscillators, by name -/
def oscillators : InstrumentSettings → Table String OscillatorSettings
  | qblox s => s.oscillators
  | zhinst s => s.oscillators

/-- the settings of the modules, by path; Zurich Instruments devices have none -/
def modules : InstrumentSettings → Table String ModuleSettings
  | qblox s => s.modules
  | zhinst _ => []

/-- the frequency that is programmed for an oscillator -/
def programmed? (s : InstrumentSettings) : OscillatorRef → Option Double
  | .external name => (s.oscillators.lookup? name).bind OscillatorSettings.frequency?
  | .integrated unit index => (s.modules.lookup? unit).bind fun ms => ms.lo? index

end InstrumentSettings

/-- the settings program the oscillators that feed an edge, and no others, with the frequencies of a resolution -/
structure Programs (inv : Inventory) (options : OptionTable) (w : Wiring) (r : Resolution) (m : CompiledMap)
    (s : InstrumentSettings) : Prop where
  names : s.oscillators.keys.Nodup
  /-- there is an entry for each external oscillator that feeds an edge -/
  listed : ∀ name, name ∈ s.oscillators.keys ↔ ∃ e ∈ w.edges, e.fedBy? inv = some (.external name)
  external : ∀ name o, s.oscillators.lookup? name = some o →
    o.power? = (inv.oscillator? name).bind Oscillator.power? ∧ o.frequency? = r.frequency? (.external name)
  /-- a frequency is open if no member asks for one -/
  unasked : ∀ lo, r.frequency? lo = none ↔
    ∀ pc ∈ Frequencies.members inv w.edges lo, (options.modulation pc).lo? = none
  paths : s.modules.keys.Nodup
  /-- there is an entry for each module with a connected channel -/
  units : m.backend = .qblox → ∀ unit, unit ∈ s.modules.keys ↔ ∃ e ∈ w.edges, e.channel.parent? = some unit
  integrated : ∀ unit ms, s.modules.lookup? unit = some ms → ∀ index < 2,
    ((∃ e ∈ w.edges, e.fedBy? inv = some (.integrated unit index)) →
      ms.lo? index = r.frequency? (.integrated unit index)) ∧
    ((¬∃ e ∈ w.edges, e.fedBy? inv = some (.integrated unit index)) → ms.lo? index = none)
  /-- whatever an oscillator feeds has the frequency that is programmed for it -/
  fed : ∀ e ∈ w.edges, ∀ lo, e.fedBy? inv = some lo → ∀ entry, m.Lists entry → entry.portClock = e.portClock →
    SameFrequency (s.programmed? lo) entry.frequencies.lo?

variable {s : InstrumentSettings}

/-- what is made of a map, by vendor -/
theorem generate_eq_ok (h : generate m = .ok s) :
    s.oscillators = OscillatorSettings.ofMap m ∧
      ((m.backend = .qblox ∧ ∃ made, Qblox.generate m = .ok made ∧ s.modules = made.modules) ∨
        m.backend = .zhinst ∧ s.modules = []) := by
  unfold generate generateFor at h
  cases hbackend : m.backend with
  | qblox =>
    rw [hbackend] at h
    obtain ⟨made, hmade, rfl⟩ := map_eq_ok_iff.1 h
    exact ⟨(Qblox.generate_eq_ok hmade).2.2, Or.inl ⟨rfl, made, hmade, rfl⟩⟩
  | zhinst =>
    rw [hbackend] at h
    obtain ⟨made, hmade, rfl⟩ := map_eq_ok_iff.1 h
    exact ⟨(Zhinst.generate_eq_ok hmade).2.2, Or.inr ⟨rfl, rfl⟩⟩

/-- a unit with a connected channel -/
theorem exists_parent_iff (hc : Compiled config p warnings m) {unit : String} :
    (∃ q ∈ m.channels, q.1.parent? = some unit) ↔ ∃ e ∈ p.wiring.edges, e.channel.parent? = some unit := by
  constructor
  · rintro ⟨q, hq, hparent⟩
    obtain ⟨e, he, hpath, -⟩ := hc.exists_edge_of_mem hq
    exact ⟨e, he, by rw [hpath, hparent]⟩
  · rintro ⟨e, he, hparent⟩
    obtain ⟨channel, hchannel, -⟩ := Compile.entry_of_edge hc.map he
    exact ⟨(e.channel, channel), Table.mem_of_lookup? hchannel, hparent⟩

/-- an oscillator that feeds an edge is programmed with its frequency -/
theorem programmed?_of_fed (hc : Compiled config p warnings m) (h : generate m = .ok s) (he : e ∈ p.wiring.edges)
    (hfed : e.fedBy? p.inventory = some lo) : s.programmed? lo = p.resolution.frequency? lo := by
  obtain ⟨hoscillators, hmodules⟩ := generate_eq_ok h
  cases lo with
  | external name =>
    rw [InstrumentSettings.programmed?, hoscillators, (lookup?_ofMap hc name).1 ⟨e, he, hfed⟩]
    rfl
  | integrated unit index =>
    obtain ⟨q, hq, hcites⟩ := hc.exists_cites_iff.2 ⟨e, he, hfed⟩
    obtain ⟨unit', slot, hplaced⟩ := hc.exists_placed hq
    obtain ⟨rfl, hslot⟩ := hplaced.integrated unit index hcites
    rcases hmodules with ⟨hbackend, made, hmade, hmodules⟩ | ⟨hbackend, -⟩
    · rw [hbackend] at hplaced
      have hloaded := Qblox.loaded_of_generate hc hmade
      obtain ⟨ms, hms⟩ := Table.exists_lookup? ((hloaded.units unit).2 ⟨q, hq, hplaced.parent?_eq⟩)
      rw [InstrumentSettings.programmed?, hmodules, hms]
      exact (hloaded.tuned unit ms hms index (index_lt_of_placed hplaced hslot)).cited ⟨q, hq, hcites⟩
    · rw [hbackend] at hplaced
      exact absurd hcites (not_integrated_of_placed hplaced unit index)

/-- the frequency of an oscillator is that of every port-clock it feeds -/
theorem sameFrequency_of_fed (hc : Compiled config p warnings m) (he : e ∈ p.wiring.edges)
    (hfed : e.fedBy? p.inventory = some lo) {entry : CompiledPortClock} (hentry : m.Lists entry)
    (hpc : entry.portClock = e.portClock) : SameFrequency (p.resolution.frequency? lo) entry.frequencies.lo? := by
  obtain ⟨e', he', hpc', hfrequencies⟩ := hc.entry_eq hentry
  obtain rfl := List.inj_on_of_nodup_map p.wiring.distinct he' he (hpc'.trans hpc)
  rw [hfrequencies]
  exact Frequencies.sameFrequency_of_fed hc.inventory p.wiring.distinct hc.fits
    (OptionTable.asksFinite_of_build hc.options) (hc.agreed lo) he hfed

/-- **Programs of a compiled map.** -/
theorem programs_of_generate (hc : Compiled config p warnings m) (h : generate m = .ok s) :
    Programs p.inventory p.options p.wiring p.resolution m s := by
  obtain ⟨hoscillators, hmodules⟩ := generate_eq_ok h
  have hlisted : ∀ name, name ∈ s.oscillators.keys ↔
      ∃ e ∈ p.wiring.edges, e.fedBy? p.inventory = some (.external name) := by
    intro name
    rw [hoscillators, OscillatorSettings.ofMap, Table.mem_keys_sortedOfPairs, mem_keys_external hc, hc.exists_cites_iff]
  refine ⟨?_, hlisted, fun name o ho => ?_, fun lo => ?_, ?_, fun hbackend unit => ?_, fun unit ms hms index hindex => ?_,
    fun e he lo hfed entry hentry hpc => ?_⟩
  · rw [hoscillators]
    exact (Table.ascending_sortedOfPairs _).nodup_keys
  · have hin : name ∈ s.oscillators.keys := Table.mem_keys_of_lookup? ho
    rw [hoscillators, (lookup?_ofMap hc name).1 ((hlisted name).1 hin), Option.some.injEq] at ho
    rw [← ho]
    exact ⟨rfl, rfl⟩
  · rw [Parsed.resolution, Frequencies.frequency?_resolution, Frequencies.firstRequest?_eq_none_iff]
  · rcases hmodules with ⟨-, made, hmade, hmodules⟩ | ⟨-, hmodules⟩
    · rw [hmodules]
      exact (Qblox.loaded_of_generate hc hmade).ascending.nodup_keys
    · rw [hmodules]
      exact List.nodup_nil
  · rcases hmodules with ⟨-, made, hmade, hmodules⟩ | ⟨hother, -⟩
    · rw [hmodules, (Qblox.loaded_of_generate hc hmade).units, exists_parent_iff hc]
    · rw [hbackend] at hother
      cases hother
  · rcases hmodules with ⟨-, made, hmade, hmodules⟩ | ⟨-, hmodules⟩
    · rw [hmodules] at hms
      have htuned := (Qblox.loaded_of_generate hc hmade).tuned unit ms hms index hindex
      rw [← hc.exists_cites_iff]
      exact ⟨htuned.cited, htuned.uncited⟩
    · rw [hmodules] at hms
      cases hms
  · rw [programmed?_of_fed hc h he hfed]
    exact sameFrequency_of_fed hc he hfed hentry hpc

/-- **Programs of a config.** Where the settings of a config are made, every oscillator that feeds a port-clock is
programmed with the frequency that its members agree on, external ones with their described power too, and no other
oscillator is. So every port-clock has the frequency that is programmed for its oscillator. -/
theorem compileSettings_programs (h : compileSettings config settings = .ok s) :
    ∃ m inv options w r, compile config settings = .ok m ∧ Inventory.build config.description m.backend = .ok inv ∧
      OptionTable.build (Parsed.optionsOf config) = .ok options ∧ Wiring.build config.connectivity = .ok w ∧
      Frequencies.resolve inv options w = .ok r ∧ Programs inv options w r m s := by
  unfold compileSettings at h
  split at h
  · rename_i m hm
    obtain ⟨p, warnings, hc⟩ := compile_compiled hm
    have hresolve : Frequencies.resolve p.inventory p.options p.wiring = .ok p.resolution :=
      (Frequencies.resolve_eq_ok_iff hc.options hc.fits).2 ⟨hc.agreed, rfl⟩
    exact ⟨m, _, _, _, _, hm, hc.inventory, hc.options, hc.wiring, hresolve, programs_of_generate hc h⟩
  · cases h

/-- a rack with a readout module, whose input and output share the oscillator that is built in, and a control module with
an external one -/
def builtInConfig : Config where
  backend := "qblox"
  description :=
    [("cluster0", { (default : InstrumentDescription) with
        type := "Cluster", modules? := some [("1", ⟨"QRM_RF", []⟩), ("2", ⟨"QCM", []⟩)] }),
      ("lo0", { (default : InstrumentDescription) with type := "LocalOscillator", power? := some (.finite false 1) })]
  options? := some { modulation? := some [("q0:res-q0.ro", ⟨none, some (.finite false 5)⟩)] }
  connectivity := .paths [("cluster0", .obj [
    ("module1", .obj [
      ("complex_output_0", .obj [("portclock_configs", .arr [.obj [("port", .str "q0:res"), ("clock", .str "q0.ro")]])]),
      ("complex_input_0", .obj [("portclock_configs", .arr [.obj [("port", .str "q1:res"), ("clock", .str "q1.ro")]])])]),
    ("module2", .obj [("complex_output_0", .obj [("lo_name", .str "lo0"),
      ("portclock_configs", .arr [.obj [("port", .str "q0:mw"), ("clock", .str "q0.01")]])])])])]

/-- both channels of the readout module share its first oscillator, and the external oscillator stays open -/
theorem builtInConfig_programs :
    ∃ s, compileSettings builtInConfig {} = .ok s ∧
      s.programmed? (.integrated "cluster0.module1" 0) = some (.finite false 5) ∧ s.oscillators.keys = ["lo0"] ∧
      s.programmed? (.external "lo0") = none ∧
      ∃ m inv options w r, compile builtInConfig {} = .ok m ∧
        Inventory.build builtInConfig.description m.backend = .ok inv ∧
        OptionTable.build (Parsed.optionsOf builtInConfig) = .ok options ∧
        Wiring.build builtInConfig.connectivity = .ok w ∧ Frequencies.resolve inv options w = .ok r ∧
        Programs inv options w r m s := by
  obtain ⟨s, hs, hprogrammed⟩ := exists_eq_ok (x := compileSettings builtInConfig {})
    (c := fun s => s.programmed? (.integrated "cluster0.module1" 0) = some (.finite false 5) ∧
      s.oscillators.keys = ["lo0"] ∧ s.programmed? (.external "lo0") = none) (by decide +kernel)
  obtain ⟨hbuiltIn, hkeys, hexternal⟩ := of_decide_eq_true hprogrammed
  exact ⟨s, hs, hbuiltIn, hkeys, hexternal, compileSettings_programs hs⟩

end Instrument

end RackMap
