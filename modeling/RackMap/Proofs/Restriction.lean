/-
Oscillators do not influence each other.

A config is compared with one that keeps some of its leaves only, all or none of those that one oscillator feeds.
`Restricts` says what the documents of the two have in common.
- `Restricts.accepted`: what is accepted stays so, as long as options that are left over are no error;
- `Restricts.channelAt_eq`: a channel that is kept is compiled as before, with the frequencies of its oscillator;
- `compile_restricted`: so the smaller config compiles to the part of the map at the paths that are kept.
-/
import Mathlib.Tactic
import RackMap.Proofs.Frequencies.Restriction
import RackMap.Proofs.SettingsFrame
import RackMap.Proofs.Wiring.Pruned
import RackMap.Proofs.Wiring.Sound

namespace RackMap

/-! ## Configs with some of the leaves -/

/-- the same config, but for the leaves at paths that are not wanted -/
structure Config.KeepsOnly (config kept : Config) (wanted : ChannelPath → Bool) : Prop where
  backend : kept.backend = config.backend
  description : kept.description = config.description
  options : kept.options? = config.options?
  leaves : ∃ root root', config.connectivity = .paths root ∧ kept.connectivity = .paths root' ∧
    Wiring.leavesOfRoot root' = (Wiring.leavesOfRoot root).filter fun leaf => wanted leaf.path

/-- the connectivity without the leaves that are not wanted; a list of devices has none -/
def Connectivity.keepLeaves (wanted : ChannelPath → Bool) : Connectivity → Connectivity
  | .paths root => .paths (Wiring.pruneRoot wanted root)
  | .devices listed => .devices listed

/-- the config without the leaves that are not wanted -/
def Config.keepLeaves (config : Config) (wanted : ChannelPath → Bool) : Config :=
  { config with connectivity := config.connectivity.keepLeaves wanted }

/-- what the documents of a config and of a part of it have in common -/
structure Parsed.Restricts (p p' : Parsed) (wanted : ChannelPath → Bool) : Prop where
  settings : p'.settings = p.settings
  inventory : p'.inventory = p.inventory
  options : p'.options = p.options
  edges : p'.wiring.edges = p.wiring.edges.filter fun e => wanted e.channel

variable {config kept : Config} {settings : Settings} {p p' : Parsed} {m : CompiledMap} {inv : Inventory}
  {wanted : ChannelPath → Bool} {root : Table String Json} {path : ChannelPath} {e : Edge} {lo : OscillatorRef}

theorem Config.keepsOnly_keepLeaves (h : config.connectivity = .paths root) (wanted : ChannelPath → Bool) :
    config.KeepsOnly (config.keepLeaves wanted) wanted := by
  refine ⟨rfl, rfl, rfl, root, Wiring.pruneRoot wanted root, h, ?_, Wiring.leavesOfRoot_pruneRoot wanted root⟩
  simp only [Config.keepLeaves, h, Connectivity.keepLeaves]

/-- a part of a connectivity is read if the whole is, and has the edges on the channels that are kept -/
theorem Wiring.exists_build_restricted {root root' : Table String Json} {w : Wiring}
    (hw : build (.paths root) = .ok w)
    (hleaves : leavesOfRoot root' = (leavesOfRoot root).filter fun leaf => wanted leaf.path) :
    ∃ w', build (.paths root') = .ok w' ∧ w'.edges = w.edges.filter fun e => wanted e.channel := by
  obtain ⟨hsound, hedges⟩ := build_paths_eq_ok_iff.1 hw
  have hkept : (leavesOfRoot root').flatMap leafEdges = w.edges.filter fun e => wanted e.channel := by
    rw [hedges, filter_leafEdges, hleaves]
  have hdistinct : (((leavesOfRoot root').flatMap leafEdges).map Edge.portClock).Nodup := by
    rw [hkept]
    exact w.distinct.sublist (List.filter_sublist.map Edge.portClock)
  refine ⟨.ofDistinct _ hdistinct, build_paths_eq_ok_iff.2 ⟨?_, rfl⟩, hkept⟩
  rw [hleaves]
  exact hsound.filter _

theorem Config.KeepsOnly.exists_parsed (h : config.KeepsOnly kept wanted)
    (hp : Parsed.ofConfig config settings = .ok p) :
    ∃ p', Parsed.ofConfig kept settings = .ok p' ∧ p.Restricts p' wanted := by
  obtain ⟨backend, hbackend, hinventory, hoptions, hwiring, rfl⟩ := Parsed.ofConfig_eq_ok_iff.1 hp
  obtain ⟨root, root', hroot, hroot', hleaves⟩ := h.leaves
  rw [hroot] at hwiring
  obtain ⟨wiring', hwiring', hedges⟩ := Wiring.exists_build_restricted hwiring hleaves
  have hgiven : Parsed.optionsOf kept = Parsed.optionsOf config := by
    rw [Parsed.optionsOf, Parsed.optionsOf, h.options]
  refine ⟨⟨p.settings, p.inventory, p.options, wiring'⟩, ?_, rfl, rfl, rfl, hedges⟩
  rw [← hroot'] at hwiring'
  rw [← h.backend] at hbackend
  rw [← h.description] at hinventory
  rw [← hgiven] at hoptions
  exact Parsed.ofConfig_eq_ok_iff.2 ⟨backend, hbackend, hinventory, hoptions, hwiring', rfl⟩

/-! ## Documents with some of the edges -/

namespace Parsed.Restricts

theorem mem_edges_iff (h : p.Restricts p' wanted) :
    e ∈ p'.wiring.edges ↔ e ∈ p.wiring.edges ∧ wanted e.channel = true := by
  rw [h.edges, List.mem_filter]

theorem channels_eq (h : p.Restricts p' wanted) : p'.wiring.channels = p.wiring.channels.filter wanted := by
  rw [Wiring.channels_eq, Wiring.channels_eq, ← Wiring.firsts_filter, List.filter_map, h.edges]
  rfl

/-- a channel that is kept has the same port-clocks -/
theorem portClocksOn_eq (h : p.Restricts p' wanted) (hwanted : wanted path = true) :
    p'.wiring.portClocksOn path = p.wiring.portClocksOn path := by
  rw [Wiring.portClocksOn_eq, Wiring.portClocksOn_eq, h.edges, List.filter_filter]
  refine congrArg (List.map Edge.portClock) (List.filter_congr fun e _ => ?_)
  by_cases hpath : e.channel = path <;> simp [hpath, hwanted]

theorem linked (h : p.Restricts p' wanted) (hpolicy : p.settings.unusedOptions ≠ .error) (hlinked : p.Linked) :
    p'.Linked := by
  rw [Parsed.Linked, h.inventory, h.settings]
  constructor
  · intro e he
    exact hlinked.edges e (h.mem_edges_iff.1 he).1
  · intro herror
    exact absurd herror hpolicy

theorem spacious (h : p.Restricts p' wanted) (hspacious : p.Spacious) : p'.Spacious := by
  rintro path channel ⟨hdescribed, hkind, hmany⟩
  rw [h.inventory] at hdescribed
  have hfewer : (p'.wiring.portClocksOn path).Sublist (p.wiring.portClocksOn path) := by
    rw [Wiring.portClocksOn_eq, Wiring.portClocksOn_eq, h.edges]
    exact (List.filter_sublist.filter _).map Edge.portClock
  exact hspacious path channel ⟨hdescribed, hkind, hmany.trans_le hfewer.length_le⟩

theorem agreed (h : p.Restricts p' wanted) (hagreed : p.Agreed) : p'.Agreed := by
  intro lo
  rw [h.inventory, h.options, h.edges]
  exact Frequencies.agreed_restrict (hagreed lo)

/-! ## Channels -/

variable (hclosed : Frequencies.Closed p.inventory p.wiring.edges fun e => wanted e.channel)

include hclosed

theorem resolution_split_eq (h : p.Restricts p' wanted) (he : e ∈ p.wiring.edges) (hwanted : wanted e.channel = true) :
    p'.resolution.split e.portClock = p.resolution.split e.portClock := by
  rw [Parsed.resolution, h.inventory, h.options, h.edges]
  exact Frequencies.split_restrict hclosed p.wiring.distinct he hwanted

/-- the port-clocks on a channel that is kept have the same entries -/
theorem entries_eq (h : p.Restricts p' wanted) (hwanted : wanted path = true) :
    Compile.entries p'.options p'.wiring p'.resolution path = Compile.entries p.options p.wiring p.resolution path := by
  rw [Compile.entries, Compile.entries, h.portClocksOn_eq hwanted, h.options]
  refine List.map_congr_left fun pc hpc => ?_
  obtain ⟨e, he, rfl, rfl⟩ := Compile.mem_portClocksOn.1 hpc
  rw [h.resolution_split_eq hclosed he hwanted]

/-- an edge that is kept is fed by the same oscillator, at the same frequency -/
theorem oscillator_eq (h : p.Restricts p' wanted) (he : e ∈ p.wiring.edges) (hwanted : wanted e.channel = true) :
    (p'.resolution.lo? e.portClock).map (Compile.oscillator p'.inventory p'.resolution) =
      (p.resolution.lo? e.portClock).map (Compile.oscillator p.inventory p.resolution) := by
  have he' : e ∈ p'.wiring.edges := h.mem_edges_iff.2 ⟨he, hwanted⟩
  rw [Parsed.resolution, Parsed.resolution, Frequencies.lo?_resolution p.wiring.distinct he,
    Frequencies.lo?_resolution p'.wiring.distinct he', h.inventory]
  split
  · cases hlo : e.fedBy? p.inventory with
    | none => rfl
    | some lo =>
      have hrequests : Frequencies.requests p.inventory p'.options p'.wiring.edges lo =
          Frequencies.requests p.inventory p.options p.wiring.edges lo := by
        rw [h.options, h.edges]
        exact Frequencies.requests_restrict hclosed p.wiring.distinct he hwanted hlo
      simp only [Option.map_some, Compile.oscillator, Frequencies.frequency?_resolution, Frequencies.firstRequest?,
        hrequests]
  · rfl

/-- **A channel that is kept** is compiled as before. -/
theorem channelAt_eq (h : p.Restricts p' wanted) (hwanted : wanted path = true) :
    Compile.channelAt p'.inventory p'.options p'.wiring p'.resolution path =
      Compile.channelAt p.inventory p.options p.wiring p.resolution path := by
  have hfed : ((p'.wiring.portClocksOn path).head?.bind p'.resolution.lo?).map
        (Compile.oscillator p'.inventory p'.resolution) =
      ((p.wiring.portClocksOn path).head?.bind p.resolution.lo?).map
        (Compile.oscillator p.inventory p.resolution) := by
    rw [h.portClocksOn_eq hwanted]
    cases hhead : (p.wiring.portClocksOn path).head? with
    | none => rfl
    | some pc =>
      obtain ⟨e, he, rfl, rfl⟩ := Compile.mem_portClocksOn.1 (List.mem_of_mem_head? hhead)
      exact h.oscillator_eq hclosed he hwanted
  have hdescribed : p'.inventory.channel? path = p.inventory.channel? path := by rw [h.inventory]
  simp only [Compile.channelAt, Compile.compiledChannel, hfed, hdescribed, h.entries_eq hclosed hwanted]

theorem accepted (h : p.Restricts p' wanted) (hpolicy : p.settings.unusedOptions ≠ .error) (haccepted : p.Accepted) :
    p'.Accepted where
  linked := h.linked hpolicy haccepted.linked
  spacious := h.spacious haccepted.spacious
  agreed := h.agreed haccepted.agreed
  distinct := by
    intro hsetting path hpath
    rw [h.channels_eq, List.mem_filter] at hpath
    rw [h.settings] at hsetting
    rw [h.entries_eq hclosed hpath.2]
    exact haccepted.distinct hsetting path hpath.1

/-! ## Maps -/

theorem channels_compiled (h : p.Restricts p' wanted) :
    p'.compiled.channels = p.compiled.channels.filter fun q => wanted q.1 := by
  have hpairs : (p'.wiring.channels.map fun path =>
        (path, Compile.channelAt p'.inventory p'.options p'.wiring p'.resolution path)) =
      (p.wiring.channels.map fun path =>
        (path, Compile.channelAt p.inventory p.options p.wiring p.resolution path)).filter fun q => wanted q.1 := by
    rw [h.channels_eq, List.filter_map]
    refine List.map_congr_left fun path hpath => ?_
    rw [h.channelAt_eq hclosed (List.mem_filter.1 hpath).2]
  simp only [Parsed.compiled, Compile.compiled]
  rw [hpairs, Table.sortedOfPairs_filter (Compile.nodup_paths_compiled p.wiring _)]

theorem unresolved_compiled (h : p.Restricts p' wanted) :
    p'.compiled.unresolved =
      p.compiled.unresolved.filter fun u => u.portClock ∈ p'.wiring.edges.map Edge.portClock := by
  simp only [Parsed.compiled, Compile.compiled, Parsed.resolution]
  rw [h.inventory, h.options, h.edges]
  exact Frequencies.unresolved_restrict hclosed p.wiring.distinct

end Parsed.Restricts

/-- **Oscillators do not influence each other.** If with a leaf all leaves are kept that its oscillator feeds, the part of
a config that compiles compiles, too. Its channels are those of the whole map at the paths that are kept, and its open
frequencies those of the port-clocks that are kept, in the same order. -/
theorem compile_restricted (h : compile config settings = .ok m) (hpolicy : settings.unusedOptions ≠ .error)
    (hinventory : Inventory.build config.description m.backend = .ok inv)
    (hclosed : Frequencies.Closed inv config.connectivity.edges fun e => wanted e.channel)
    (hkept : config.KeepsOnly kept wanted) :
    ∃ m', compile kept settings = .ok m' ∧ m'.backend = m.backend ∧
      m'.channels = m.channels.filter (fun q => wanted q.1) ∧
      m'.unresolved = m.unresolved.filter fun u => u.portClock ∈ kept.connectivity.edges.map Edge.portClock := by
  obtain ⟨p, hp, haccepted, rfl⟩ := compile_eq_ok_iff_accepted.1 h
  obtain ⟨p', hp', hrestricts⟩ := hkept.exists_parsed hp
  obtain ⟨backend, -, hinventory', -, hwiring, hsettings⟩ := Parsed.ofConfig_eq_ok_iff.1 hp
  obtain ⟨-, -, -, -, hwiring', -⟩ := Parsed.ofConfig_eq_ok_iff.1 hp'
  have hbackend : p.compiled.backend = backend := Inventory.backend_of_build hinventory'
  rw [hbackend, hinventory', Except.ok.injEq] at hinventory
  rw [← hinventory, ← Wiring.build_edges hwiring] at hclosed
  have hpolicy' : p.settings.unusedOptions ≠ .error := by
    rw [hsettings]
    exact Settings.sanitize_ne_error hpolicy
  refine ⟨p'.compiled, compile_eq_ok_iff_accepted.2 ⟨p', hp', hrestricts.accepted hclosed hpolicy' haccepted, rfl⟩,
    congrArg Inventory.backend hrestricts.inventory, hrestricts.channels_compiled hclosed, ?_⟩
  rw [← Wiring.build_edges hwiring']
  exact hrestricts.unresolved_compiled hclosed

/-- a leaf with one port-clock -/
def loneLeaf (lo port clock : String) : Json :=
  .obj [("lo_name", .str lo), ("portclock_configs", .arr [.obj [("port", .str port), ("clock", .str clock)]])]

/-- a rack with two oscillators that feed one channel each, at different frequencies -/
def separateConfig : Config :=
  { sharedConfig (some (.finite false 5)) (some (.finite false 6)) with
    description := (sharedConfig none none).description ++
      [("lo1", { (default : InstrumentDescription) with type := "LocalOscillator" })]
    connectivity := .paths [("cluster0", .obj [("module1", .obj
      [("complex_output_0", loneLeaf "lo0" "q0:mw" "q0.01"), ("complex_output_1", loneLeaf "lo1" "q1:mw" "q1.01")])])] }

/-- whether a path is that of the first channel -/
def isFirstOutput (path : ChannelPath) : Bool := path.text = "cluster0.module1.complex_output_0"

/-- the first channel is compiled alone as it is beside the other one -/
theorem separateConfig_restricted :
    ∃ m m', compile separateConfig {} = .ok m ∧ compile (separateConfig.keepLeaves isFirstOutput) {} = .ok m' ∧
      m.channels.length = 2 ∧ m'.channels = m.channels.filter fun q => isFirstOutput q.1 := by
  obtain ⟨m, hm, hcheck⟩ := exists_eq_ok (x := compile separateConfig {}) (c := fun m =>
    decide (m.channels.length = 2) && (Inventory.build separateConfig.description m.backend).toOption.any fun inv =>
      decide (∀ e ∈ separateConfig.connectivity.edges, ∀ e' ∈ separateConfig.connectivity.edges,
        e.fedBy? inv = e'.fedBy? inv → isFirstOutput e.channel = isFirstOutput e'.channel)) (by decide +kernel)
  obtain ⟨hlength, hfed⟩ := Bool.and_eq_true_iff.1 hcheck
  obtain ⟨inv, hinv, hfed⟩ := exists_eq_ok hfed
  have hclosed : Frequencies.Closed inv separateConfig.connectivity.edges fun e => isFirstOutput e.channel := by
    intro e he e' he' lo hlo hlo' hkept
    exact (of_decide_eq_true hfed e he e' he' (hlo.trans hlo'.symm)).symm.trans hkept
  obtain ⟨m', hm', -, hchannels, -⟩ := compile_restricted hm nofun hinv hclosed
    (Config.keepsOnly_keepLeaves rfl isFirstOutput)
  exact ⟨m, m', hm, hm', of_decide_eq_true hlength, hchannels⟩

end RackMap
