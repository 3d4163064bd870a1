/-
What a compiled config says of the references of its leaves.

References are checked through the edges, and a leaf has an edge for each port-clock that it lists. So of a leaf with a
port-clock the channel and the oscillator are described (`compile_leaf_references`), while a leaf that lists none has no
edge, and may name anything: `emptyLeavesConfig_compiles` is a config with two such leaves.
-/
import Mathlib.Tactic
import RackMap.Proofs.Compilation
import RackMap.Proofs.Wiring.Leaves

namespace RackMap

open RackMap.Wiring (Reached leafKey leafEdges leavesOfRoot)

/-- what a leaf refers to is described -/
structure ChannelWiring.Described (inv : Inventory) (path : ChannelPath) (wiring : ChannelWiring) : Prop where
  channel : ∃ channel, inv.channel? path = some channel
  oscillator : ∀ name, wiring.lo? = some name → ∃ o, inv.oscillator? name = some o

variable {config : Config} {settings : Settings} {m : CompiledMap} {root : Table String Json} {path : String}
  {members : List (String × Json)} {inv : Inventory} {wiring : ChannelWiring} {entry : PortClockEntry}

/-- one edge that fits is enough to know its leaf -/
theorem ChannelWiring.described_of_fits (hread : ofJson (.obj members) = .ok wiring)
    (hfits : ∀ e ∈ leafEdges ⟨⟨path⟩, .obj members⟩, ∃ channel, Crosscheck.Fits inv e channel)
    (hentry : entry ∈ wiring.portClocks) : wiring.Described inv ⟨path⟩ := by
  rw [Wiring.leafEdges_of_ofJson hread] at hfits
  obtain ⟨channel, hchannel⟩ := hfits _ (List.mem_map_of_mem hentry)
  refine ⟨⟨channel, hchannel.described⟩, fun name hname => ?_⟩
  obtain ⟨-, -, hoscillator⟩ := hchannel.oscillator name hname
  exact hoscillator

/-- **The references of a leaf.** On a config that compiles every object that holds `portclock_configs` is read as a
leaf; if it lists a port-clock, its path is a described channel and its oscillator is described, and if it lists none,
the map has nothing from it. -/
theorem compile_leaf_references (h : compile config settings = .ok m) (hpaths : config.connectivity = .paths root)
    (hreached : Reached root path (.obj members)) (hleaf : members.any (·.1 = leafKey) = true) :
    ∃ inv wiring, Inventory.build config.description m.backend = .ok inv ∧
      ChannelWiring.ofJson (.obj members) = .ok wiring ∧
      (wiring.portClocks ≠ [] → wiring.Described inv ⟨path⟩) ∧
      (wiring.portClocks = [] → leafEdges ⟨⟨path⟩, .obj members⟩ = []) := by
  obtain ⟨p, warnings, hc⟩ := compile_compiled h
  have hbuild : Wiring.build (.paths root) = .ok p.wiring := by
    rw [← hpaths]
    exact hc.wiring
  have hin : ⟨⟨path⟩, .obj members⟩ ∈ leavesOfRoot root := Wiring.mem_leavesOfRoot_of_reached hbuild hreached hleaf
  obtain ⟨wiring, hread⟩ := Wiring.exists_wiring_of_build hbuild _ hin
  have hfits : ∀ e ∈ leafEdges ⟨⟨path⟩, .obj members⟩, ∃ channel, Crosscheck.Fits p.inventory e channel := by
    intro e he
    refine hc.fits e ?_
    rw [Wiring.build_edges hbuild]
    exact List.mem_flatMap.2 ⟨_, hin, he⟩
  refine ⟨p.inventory, wiring, hc.inventory, hread, fun hlisted => ?_, fun hempty => ?_⟩
  · obtain ⟨entry, hentry⟩ := List.exists_mem_of_ne_nil _ hlisted
    exact ChannelWiring.described_of_fits hread hfits hentry
  · rw [Wiring.leafEdges_of_ofJson hread, hempty, List.map_nil]

/-- a leaf with two port-clocks and an oscillator -/
theorem sharedConfig_leaf_references :
    ∃ m, compile (sharedConfig (some (.finite false 5)) none) {} = .ok m ∧
      ∃ (inv : Inventory) (wiring : ChannelWiring),
        Inventory.build (sharedConfig (some (.finite false 5)) none).description m.backend = .ok inv ∧
          wiring.lo? = some "lo0" ∧ wiring.Described inv ⟨"cluster0.module1.complex_output_0"⟩ := by
  obtain ⟨m, hm, -⟩ := exists_eq_ok (x := compile (sharedConfig (some (.finite false 5)) none) {}) (c := fun _ => true)
    (by decide +kernel)
  obtain ⟨inv, wiring, hinv, hread, hlisted, -⟩ := compile_leaf_references hm rfl
    ⟨_, List.mem_singleton_self _, .here _ _⟩ rfl
  cases hread
  exact ⟨m, hm, inv, _, hinv, rfl, hlisted (List.cons_ne_nil _ _)⟩

/-- a rack with one module, and two leaves without port-clocks: one on a module that is not there, one with an
oscillator that is not there -/
def emptyLeavesConfig : Config where
  backend := "quantify_scheduler.backends.qblox_backend.hardware_compile"
  description :=
    [("cluster0", { (default : InstrumentDescription) with type := "Cluster", modules? := some [("1", ⟨"QCM", []⟩)] })]
  options? := none
  connectivity := .paths [
    ("cluster0.module2.complex_output_0", .obj [("portclock_configs", .arr [])]),
    ("cluster0.module1.complex_output_0", .obj [("lo_name", .str "lo0"), ("portclock_configs", .arr [])])]

/-- leaves without port-clocks are not checked -/
theorem emptyLeavesConfig_compiles :
    ∃ m inv, compile emptyLeavesConfig {} = .ok m ∧ Inventory.build emptyLeavesConfig.description m.backend = .ok inv ∧
      ∃ root, emptyLeavesConfig.connectivity = .paths root ∧
        (∃ members, Reached root "cluster0.module2.complex_output_0" (.obj members) ∧
          members.any (·.1 = leafKey) = true ∧ inv.channel? ⟨"cluster0.module2.complex_output_0"⟩ = none) ∧
        ∃ members wiring, Reached root "cluster0.module1.complex_output_0" (.obj members) ∧
          members.any (·.1 = leafKey) = true ∧ ChannelWiring.ofJson (.obj members) = .ok wiring ∧
          wiring.lo? = some "lo0" ∧ inv.oscillator? "lo0" = none := by
  obtain ⟨m, hm, hbackend⟩ := exists_eq_ok (x := compile emptyLeavesConfig {}) (c := fun m => m.backend = .qblox)
    (by decide +kernel)
  obtain ⟨inv, hinv, hmissing⟩ := exists_eq_ok (x := Inventory.build emptyLeavesConfig.description .qblox)
    (c := fun inv => inv.channel? ⟨"cluster0.module2.complex_output_0"⟩ = none ∧ inv.oscillator? "lo0" = none)
    (by decide +kernel)
  obtain ⟨hchannel, hoscillator⟩ := of_decide_eq_true hmissing
  rw [← of_decide_eq_true hbackend] at hinv
  refine ⟨m, inv, hm, hinv, _, rfl, ⟨_, ⟨_, List.mem_cons_self, .here _ _⟩, rfl, hchannel⟩, ?_⟩
  exact ⟨_, ⟨[], some "lo0"⟩, ⟨_, List.mem_cons_of_mem _ List.mem_cons_self, .here _ _⟩, rfl, rfl, rfl,
    hoscillator⟩

end RackMap
