/-
Every connected port-clock is compiled, once, and nothing else is.

`Covers` says so of a map and the edges of a wiring: the channels are those of the edges, each with the port-clocks of
its edges and the attributes of its description; a search finds the entry of a connected port-clock and no other.
`compile_covers` proves it for every config that compiles.
-/
import Mathlib.Tactic
import RackMap.Proofs.Compilation

namespace RackMap

/-- a map has the channels of the edges, with the port-clocks of the edges and the attributes of the inventory -/
structure Covers (edges : List Edge) (inv : Inventory) (m : CompiledMap) : Prop where
  keys : ∀ path, path ∈ m.channels.keys ↔ ∃ e ∈ edges, e.channel = path
  distinct : m.channels.keys.Nodup
  portClocks : ∀ path c, m.channel? path = some c →
    c.portClocks.map CompiledPortClock.portClock = (edges.filter fun e => e.channel = path).map Edge.portClock
  once : ∀ e ∈ edges, ∀ path c, m.channel? path = some c →
    (c.portClocks.map CompiledPortClock.portClock).count e.portClock = if path = e.channel then 1 else 0
  found : ∀ e ∈ edges, ∃ c entry, m.channel? e.channel = some c ∧ entry ∈ c.portClocks ∧
    entry.portClock = e.portClock ∧ m.find? e.portClock = some (e.channel, entry)
  absent : ∀ pc, pc ∉ edges.map Edge.portClock → m.find? pc = none
  described : ∀ path c, m.channel? path = some c → ∃ d, inv.channel? path = some d ∧ c.unitType = d.unitType ∧
    c.kind = d.kind ∧ c.direction = d.direction ∧ c.mixLo? = d.mixLo? ∧ c.downconverter? = d.downconverter? ∧
    c.markerDebug? = d.markerDebug?

variable {config : Config} {settings : Settings} {m : CompiledMap} {inv : Inventory} {options : OptionTable}
  {wiring : Wiring} {r : Resolution} {warnings : List String}

/-- a compiled map covers the wiring that it is compiled of -/
theorem map_covers (h : Compile.map inv options wiring settings r warnings = .ok m) : Covers wiring.edges inv m := by
  have hkeys : ∀ path, path ∈ m.channels.keys ↔ ∃ e ∈ wiring.edges, e.channel = path := by
    intro path
    rw [(Compile.keys_perm h).mem_iff, Compile.mem_channels]
  have hlisted : ∀ path c, m.channel? path = some c →
      c.portClocks.map CompiledPortClock.portClock = wiring.portClocksOn path := by
    intro path c hc
    obtain ⟨-, d, -, rfl⟩ := (Compile.channel?_eq_some_iff h).1 hc
    exact Compile.portClocks_entries options wiring r path
  refine ⟨hkeys, Compile.nodup_keys h, fun path c hc => (hlisted path c hc).trans (wiring.portClocksOn_eq path), ?_, ?_,
    ?_, ?_⟩
  · intro e he path c hc
    rw [hlisted path c hc]
    split
    · rename_i hpath
      exact List.count_eq_one_of_mem (Compile.nodup_portClocksOn wiring path)
        ((Compile.portClock_mem_portClocksOn he).2 hpath)
    · rename_i hpath
      exact List.count_eq_zero_of_not_mem fun hin => hpath ((Compile.portClock_mem_portClocksOn he).1 hin)
  · intro e he
    obtain ⟨c, hc, hentry⟩ := Compile.entry_of_edge h he
    exact ⟨c, _, hc, hentry, rfl, Compile.find?_of_edge h he⟩
  · intro pc hpc
    exact Compile.find?_eq_none h hpc
  · intro path c hc
    obtain ⟨-, d, hd, rfl⟩ := (Compile.channel?_eq_some_iff h).1 hc
    exact ⟨d, hd, rfl, rfl, rfl, rfl, rfl, rfl⟩

/-- **A compiled map covers its document.** The wiring has the edges that the connectivity spells out, and the map has
the channels and port-clocks of these edges, each once. -/
theorem compile_covers (h : compile config settings = .ok m) :
    ∃ inv wiring, Inventory.build config.description m.backend = .ok inv ∧
      Wiring.build config.connectivity = .ok wiring ∧ wiring.edges = config.connectivity.edges ∧
      Covers config.connectivity.edges inv m := by
  obtain ⟨p, warnings, hc⟩ := compile_compiled h
  refine ⟨p.inventory, p.wiring, hc.inventory, hc.wiring, hc.edges, ?_⟩
  rw [← hc.edges]
  exact map_covers hc.map

/-- two port-clocks on one channel -/
theorem sharedConfig_covered :
    ∃ m, compile (sharedConfig (some (.finite false 5)) none) {} = .ok m ∧
      (m.channels.map fun q => (q.1, q.2.portClocks.map CompiledPortClock.portClock)) =
        [(⟨"cluster0.module1.complex_output_0"⟩, [⟨"q0:mw", "q0.01"⟩, ⟨"q1:mw", "q1.01"⟩])] ∧
      ∃ inv wiring, Inventory.build (sharedConfig (some (.finite false 5)) none).description m.backend = .ok inv ∧
        Wiring.build (sharedConfig (some (.finite false 5)) none).connectivity = .ok wiring ∧
        wiring.edges = (sharedConfig (some (.finite false 5)) none).connectivity.edges ∧
        Covers (sharedConfig (some (.finite false 5)) none).connectivity.edges inv m := by
  obtain ⟨m, hm, hlisted⟩ := exists_eq_ok (x := compile (sharedConfig (some (.finite false 5)) none) {})
    (c := fun m => (m.channels.map fun q => (q.1, q.2.portClocks.map CompiledPortClock.portClock)) =
      [(⟨"cluster0.module1.complex_output_0"⟩, [⟨"q0:mw", "q0.01"⟩, ⟨"q1:mw", "q1.01"⟩])])
    (by decide +kernel)
  exact ⟨m, hm, of_decide_eq_true hlisted, compile_covers hm⟩

end RackMap
