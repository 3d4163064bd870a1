/-
What a compilation reads of the options: those of the connected port-clocks, and nothing else.

`AgreeOn` says that two option tables give the same to every port-clock of the edges.
- `resolution_congr`, `firstConflict?_congr`: then oscillators get the same frequencies, and the same members disagree;
- `map_congr`: then the same channels are compiled.
-/
import Mathlib.Tactic
import RackMap.Proofs.CompiledMap
import RackMap.Proofs.Frequencies.Resolution

namespace RackMap

/-- two tables give the same options to every port-clock of the edges -/
def AgreeOn (edges : List Edge) (a b : OptionTable) : Prop :=
  ∀ e ∈ edges, a.corrections e.portClock = b.corrections e.portClock

variable {inv : Inventory} {a b : OptionTable} {wiring : Wiring} {settings : Settings} {r : Resolution}
  {edges : List Edge} {pc : PortClock}

theorem OptionTable.modulation_congr (h : a.corrections pc = b.corrections pc) : a.modulation pc = b.modulation pc := by
  rw [OptionTable.modulation, OptionTable.modulation, h]

/-! ## Frequencies -/

namespace LoGroup

variable {g : LoGroup}

theorem explicit_congr (h : ∀ pc ∈ g.members, a.corrections pc = b.corrections pc) : g.explicit a = g.explicit b := by
  refine List.filterMap_congr fun pc hpc => ?_
  rw [OptionTable.modulation_congr (h pc hpc)]

theorem settled_congr (h : ∀ pc ∈ g.members, a.corrections pc = b.corrections pc) : g.settled a = g.settled b := by
  rw [settled, settled, explicit_congr h]

theorem split_congr (h : a.corrections pc = b.corrections pc) : g.split a pc = g.split b pc := by
  rw [split, split, OptionTable.modulation_congr h]

theorem openOf_congr (h : g.split a pc = g.split b pc) : g.openOf a pc = g.openOf b pc := by
  rw [openOf, openOf, h]

end LoGroup

namespace Frequencies

/-- what becomes of settled groups is told by the frequencies of their members -/
theorem ofGroups_congr {groups : List LoGroup} (h : ∀ g ∈ groups, ∀ pc ∈ g.members, g.split a pc = g.split b pc) :
    ofGroups a groups = ofGroups b groups := by
  have hsplits : (groups.zipIdx.flatMap fun p => p.1.members.map fun pc => (pc, p.1.split a pc, p.2)) =
      groups.zipIdx.flatMap fun p => p.1.members.map fun pc => (pc, p.1.split b pc, p.2) := by
    refine List.flatMap_congr fun p hp => List.map_congr_left fun pc hpc => ?_
    rw [h p.1 (List.fst_mem_of_mem_zipIdx hp) pc hpc]
  have hopen : (groups.flatMap fun g => g.members.flatMap (g.openOf a)) =
      groups.flatMap fun g => g.members.flatMap (g.openOf b) := by
    refine List.flatMap_congr fun g hg => List.flatMap_congr fun pc hpc => ?_
    exact LoGroup.openOf_congr (h g hg pc hpc)
  exact congrArg₂ (Resolution.mk groups) hsplits hopen

/-- the members of a group are port-clocks of the edges -/
theorem agree_of_mem_fedMembers (h : AgreeOn edges a b) {feed : Feed} (hpc : pc ∈ fedMembers inv edges feed) :
    a.corrections pc = b.corrections pc := by
  obtain ⟨e, he, -, -, rfl⟩ := mem_fedMembers.1 hpc
  exact h e he

/-- **Frequencies.** They depend on the options of the connected port-clocks only. -/
theorem resolution_congr (h : AgreeOn edges a b) : resolution inv a edges = resolution inv b edges := by
  have hgroups :
      (feeds inv edges).map (settledGroup inv a edges) = (feeds inv edges).map (settledGroup inv b edges) := by
    refine List.map_congr_left fun feed _ => LoGroup.settled_congr fun pc hpc => ?_
    exact agree_of_mem_fedMembers h hpc
  rw [resolution, resolution, hgroups]
  refine ofGroups_congr fun g hg pc hpc => LoGroup.split_congr ?_
  obtain ⟨feed, -, rfl⟩ := List.mem_map.1 hg
  exact agree_of_mem_fedMembers h hpc

theorem requests_congr (h : AgreeOn edges a b) (lo : OscillatorRef) :
    requests inv a edges lo = requests inv b edges lo := by
  refine List.filterMap_congr fun pc hpc => ?_
  obtain ⟨e, he, -, -, rfl⟩ := mem_members.1 hpc
  rw [OptionTable.modulation_congr (h e he)]

theorem firstConflict?_congr (h : AgreeOn edges a b) : firstConflict? inv a edges = firstConflict? inv b edges := by
  rw [firstConflict?, firstConflict?]
  simp only [requests_congr h]

end Frequencies

/-! ## Channels -/

namespace Compile

theorem entries_congr (h : AgreeOn wiring.edges a b) (path : ChannelPath) :
    entries a wiring r path = entries b wiring r path := by
  refine List.map_congr_left fun pc hpc => ?_
  obtain ⟨e, he, -, rfl⟩ := mem_portClocksOn.1 hpc
  rw [h e he]

theorem channel_congr (h : AgreeOn wiring.edges a b) (path : ChannelPath) :
    channel inv a wiring settings r path = channel inv b wiring settings r path := by
  unfold channel
  rw [entries_congr h path]

/-- **Channels.** They depend on the options of the connected port-clocks only, and not on the warnings, which the map
keeps as they are. -/
theorem map_congr (h : AgreeOn wiring.edges a b) {ws ws' : List String} {m : CompiledMap}
    (hm : map inv a wiring settings r ws = .ok m) :
    map inv b wiring settings r ws' = .ok { m with warnings := ws' } := by
  have hchannel : channel inv b wiring settings r = channel inv a wiring settings r := by
    funext path
    exact (channel_congr h path).symm
  obtain ⟨channels, hchannels, hmap⟩ := bind_eq_ok_iff.1 hm
  cases hmap
  unfold map
  rw [hchannel, hchannels]
  rfl

end Compile

end RackMap
