/-
The channels of a compiled map, as the generators find them.

A generator takes the path of a channel apart again: the unit before the last dot, the name of the channel behind it, and
the number at the end of the name. `Placed` says that the path was put together from a unit and a slot of the catalogue,
so that all of this can be read, and that an integrated oscillator is one of this unit.
- `exists_placed`: every channel of a compiled map is placed;
- `exists_ioIndex_of_placed`: a channel of a Qblox unit has a number;
- `index_lt_of_placed`: its unit has two integrated oscillators at most, and a Zurich Instruments unit has none
  (`not_integrated_of_placed`).
-/
import Mathlib.Tactic
import RackMap.Instrument.Qblox
import RackMap.Proofs.ClosedForm
import RackMap.Proofs.Inventory.Slots
import RackMap.Proofs.Oscillators

namespace RackMap

/-! ## Paths -/

namespace ChannelPath

variable {unit name : String}

theorem cutLast?_ofSegments (h : '.' ∉ name.toList) :
    Text.cutLast? '.' (ofSegments [unit, name]).text = some (unit, name) := by
  have htext : (ofSegments [unit, name]).text.toList = unit.toList ++ '.' :: name.toList := by
    simp [ofSegments, Text.join]
  rw [Text.cutLast?, htext, Text.cutLast_append _ h]
  simp

theorem name_ofSegments (h : '.' ∉ name.toList) : (ofSegments [unit, name]).name = name := by
  rw [ChannelPath.name, cutLast?_ofSegments h]
  rfl

theorem parent?_ofSegments (h : '.' ∉ name.toList) : (ofSegments [unit, name]).parent? = some unit := by
  rw [parent?, cutLast?_ofSegments h]
  rfl

end ChannelPath

/-! ## Channels -/

/-- a channel on a unit, provided by a slot that the vendor knows -/
structure Placed (backend : Backend) (unit : String) (slot : ChannelSlot) (q : ChannelPath × CompiledChannel) : Prop where
  path : q.1 = .ofSegments [unit, slot.name]
  type : ∃ type ∈ backend.unitTypes, slot ∈ type.channels ∧ q.2.unitType = type.name
  /-- an integrated oscillator is the one that the slot has, on this unit -/
  integrated : ∀ module index, q.2.oscillator?.map CompiledOscillator.lo = some (.integrated module index) →
    module = unit ∧ slot.oscillator? = some index

variable {config : Config} {p : Parsed} {warnings : List String} {m : CompiledMap} {backend : Backend} {unit : String}
  {slot : ChannelSlot} {q : ChannelPath × CompiledChannel}

/-- an edge is fed by an integrated oscillator only if that is built into its channel -/
theorem oscillator?_of_effectiveLo? {channel : Channel} {e : Edge} {module : String} {index : Nat}
    (h : Frequencies.effectiveLo? channel e = some (.integrated module index)) :
    channel.oscillator? = some (.integrated module index) := by
  unfold Frequencies.effectiveLo? at h
  cases hbuilt : channel.oscillator? with
  | some lo =>
    rw [hbuilt, Option.some_or] at h
    exact h
  | none =>
    rw [hbuilt, Option.none_or] at h
    obtain ⟨name, -, hname⟩ := Option.map_eq_some_iff.1 h
    cases hname

theorem Compiled.channel?_of_mem (hc : Compiled config p warnings m) (hq : q ∈ m.channels) :
    m.channel? q.1 = some q.2 :=
  Table.lookup?_of_mem (Compile.nodup_keys hc.map) hq

/-- a channel of a map has the oscillator of an edge on it, with the frequency and the power of that oscillator -/
theorem Compiled.exists_edge_of_mem (hc : Compiled config p warnings m) (hq : q ∈ m.channels) :
    ∃ e ∈ p.wiring.edges, e.channel = q.1 ∧
      q.2.oscillator? = (e.fedBy? p.inventory).map (Compile.oscillator p.inventory p.resolution) := by
  have hchannel := hc.channel?_of_mem hq
  obtain ⟨⟨e, he, hpath⟩, -⟩ := (Compile.channel?_eq_some_iff hc.map).1 hchannel
  rw [← hpath] at hchannel
  exact ⟨e, he, hpath, hc.oscillator?_eq hchannel he⟩

/-- **Places.** -/
theorem Compiled.exists_placed (hc : Compiled config p warnings m) (hq : q ∈ m.channels) :
    ∃ unit slot, Placed m.backend unit slot q := by
  obtain ⟨path, channel⟩ := q
  have hchannel : m.channel? path = some channel := hc.channel?_of_mem hq
  obtain ⟨⟨e, he, rfl⟩, described, hdescribed, heq⟩ := (Compile.channel?_eq_some_iff hc.map).1 hchannel
  obtain ⟨unit, type, htype, slot, hslot, hfrom, hpath⟩ := Inventory.exists_slot hc.inventory hdescribed
  have hunit : channel.unitType = type.name := by
    rw [heq]
    exact hfrom.unitType
  refine ⟨unit, slot, hpath, ⟨type, htype, hslot, hunit⟩, fun module index hlo => ?_⟩
  rw [hc.lo_of_oscillator? hchannel he, Edge.fedBy?, hdescribed, Option.bind_some] at hlo
  have hbuilt := oscillator?_of_effectiveLo? hlo
  rw [hfrom.oscillator, Option.map_eq_some_iff] at hbuilt
  obtain ⟨index', hindex, heq⟩ := hbuilt
  cases heq
  exact ⟨rfl, hindex⟩

namespace Placed

theorem dot_notMem (h : Placed backend unit slot q) : '.' ∉ slot.name.toList := by
  obtain ⟨type, htype, hslot, -⟩ := h.type
  exact Inventory.dot_notMem_slot backend type htype slot hslot

/-- the module that a generator reads off the path is the unit -/
theorem parent?_eq (h : Placed backend unit slot q) : q.1.parent? = some unit := by
  rw [h.path, ChannelPath.parent?_ofSegments h.dot_notMem]

theorem name_eq (h : Placed backend unit slot q) : q.1.name = slot.name := by
  rw [h.path, ChannelPath.name_ofSegments h.dot_notMem]

end Placed

/-! ## Vendors -/

theorem ioIndex?_slot : ∀ type ∈ Backend.qblox.unitTypes, ∀ slot ∈ type.channels,
    (Instrument.Qblox.ioIndex? slot.name).isSome = true := by
  decide

/-- no Qblox module has more than two oscillators -/
theorem index_lt_slot : ∀ type ∈ Backend.qblox.unitTypes, ∀ slot ∈ type.channels,
    ∀ index ∈ slot.oscillator?, index < 2 := by
  decide

theorem slot_oscillator?_zhinst : ∀ type ∈ Backend.zhinst.unitTypes, ∀ slot ∈ type.channels,
    slot.oscillator? = none := by
  decide

theorem exists_ioIndex_of_placed (h : Placed .qblox unit slot q) :
    ∃ index, Instrument.Qblox.ioIndex? q.1.name = some index := by
  obtain ⟨type, htype, hslot, -⟩ := h.type
  rw [h.name_eq]
  exact Option.isSome_iff_exists.1 (ioIndex?_slot type htype slot hslot)

theorem index_lt_of_placed (h : Placed .qblox unit slot q) {index : Nat} (hindex : slot.oscillator? = some index) :
    index < 2 := by
  obtain ⟨type, htype, hslot, -⟩ := h.type
  exact index_lt_slot type htype slot hslot index hindex

theorem not_integrated_of_placed (h : Placed .zhinst unit slot q) (module : String) (index : Nat) :
    q.2.oscillator?.map CompiledOscillator.lo ≠ some (.integrated module index) := by
  intro hlo
  obtain ⟨type, htype, hslot, -⟩ := h.type
  obtain ⟨-, hindex⟩ := h.integrated module index hlo
  rw [slot_oscillator?_zhinst type htype slot hslot] at hindex
  cases hindex

end RackMap
