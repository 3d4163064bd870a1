/-
The slot behind a described channel.

- `exists_slot`: every described channel is what a slot of a type that the vendor knows makes of it, on the unit that its
  path names;
- `slot_of_channel?`: a path `unit.name` tells the unit and the name of the slot.
-/
import Mathlib.Tactic
import RackMap.Proofs.Inventory
import RackMap.Proofs.Wiring.Document

namespace RackMap.Inventory

variable {backend : Backend} {description : HardwareDescription} {inv : Inventory} {path : ChannelPath} {ch : Channel}
  {unit name : String} {type : UnitType} {slot : ChannelSlot}

/-- a channel that a slot makes on a unit of a type -/
structure FromSlot (unit : String) (type : UnitType) (slot : ChannelSlot) (ch : Channel) : Prop where
  path : ch.path = .ofSegments [unit, slot.name]
  unitType : ch.unitType = type.name
  oscillator : ch.oscillator? = slot.oscillator?.map (.integrated unit)
  /-- a digital channel is digital by its slot -/
  digital : ch.kind = .digital → slot.kind? = some .digital

theorem fromSlot_of_describeChannel {location : String} {description? : Option ChannelDescription}
    (h : (describeChannel unit type location slot description?).2 = some ch) : FromSlot unit type slot ch := by
  unfold describeChannel at h
  simp only at h
  split at h
  · cases h
  · cases h
  · rename_i kind hkind
    cases h
    refine ⟨rfl, rfl, rfl, fun hdigital => ?_⟩
    simp only at hdigital
    subst hdigital
    exact kind?_of_kindOf_digital hkind

/-- **Slots.** Every described channel comes from a slot of a type that the vendor knows. -/
theorem exists_slot (h : build description backend = .ok inv) (hch : inv.channel? path = some ch) :
    ∃ unit, ∃ type ∈ backend.unitTypes, ∃ slot ∈ type.channels, FromSlot unit type slot ch ∧
      path = .ofSegments [unit, slot.name] := by
  obtain ⟨hpath, unit, type, location, slot, description?, htype, hslot, hdescribe⟩ := build_provided h hch
  have hfrom := fromSlot_of_describeChannel hdescribe
  exact ⟨unit, type, htype, slot, hslot, hfrom, hpath.symm.trans hfrom.path⟩

/-- no slot has a dot in its name -/
theorem dot_notMem_slot : ∀ backend : Backend, ∀ type ∈ backend.unitTypes, ∀ slot ∈ type.channels,
    '.' ∉ slot.name.toList := by
  intro backend
  cases backend <;> decide

/-- the channel at `unit.name` comes from the slot with this name, on this unit -/
theorem slot_of_channel? (h : build description backend = .ok inv) (hname : '.' ∉ name.toList)
    (hch : inv.channel? (.ofSegments [unit, name]) = some ch) :
    ∃ type ∈ backend.unitTypes, ∃ slot ∈ type.channels, slot.name = name ∧ FromSlot unit type slot ch := by
  obtain ⟨unit', type, htype, slot, hslot, hfrom, hpath⟩ := exists_slot h hch
  obtain ⟨rfl, rfl⟩ := Wiring.ofSegments_inj hname (dot_notMem_slot backend type htype slot hslot) hpath
  exact ⟨type, htype, slot, hslot, rfl, hfrom⟩

end RackMap.Inventory
