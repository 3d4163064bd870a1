/-
The unit behind a channel of a compiled map.

`ProvidedBy` says what `Placed` leaves out: that the unit is declared in the description, and that the kind and the
direction of the channel are those of its slot.
- `Compiled.exists_provided`: every channel of a compiled map is provided by a declared unit;
- `Compiled.eq_of_name_eq`: channels of one unit have different names;
- `Compiled.isOutput_eq`: on a Qblox unit, the name of a channel tells its direction;
- `exists_device_of_zhinst`: the unit of a channel of a Zurich Instruments map is an instrument, under its name.
-/
import Mathlib.Tactic
import RackMap.Proofs.Numbers

namespace RackMap

variable {config : Config} {p : Parsed} {warnings : List String} {m : CompiledMap} {backend : Backend}
  {description : HardwareDescription} {u : DeclaredUnit} {slot : ChannelSlot} {q q' : ChannelPath × CompiledChannel}

/-- a channel that a declared unit provides in a slot -/
structure ProvidedBy (backend : Backend) (description : HardwareDescription) (u : DeclaredUnit) (slot : ChannelSlot)
    (q : ChannelPath × CompiledChannel) : Prop where
  declared : u ∈ Inventory.declaredUnits backend description
  known : slot ∈ u.type.channels
  path : q.1 = .ofSegments [u.path, slot.name]
  unitType : q.2.unitType = u.type.name
  kind : u.kind? slot = some q.2.kind
  direction : q.2.direction = slot.direction

/-- **Units of channels.** -/
theorem Compiled.exists_provided (hc : Compiled config p warnings m) (hbackend : m.backend = backend)
    (hq : q ∈ m.channels) : ∃ u slot, ProvidedBy backend config.description u slot q := by
  subst hbackend
  obtain ⟨-, described, hdescribed, hchannel⟩ := (Compile.channel?_eq_some_iff hc.map).1 (hc.channel?_of_mem hq)
  obtain ⟨u, hu, hclean, hin⟩ := Inventory.exists_unit_of_channel? hc.inventory hdescribed
  rw [Inventory.described_eq_provided (Inventory.types_mem u hu) hclean] at hin
  obtain ⟨slot, hslot, hprovided⟩ := Inventory.mem_provided.1 hin
  have hpath : described.path = q.1 := by
    obtain ⟨unit, type, -, slot', -, hfrom, hpath⟩ := Inventory.exists_slot hc.inventory hdescribed
    rw [hfrom.path, hpath]
  rw [Inventory.path_of_provided? hprovided] at hpath
  obtain ⟨kind, hkind, rfl⟩ := Option.map_eq_some_iff.1 hprovided
  refine ⟨u, slot, hu, hslot, hpath.symm, ?_, ?_, ?_⟩
  · rw [hchannel]
    rfl
  · rw [hchannel]
    exact hkind
  · rw [hchannel]
    rfl

namespace ProvidedBy

theorem type_mem (h : ProvidedBy backend description u slot q) : u.type ∈ backend.unitTypes :=
  Inventory.types_mem u h.declared

theorem dot_notMem (h : ProvidedBy backend description u slot q) : '.' ∉ slot.name.toList :=
  Inventory.dot_notMem_slot backend u.type h.type_mem slot h.known

theorem parent?_eq (h : ProvidedBy backend description u slot q) : q.1.parent? = some u.path := by
  rw [h.path, ChannelPath.parent?_ofSegments h.dot_notMem]

theorem name_eq (h : ProvidedBy backend description u slot q) : q.1.name = slot.name := by
  rw [h.path, ChannelPath.name_ofSegments h.dot_notMem]

/-- the type that is found under the name on the map -/
theorem unitType?_eq (h : ProvidedBy backend description u slot q) : backend.unitType? q.2.unitType = some u.type := by
  have hfound : ∀ backend : Backend, ∀ type ∈ backend.unitTypes, backend.unitType? type.name = some type := by
    intro backend
    cases backend <;> decide
  rw [h.unitType]
  exact hfound backend u.type h.type_mem

end ProvidedBy

/-- **A channel is told** by its unit and its name. -/
theorem Compiled.eq_of_name_eq (hc : Compiled config p warnings m) (hq : q ∈ m.channels) (hq' : q' ∈ m.channels)
    (hparent : q.1.parent? = q'.1.parent?) (hname : q.1.name = q'.1.name) : q = q' := by
  obtain ⟨u, slot, h⟩ := hc.exists_provided rfl hq
  obtain ⟨u', slot', h'⟩ := hc.exists_provided rfl hq'
  rw [h.parent?_eq, h'.parent?_eq, Option.some.injEq] at hparent
  rw [h.name_eq, h'.name_eq] at hname
  have hpath : q.1 = q'.1 := by rw [h.path, h'.path, hparent, hname]
  have hchannel : m.channel? q.1 = some q'.2 := by
    rw [hpath]
    exact hc.channel?_of_mem hq'
  rw [hc.channel?_of_mem hq, Option.some.injEq] at hchannel
  exact Prod.ext hpath hchannel

/-! ## Qblox -/

theorem isOutput_slot : ∀ type ∈ Backend.qblox.unitTypes, ∀ slot ∈ type.channels,
    Instrument.Qblox.isOutput slot.name = decide (slot.direction = .output) := by
  decide

/-- the kinds of Qblox channels are fixed -/
theorem kind?_slot : ∀ type ∈ Backend.qblox.unitTypes, ∀ slot ∈ type.channels, slot.kind? ≠ none := by
  decide

namespace ProvidedBy

theorem isOutput_eq (h : ProvidedBy .qblox description u slot q) :
    Instrument.Qblox.isOutput q.1.name = decide (q.2.direction = .output) := by
  rw [h.name_eq, h.direction]
  exact isOutput_slot u.type h.type_mem slot h.known

theorem kind_eq (h : ProvidedBy .qblox description u slot q) : slot.kind? = some q.2.kind := by
  obtain ⟨kind, hkind⟩ := Option.ne_none_iff_exists'.1 (kind?_slot u.type h.type_mem slot h.known)
  have hprovided := h.kind
  rw [DeclaredUnit.kind?, hkind, Option.some_or] at hprovided
  rw [hkind, hprovided]

end ProvidedBy

/-- the generator reads the direction of a channel off its name -/
theorem Compiled.isOutput_eq (hc : Compiled config p warnings m) (hbackend : m.backend = .qblox) (hq : q ∈ m.channels) :
    Instrument.Qblox.isOutput q.1.name = decide (q.2.direction = .output) := by
  obtain ⟨u, slot, hprovided⟩ := hc.exists_provided hbackend hq
  exact hprovided.isOutput_eq

/-! ## Zurich Instruments -/

/-- there are no composite instruments, so a unit is an instrument -/
theorem exists_device_of_zhinst (h : ProvidedBy .zhinst description u slot q) : u.path ∈ description.keys := by
  have hsingle : ∀ type ∈ Backend.zhinst.unitTypes, type.moduleTypes = [] := by decide
  obtain ⟨entry, hentry, hu⟩ := List.mem_flatMap.1 h.declared
  obtain ⟨type, htype, ⟨-, htaken, -⟩ | ⟨-, -, hname, -⟩⟩ := Inventory.unitsOf_cases hu
  · rw [hsingle type (Inventory.unitType?_mem htype)] at htaken
    cases htaken
  · rw [hname]
    exact List.mem_map_of_mem hentry

end RackMap
