/-
The units that a hardware description declares, and the channels that each of them provides.

`unitsOf` lists the units of one instrument: the instrument itself, or its modules if it is composite. `provided?` is
the channel of a unit in one slot, told from the type of the unit and from what its fields say of the slot.
- `described_eq_provided`: a unit that is described without a problem has exactly these channels;
- `nodup_paths_provided`: the channels of units at different paths have different paths.
-/
import Mathlib.Tactic
import RackMap.Inventory
import RackMap.Proofs.Outcome
import RackMap.Proofs.Table
import RackMap.Proofs.Wiring.Document

namespace RackMap

/-- a unit as a description declares it -/
structure DeclaredUnit where
  path : String
  type : UnitType
  fields : Table String Json
  /-- whether it is a module in a slot, or else an instrument of its own -/
  inSlot : Bool
  /-- where it is declared -/
  location : String

namespace DeclaredUnit

/-- what its fields say of a channel -/
def said? (u : DeclaredUnit) (name : String) : Option ChannelDescription :=
  (u.fields.lookup? name).bind fun json => (ChannelDescription.ofJson json).toOption

/-- the kind of a channel: the fixed one, or else the declared mode -/
def kind? (u : DeclaredUnit) (slot : ChannelSlot) : Option ChannelKind :=
  slot.kind?.or (((u.said? slot.name).bind ChannelDescription.mode?).bind ChannelKind.ofMode?)

/-- the channel that it provides in a slot, if that is in use -/
def provided? (u : DeclaredUnit) (slot : ChannelSlot) : Option Channel :=
  (u.kind? slot).map fun kind =>
    { path := ChannelPath.ofSegments [u.path, slot.name]
      kind := kind
      direction := slot.direction
      unitType := u.type.name
      oscillator? := slot.oscillator?.map (.integrated u.path)
      mixLo? := (u.said? slot.name).bind ChannelDescription.mixLo?
      downconverter? := (u.said? slot.name).bind ChannelDescription.downconverter?
      markerDebug? := (u.said? slot.name).bind ChannelDescription.markerDebug? }

/-- all channels that it provides -/
def provided (u : DeclaredUnit) : List Channel := u.type.channels.filterMap u.provided?

/-- what is wrong with its channels, and the channels -/
def described (u : DeclaredUnit) : Report × List Channel := describeUnit u.path u.type u.fields u.location

end DeclaredUnit

namespace Inventory

/-- the module that an entry puts into a slot of a composite instrument -/
def moduleUnit? (backend : Backend) (name : String) (composite : UnitType) (location : String)
    (entry : String × ModuleDescription) : Option DeclaredUnit :=
  match moduleName? entry.1, Draft.slotType? backend composite entry.2.type with
  | some moduleName, some type =>
    some ⟨s!"{name}.{moduleName}", type, entry.2.fields, true, s!"{location}.modules.{entry.1}"⟩
  | _, _ => none

/-- the units of an instrument of a known type: its modules if it is composite, or else itself -/
def typedUnits (backend : Backend) (name : String) (type : UnitType) (i : InstrumentDescription) (location : String) :
    List DeclaredUnit :=
  if type.isComposite then (i.modules?.getD []).filterMap (moduleUnit? backend name type location)
  else [⟨name, type, i.fields, false, location⟩]

/-- the units of one instrument -/
def unitsOf (backend : Backend) (entry : String × InstrumentDescription) : List DeclaredUnit :=
  match backend.unitType? entry.2.type with
  | none => []
  | some type => typedUnits backend entry.1 type entry.2 s!"hardware_description.{entry.1}"

/-- the units of a description, in its order -/
def declaredUnits (backend : Backend) (description : HardwareDescription) : List DeclaredUnit :=
  List.flatMap (unitsOf backend) description

variable {backend : Backend} {type : UnitType} {fields : Table String Json} {location unitPath : String}
  {slot : ChannelSlot} {description? : Option ChannelDescription} {kind? : Option ChannelKind} {u : DeclaredUnit}

/-- a module stands in a slot, and its type is one that the slot takes -/
theorem moduleUnit?_spec {name : String} {composite : UnitType} {entry : String × ModuleDescription}
    (h : moduleUnit? backend name composite location entry = some u) :
    u.inSlot = true ∧ u.type.name ∈ composite.moduleTypes ∧ u.type ∈ backend.unitTypes := by
  unfold moduleUnit? at h
  split at h
  · rename_i moduleName type hname htype
    cases h
    unfold Draft.slotType? at htype
    split at htype
    · rename_i htaken
      have hnamed : type.name = entry.2.type := by simpa using List.find?_some htype
      refine ⟨rfl, ?_, List.mem_of_find?_eq_some htype⟩
      rw [hnamed]
      simpa using htaken
    · cases htype
  · cases h

theorem typedUnits_of_composite {name : String} {i : InstrumentDescription} (h : type.isComposite = true) :
    typedUnits backend name type i location =
      (i.modules?.getD []).filterMap (moduleUnit? backend name type location) := by
  rw [typedUnits, if_pos h]

theorem typedUnits_of_single {name : String} {i : InstrumentDescription} (h : type.isComposite = false) :
    typedUnits backend name type i location = [⟨name, type, i.fields, false, location⟩] := by
  rw [typedUnits, if_neg (by simp [h])]

theorem unitsOf_of_type {entry : String × InstrumentDescription} (h : backend.unitType? entry.2.type = some type) :
    unitsOf backend entry = typedUnits backend entry.1 type entry.2 s!"hardware_description.{entry.1}" := by
  simp only [unitsOf, h]

/-- an oscillator has no units -/
theorem unitsOf_of_oscillator {entry : String × InstrumentDescription}
    (h : entry.2.type = Catalogue.oscillatorType) : unitsOf backend entry = [] := by
  have hnone : backend.unitType? Catalogue.oscillatorType = none := by cases backend <;> decide
  simp only [unitsOf, h, hnone]

/-- a unit of an instrument is a module of a type that the instrument takes, or the instrument itself, under its name -/
theorem unitsOf_cases {entry : String × InstrumentDescription} (h : u ∈ unitsOf backend entry) :
    ∃ type, backend.unitType? entry.2.type = some type ∧
      (u.inSlot = true ∧ u.type.name ∈ type.moduleTypes ∧ u.type ∈ backend.unitTypes ∨
        u.inSlot = false ∧ u.type = type ∧ u.path = entry.1 ∧ unitsOf backend entry = [u]) := by
  cases htype : backend.unitType? entry.2.type with
  | none => simp [unitsOf, htype] at h
  | some type =>
    refine ⟨type, rfl, ?_⟩
    rw [unitsOf_of_type htype] at h ⊢
    cases hcomposite : type.isComposite with
    | true =>
      rw [typedUnits_of_composite hcomposite] at h
      obtain ⟨slot, -, hu⟩ := List.mem_filterMap.1 h
      exact Or.inl (moduleUnit?_spec hu)
    | false =>
      rw [typedUnits_of_single hcomposite] at h ⊢
      obtain rfl := List.mem_singleton.1 h
      exact Or.inr ⟨rfl, rfl, rfl, rfl⟩

/-! ## Slots -/

theorem slots_wellFormed : ∀ backend : Backend, ∀ type ∈ backend.unitTypes,
    (type.channels.map ChannelSlot.name).Nodup ∧ ∀ slot ∈ type.channels, Catalogue.isChannelName slot.name = true := by
  intro backend
  cases backend <;> decide

theorem declaredMode_eq_ok {mode? : Option String} (h : declaredMode mode? = .ok kind?) :
    kind? = mode?.bind ChannelKind.ofMode? := by
  cases mode? with
  | none => cases h; rfl
  | some mode =>
    rw [declaredMode] at h
    rw [Option.bind_some]
    cases hkind : ChannelKind.ofMode? mode with
    | none => rw [hkind] at h; cases h
    | some kind => rw [hkind] at h; cases h; rfl

/-- the kind of a channel is the fixed one, or else the declared one: they do not differ where both are there -/
theorem kindOf_eq_ok (h : kindOf slot description? = .ok kind?) :
    kind? = slot.kind?.or ((description?.bind ChannelDescription.mode?).bind ChannelKind.ofMode?) := by
  obtain ⟨mode?, hmode, h⟩ := bind_eq_ok_iff.1 h
  rw [← declaredMode_eq_ok hmode]
  cases hfixed : slot.kind? with
  | some fixed =>
    rw [hfixed] at h
    cases mode? with
    | none => cases h; rfl
    | some mode =>
      simp only at h
      split at h
      · cases h; rfl
      · cases h
  | none =>
    rw [hfixed] at h
    cases mode? with
    | some mode => cases h; rfl
    | none =>
      simp only at h
      split at h
      · cases h
      · cases h; rfl

/-! ## Units without problems -/

theorem declaredChannels_cons_other {key : String} (json : Json) (rest : Table String Json)
    (h : Catalogue.isChannelName key = false) :
    declaredChannels type ((key, json) :: rest) location = declaredChannels type rest location := by
  simp [declaredChannels, h]

/-- a field that names a channel and is no problem adds its description -/
theorem declaredChannels_cons {key : String} {json : Json} {rest : Table String Json}
    (hkey : Catalogue.isChannelName key = true)
    (h : (declaredChannels type ((key, json) :: rest) location).1 = []) :
    (declaredChannels type rest location).1 = [] ∧ ∃ description, ChannelDescription.ofJson json = .ok description ∧
      (declaredChannels type ((key, json) :: rest) location).2 =
        (key, description) :: (declaredChannels type rest location).2 := by
  simp only [declaredChannels, List.filter_cons, hkey, if_true, List.map_cons, List.filterMap_cons] at h ⊢
  by_cases hslot : (type.channel? key).isNone = true
  · simp only [hslot, if_true] at h
    cases h
  · cases hread : ChannelDescription.ofJson json with
    | error fault =>
      simp only [hslot, hread, Except.mapError] at h
      cases h
    | ok description =>
      simp only [hslot, hread, Except.mapError] at h ⊢
      exact ⟨h, description, rfl, rfl⟩

/-- descriptions without problems are found as they are said -/
theorem lookup?_declaredChannels (h : (declaredChannels type fields location).1 = []) {name : String}
    (hname : Catalogue.isChannelName name = true) :
    (declaredChannels type fields location).2.lookup? name =
      (fields.lookup? name).bind fun json => (ChannelDescription.ofJson json).toOption := by
  induction fields with
  | nil => rfl
  | cons p rest ih =>
    obtain ⟨key, json⟩ := p
    cases hkey : Catalogue.isChannelName key with
    | false =>
      have hne : key ≠ name := by
        rintro rfl
        rw [hname] at hkey
        cases hkey
      rw [declaredChannels_cons_other json rest hkey] at h ⊢
      rw [Table.lookup?, if_neg hne, ih h]
    | true =>
      obtain ⟨hrest, description, hread, htable⟩ := declaredChannels_cons hkey h
      rw [htable, Table.lookup?, Table.lookup?]
      split
      · rw [Option.bind_some, hread]
        rfl
      · exact ih hrest

/-- a channel that is described without a problem -/
theorem describeChannel_eq (h : (describeChannel unitPath type location slot description?).1 = []) :
    (describeChannel unitPath type location slot description?).2 =
      (slot.kind?.or ((description?.bind ChannelDescription.mode?).bind ChannelKind.ofMode?)).map fun kind =>
        { path := ChannelPath.ofSegments [unitPath, slot.name]
          kind := kind
          direction := slot.direction
          unitType := type.name
          oscillator? := slot.oscillator?.map (.integrated unitPath)
          mixLo? := description?.bind ChannelDescription.mixLo?
          downconverter? := description?.bind ChannelDescription.downconverter?
          markerDebug? := description?.bind ChannelDescription.markerDebug? } := by
  unfold describeChannel at h ⊢
  cases hkind : kindOf slot description? with
  | error cause =>
    simp only [hkind] at h
    cases h
  | ok kind? =>
    rw [← kindOf_eq_ok hkind]
    cases kind? with
    | none => rfl
    | some kind => cases description? <;> rfl

theorem describeUnit_snd (unitPath : String) (type : UnitType) (fields : Table String Json) (location : String) :
    (describeUnit unitPath type fields location).2 = type.channels.filterMap fun slot =>
      (describeChannel unitPath type location slot
        ((declaredChannels type fields location).2.lookup? slot.name)).2 := by
  rw [describeUnit]
  exact List.filterMap_map

/-- a unit is described without a problem iff all its fields and slots are -/
theorem describeUnit_fst_eq_nil_iff :
    (describeUnit unitPath type fields location).1 = [] ↔ (declaredChannels type fields location).1 = [] ∧
      ∀ slot ∈ type.channels, (describeChannel unitPath type location slot
        ((declaredChannels type fields location).2.lookup? slot.name)).1 = [] := by
  simp only [describeUnit, List.append_eq_nil_iff, List.flatMap_eq_nil_iff, List.forall_mem_map]

/-- **The channels of a unit.** Described without a problem, it has those that it provides. -/
theorem described_eq_provided (htype : u.type ∈ backend.unitTypes) (h : u.described.1 = []) :
    u.described.2 = u.provided := by
  obtain ⟨hdeclared, hslots⟩ := describeUnit_fst_eq_nil_iff.1 h
  rw [DeclaredUnit.described, describeUnit_snd, DeclaredUnit.provided]
  refine List.filterMap_congr fun slot hslot => ?_
  have hname := (slots_wellFormed backend u.type htype).2 slot hslot
  have hsaid : (declaredChannels u.type u.fields u.location).2.lookup? slot.name = u.said? slot.name :=
    lookup?_declaredChannels hdeclared hname
  rw [describeChannel_eq (hslots slot hslot), hsaid]
  rfl

/-! ## Paths of channels -/

theorem path_of_provided? {slot : ChannelSlot} {ch : Channel} (h : u.provided? slot = some ch) :
    ch.path = ChannelPath.ofSegments [u.path, slot.name] := by
  obtain ⟨kind, -, rfl⟩ := Option.map_eq_some_iff.1 h
  rfl

theorem mem_provided {ch : Channel} : ch ∈ u.provided ↔ ∃ slot ∈ u.type.channels, u.provided? slot = some ch :=
  List.mem_filterMap

/-- the channels of one unit have different paths -/
theorem nodup_paths_provided (htype : u.type ∈ backend.unitTypes) : (u.provided.map Channel.path).Nodup := by
  obtain ⟨hnames, hchannels⟩ := slots_wellFormed backend u.type htype
  have hslots : u.type.channels.Pairwise fun slot slot' => slot.name ≠ slot'.name := List.pairwise_map.1 hnames
  refine List.pairwise_map.2 (List.pairwise_filterMap.2 (hslots.imp_of_mem ?_))
  intro slot slot' hslot hslot' hne ch hch ch' hch' heq
  rw [path_of_provided? hch, path_of_provided? hch'] at heq
  have hdot := Wiring.dot_notMem_of_isChannelName (hchannels slot hslot)
  have hdot' := Wiring.dot_notMem_of_isChannelName (hchannels slot' hslot')
  exact hne (Wiring.ofSegments_inj hdot hdot' heq).2

/-- units at different paths have no path of a channel in common -/
theorem unit_of_channel_path {v : DeclaredUnit} {ch ch' : Channel} (htype : u.type ∈ backend.unitTypes)
    (htype' : v.type ∈ backend.unitTypes) (hch : ch ∈ u.provided) (hch' : ch' ∈ v.provided) (heq : ch.path = ch'.path) :
    u.path = v.path := by
  obtain ⟨slot, hslot, hprovided⟩ := mem_provided.1 hch
  obtain ⟨slot', hslot', hprovided'⟩ := mem_provided.1 hch'
  rw [path_of_provided? hprovided, path_of_provided? hprovided'] at heq
  have hdot := Wiring.dot_notMem_of_isChannelName ((slots_wellFormed backend u.type htype).2 slot hslot)
  have hdot' := Wiring.dot_notMem_of_isChannelName ((slots_wellFormed backend v.type htype').2 slot' hslot')
  exact (Wiring.ofSegments_inj hdot hdot' heq).1

/-- the channels of units at different paths all have different paths -/
theorem nodup_paths_flatMap_provided {units : List DeclaredUnit} (htypes : ∀ u ∈ units, u.type ∈ backend.unitTypes)
    (hpaths : (units.map DeclaredUnit.path).Nodup) :
    ((units.flatMap DeclaredUnit.provided).map Channel.path).Nodup := by
  rw [List.map_flatMap, List.nodup_flatMap]
  refine ⟨fun u hu => nodup_paths_provided (htypes u hu), ?_⟩
  have hpairs : units.Pairwise fun u v => u.path ≠ v.path := List.pairwise_map.1 hpaths
  refine hpairs.imp_of_mem fun {u v} hu hv hne path hpath hpath' => ?_
  obtain ⟨ch, hch, rfl⟩ := List.mem_map.1 hpath
  obtain ⟨ch', hch', heq⟩ := List.mem_map.1 hpath'
  exact hne (unit_of_channel_path (htypes u hu) (htypes v hv) hch hch' heq.symm)

end Inventory

end RackMap
