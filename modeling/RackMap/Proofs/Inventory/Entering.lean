/-
When a description is entered without a problem, and what the inventory is then.

- `Sound` is what an instrument has to get right on its own, and `Free` what is asked of its place: a module must not be
  put where there is a unit already. No such thing is asked of an instrument that is a unit itself.
- `Draft.addModule_cases`: what a slot does: it enters a unit, or it is taken, or it is wrong in some other way;
- `Draft.addInstrument_of_sound`, `Draft.sound_of_addInstrument_clean`: these two are all that is checked, and
  `withEntry` is what is entered;
- `build_eq_ok_iff`: the same of a whole description, and `foldl_withEntry` lists what is entered table by table.
-/
import Mathlib.Tactic
import RackMap.Proofs.Inventory
import RackMap.Proofs.Inventory.Units

namespace RackMap

namespace Inventory

/-! ## Places -/

/-- no module among the units is put where there is a unit already, be it taken before or one of those before it -/
structure Free (taken : List String) (units : List DeclaredUnit) : Prop where
  new : ∀ u ∈ units, u.inSlot = true → u.path ∉ taken
  apart : units.Pairwise fun u v => v.inSlot = true → u.path ≠ v.path

theorem free_nil (taken : List String) : Free taken [] := ⟨by simp, List.Pairwise.nil⟩

/-- places are taken one unit after the other -/
theorem free_append_iff {taken taken' : List String} {units units' : List DeclaredUnit}
    (htaken : ∀ path, path ∈ taken' ↔ path ∈ taken ∨ ∃ u ∈ units, u.path = path) :
    Free taken (units ++ units') ↔ Free taken units ∧ Free taken' units' := by
  constructor
  · rintro ⟨hnew, hapart⟩
    obtain ⟨hfirst, hlater, hcross⟩ := List.pairwise_append.1 hapart
    refine ⟨⟨fun u hu => hnew u (List.mem_append_left _ hu), hfirst⟩, fun v hv hslot hin => ?_, hlater⟩
    rcases (htaken _).1 hin with hin | ⟨u, hu, heq⟩
    · exact hnew v (List.mem_append_right _ hv) hslot hin
    · exact hcross u hu v hv hslot heq
  · rintro ⟨⟨hnew, hfirst⟩, hnew', hlater⟩
    refine ⟨fun v hv hslot hin => ?_, List.pairwise_append.2 ⟨hfirst, hlater, fun u hu v hv hslot heq => ?_⟩⟩
    · rcases List.mem_append.1 hv with hv | hv
      · exact hnew v hv hslot hin
      · exact hnew' v hv hslot ((htaken _).2 (Or.inl hin))
    · exact hnew' v hv hslot ((htaken _).2 (Or.inr ⟨u, hu, heq⟩))

theorem free_cons_iff {taken taken' : List String} {u : DeclaredUnit} {units : List DeclaredUnit}
    (htaken : ∀ path, path ∈ taken' ↔ path ∈ taken ∨ path = u.path) :
    Free taken (u :: units) ↔ (u.inSlot = true → u.path ∉ taken) ∧ Free taken' units := by
  have hfirst : Free taken [u] ↔ (u.inSlot = true → u.path ∉ taken) := by
    refine ⟨fun h => h.new u List.mem_cons_self, fun h => ⟨fun v hv => ?_, List.pairwise_singleton _ _⟩⟩
    obtain rfl := List.mem_singleton.1 hv
    exact h
  rw [← hfirst, ← List.singleton_append]
  exact free_append_iff fun path => by rw [htaken]; simp [eq_comm]

/-! ## What is entered -/

/-- the inventory with a declared unit -/
def withDeclared (inv : Inventory) (u : DeclaredUnit) : Inventory := inv.withUnit u.path u.type u.described.2

/-- the oscillator that an instrument is -/
def oscillatorOf? (entry : String × InstrumentDescription) : Option Oscillator :=
  if entry.2.type = Catalogue.oscillatorType then
    some ⟨entry.1, entry.2.power?, entry.2.instrumentName?, entry.2.iccName?, entry.2.frequencyParam?,
      entry.2.powerParam?⟩
  else none

/-- the inventory with an instrument: its name, the oscillator that it is, and its units -/
def withEntry (backend : Backend) (inv : Inventory) (entry : String × InstrumentDescription) : Inventory :=
  let inv := inv.withInstrument entry.1 entry.2.type
  match oscillatorOf? entry with
  | some o => inv.withOscillator entry.1 o
  | none => (unitsOf backend entry).foldl withDeclared inv

/-- what an instrument of a known type has to get right on its own -/
structure SoundTyped (backend : Backend) (name : String) (type : UnitType) (i : InstrumentDescription)
    (location : String) : Prop where
  settings : Draft.settingCauses type i = []
  /-- the modules of a composite instrument have its channels -/
  outside : type.isComposite = true → i.fields.keys.filter Catalogue.isChannelName = []
  slots : type.isComposite = true → ∀ slot ∈ i.modules?.getD [],
    ∃ u, moduleUnit? backend name type location slot = some u
  noSlots : type.isComposite = false → i.modules? = none
  channels : ∀ u ∈ typedUnits backend name type i location, u.described.1 = []

/-- what an instrument has to get right on its own -/
def Sound (backend : Backend) (entry : String × InstrumentDescription) : Prop :=
  if entry.2.type = Catalogue.oscillatorType then Draft.oscillatorCauses entry.2 = []
  else ∃ type, backend.unitType? entry.2.type = some type ∧ backend.isModuleType type.name = false ∧
    SoundTyped backend entry.1 type entry.2 s!"hardware_description.{entry.1}"

variable {backend : Backend} {inv : Inventory} {u : DeclaredUnit} {units : List DeclaredUnit} {name location : String}
  {composite type : UnitType} {slot : String × ModuleDescription} {slots : List (String × ModuleDescription)}
  {entry : String × InstrumentDescription}

/-- an instrument with units is none that is an oscillator -/
theorem Sound.typed (hsound : Sound backend entry) (h : u ∈ unitsOf backend entry) :
    ∃ type, backend.unitType? entry.2.type = some type ∧ backend.isModuleType type.name = false ∧
      SoundTyped backend entry.1 type entry.2 s!"hardware_description.{entry.1}" := by
  unfold Sound at hsound
  split at hsound
  · rename_i hoscillator
    rw [unitsOf_of_oscillator hoscillator] at h
    cases h
  · exact hsound

theorem mem_keys_withDeclared {path : String} :
    path ∈ (inv.withDeclared u).units.keys ↔ path ∈ inv.units.keys ∨ path = u.path := by
  rw [withDeclared, withUnit, Table.mem_keys_put]

end Inventory

open Inventory (Free Sound SoundTyped kept_true moduleUnit? oscillatorOf? typedUnits unitsOf unitsOf_of_oscillator
  unitsOf_of_type)

theorem Report.located_eq_nil_iff {location : String} {causes : List Cause} :
    Report.located location causes = [] ↔ causes = [] := List.map_eq_nil_iff

namespace Draft

variable {backend : Backend} {d : Draft} {u : DeclaredUnit} {name location : String} {composite type : UnitType}
  {slot : String × ModuleDescription} {slots : List (String × ModuleDescription)} {i : InstrumentDescription}
  {entry : String × InstrumentDescription}

theorem has_units_iff {path : String} : d.inventory.units.has path = true ↔ path ∈ d.inventory.units.keys := by
  rw [Table.has, ← not_iff_not, ← Table.lookup?_eq_none_iff, Bool.not_eq_true, Option.isSome_eq_false_iff,
    Option.isNone_iff_eq_none]

/-- a unit is entered with its channels, and the problems of its channels are noted -/
theorem addUnit_eq (d : Draft) (u : DeclaredUnit) :
    d.addUnit u.path u.type u.fields u.location = ⟨d.inventory.withDeclared u, d.report ++ u.described.1⟩ := rfl

/-! ## Modules -/

/-- what a slot does to a draft -/
theorem addModule_cases (d : Draft) (name : String) (composite : UnitType) (location : String)
    (slot : String × ModuleDescription) :
    (∃ u, moduleUnit? d.inventory.backend name composite location slot = some u ∧ u.path ∉ d.inventory.units.keys ∧
        d.addModule name composite location slot = ⟨d.inventory.withDeclared u, d.report ++ u.described.1⟩) ∨
      (∃ u m, moduleUnit? d.inventory.backend name composite location slot = some u ∧
        u.path ∈ d.inventory.units.keys ∧ moduleName? slot.1 = some m ∧
        d.addModule name composite location slot = d.note s!"{location}.modules.{slot.1}" (.slotTaken m)) ∨
      (moduleUnit? d.inventory.backend name composite location slot = none ∧ ∃ cause, (∀ m, cause ≠ .slotTaken m) ∧
        d.addModule name composite location slot = d.note s!"{location}.modules.{slot.1}" cause) := by
  unfold addModule moduleUnit?
  cases hname : moduleName? slot.1 with
  | none => exact Or.inr (Or.inr ⟨rfl, .badSlot, nofun, rfl⟩)
  | some m =>
    cases htype : slotType? d.inventory.backend composite slot.2.type with
    | none => exact Or.inr (Or.inr ⟨rfl, .unknownModuleType _ _ _, nofun, rfl⟩)
    | some type =>
      by_cases hplace : s!"{name}.{m}" ∈ d.inventory.units.keys
      · refine Or.inr (Or.inl ⟨_, m, rfl, hplace, rfl, ?_⟩)
        simp only [if_pos (has_units_iff.2 hplace)]
      · refine Or.inl ⟨_, rfl, hplace, ?_⟩
        simp only [if_neg (mt has_units_iff.1 hplace)]
        rfl

/-- a module in a place of its own is entered with its channels, and their problems are noted -/
theorem addModule_of_free (hu : moduleUnit? d.inventory.backend name composite location slot = some u)
    (hfree : u.path ∉ d.inventory.units.keys) :
    d.addModule name composite location slot = ⟨d.inventory.withDeclared u, d.report ++ u.described.1⟩ := by
  rcases addModule_cases d name composite location slot with
    ⟨v, hv, -, hstep⟩ | ⟨v, m, hv, htaken, -, -⟩ | ⟨hnone, -⟩
  · obtain rfl := Option.some.inj (hu.symm.trans hv)
    exact hstep
  · obtain rfl := Option.some.inj (hu.symm.trans hv)
    exact absurd htaken hfree
  · cases hu.symm.trans hnone

theorem exists_of_addModule_clean (h : (d.addModule name composite location slot).report = []) :
    d.report = [] ∧ ∃ u, moduleUnit? d.inventory.backend name composite location slot = some u ∧
      u.described.1 = [] ∧ u.path ∉ d.inventory.units.keys := by
  rcases addModule_cases d name composite location slot with
    ⟨u, hu, hfree, hstep⟩ | ⟨u, m, -, -, -, hstep⟩ | ⟨-, cause, -, hstep⟩
  · rw [hstep] at h
    obtain ⟨hreport, hdescribed⟩ := List.append_eq_nil_iff.1 h
    exact ⟨hreport, u, hu, hdescribed, hfree⟩
  · simp [hstep, note] at h
  · simp [hstep, note] at h

/-- modules that are put into places of their own, without problems of their channels -/
theorem foldl_addModule_of_free (hbackend : d.inventory.backend = backend)
    (hslots : ∀ slot ∈ slots, ∃ u, moduleUnit? backend name composite location slot = some u)
    (hchannels : ∀ u ∈ slots.filterMap (moduleUnit? backend name composite location), u.described.1 = [])
    (hfree : Free d.inventory.units.keys (slots.filterMap (moduleUnit? backend name composite location))) :
    slots.foldl (addModule name composite location) d =
      ⟨(slots.filterMap (moduleUnit? backend name composite location)).foldl Inventory.withDeclared d.inventory,
        d.report⟩ := by
  induction slots generalizing d with
  | nil => rfl
  | cons slot rest ih =>
    obtain ⟨u, hu⟩ := hslots slot List.mem_cons_self
    rw [List.filterMap_cons_some hu] at hchannels hfree ⊢
    obtain ⟨hplace, hrest⟩ := (Inventory.free_cons_iff fun _ => Inventory.mem_keys_withDeclared).1 hfree
    have hstep : d.addModule name composite location slot = ⟨d.inventory.withDeclared u, d.report⟩ := by
      rw [addModule_of_free (by rw [hbackend]; exact hu) (hplace (Inventory.moduleUnit?_spec hu).1),
        hchannels u List.mem_cons_self, List.append_nil]
    rw [List.foldl_cons, hstep, List.foldl_cons]
    exact ih hbackend (fun slot hin => hslots slot (List.mem_cons_of_mem _ hin))
      (fun u hin => hchannels u (List.mem_cons_of_mem _ hin)) hrest

theorem free_of_foldl_addModule_clean (hbackend : d.inventory.backend = backend)
    (h : (slots.foldl (addModule name composite location) d).report = []) :
    d.report = [] ∧ (∀ slot ∈ slots, ∃ u, moduleUnit? backend name composite location slot = some u) ∧
      (∀ u ∈ slots.filterMap (moduleUnit? backend name composite location), u.described.1 = []) ∧
      Free d.inventory.units.keys (slots.filterMap (moduleUnit? backend name composite location)) := by
  induction slots generalizing d with
  | nil => exact ⟨h, by simp, by simp, Inventory.free_nil _⟩
  | cons slot rest ih =>
    rw [List.foldl_cons] at h
    have hkept := ((kept_true backend).addModule ⟨hbackend, trivial⟩ name composite location slot).1
    obtain ⟨hfirst, hslots, hchannels, hfree⟩ := ih hkept h
    obtain ⟨hreport, u, hu, hdescribed, hplace⟩ := exists_of_addModule_clean hfirst
    rw [addModule_of_free hu hplace] at hfree
    rw [hbackend] at hu
    rw [List.filterMap_cons_some hu]
    refine ⟨hreport, List.forall_mem_cons.2 ⟨⟨u, hu⟩, hslots⟩, List.forall_mem_cons.2 ⟨hdescribed, hchannels⟩, ?_⟩
    exact (Inventory.free_cons_iff fun _ => Inventory.mem_keys_withDeclared).2 ⟨fun _ => hplace, hfree⟩

/-! ## Instruments of a known type -/

theorem addTyped_of_sound (hbackend : d.inventory.backend = backend) (hsound : SoundTyped backend name type i location)
    (hfree : Free d.inventory.units.keys (typedUnits backend name type i location)) :
    d.addTyped name type i location =
      ⟨(typedUnits backend name type i location).foldl Inventory.withDeclared d.inventory, d.report⟩ := by
  have hchannels := hsound.channels
  have hclean : d.noteAll (Report.located location (settingCauses type i)) = d := by
    rw [hsound.settings, noteAll, Report.located, List.map_nil, List.append_nil]
  unfold addTyped
  rw [hclean]
  cases hcomposite : type.isComposite with
  | true =>
    rw [Inventory.typedUnits_of_composite hcomposite] at hfree hchannels ⊢
    have hinside : d.noteAll [] = d := by rw [noteAll, List.append_nil]
    simp only [if_true, hsound.outside hcomposite, List.map_nil, hinside]
    exact foldl_addModule_of_free hbackend (hsound.slots hcomposite) hchannels hfree
  | false =>
    rw [Inventory.typedUnits_of_single hcomposite] at hchannels ⊢
    simp only [hsound.noSlots hcomposite, Option.isSome_none, Bool.false_eq_true, if_false,
      List.forall_mem_singleton] at hchannels ⊢
    rw [List.foldl_cons, List.foldl_nil]
    exact (addUnit_eq d ⟨name, type, i.fields, false, location⟩).trans (by rw [hchannels, List.append_nil])

theorem sound_of_addTyped_clean (hbackend : d.inventory.backend = backend)
    (h : (d.addTyped name type i location).report = []) :
    d.report = [] ∧ SoundTyped backend name type i location ∧
      Free d.inventory.units.keys (typedUnits backend name type i location) := by
  unfold addTyped at h
  cases hcomposite : type.isComposite with
  | true =>
    simp only [hcomposite, if_true] at h
    obtain ⟨hreport, hslots, hchannels, hfree⟩ := free_of_foldl_addModule_clean (by exact hbackend) h
    simp only [noteAll, List.append_eq_nil_iff, List.map_eq_nil_iff, Report.located_eq_nil_iff] at hreport
    obtain ⟨⟨hfirst, hsettings⟩, houtside⟩ := hreport
    rw [← Inventory.typedUnits_of_composite hcomposite] at hchannels hfree
    have hnotSingle : type.isComposite ≠ false := by simp [hcomposite]
    exact ⟨hfirst, ⟨hsettings, fun _ => houtside, fun _ => hslots, fun hsingle => absurd hsingle hnotSingle, hchannels⟩,
      hfree⟩
  | false =>
    simp only [hcomposite, Bool.false_eq_true, if_false] at h
    have hmodules : i.modules? = none := by
      cases hi : i.modules? with
      | none => rfl
      | some modules => simp [hi, addUnit, note, noteAll] at h
    simp only [hmodules, Option.isSome_none, Bool.false_eq_true, if_false] at h
    obtain ⟨hreport, hdescribed⟩ := List.append_eq_nil_iff.1 h
    simp only [noteAll, List.append_eq_nil_iff, Report.located_eq_nil_iff] at hreport
    have hnotComposite : type.isComposite ≠ true := by simp [hcomposite]
    have hunits : typedUnits backend name type i location = [⟨name, type, i.fields, false, location⟩] :=
      Inventory.typedUnits_of_single hcomposite
    refine ⟨hreport.1, ⟨hreport.2, fun hin => absurd hin hnotComposite, fun hin => absurd hin hnotComposite,
      fun _ => hmodules, ?_⟩, ?_⟩
    · rw [hunits]
      exact List.forall_mem_singleton.2 hdescribed
    · rw [hunits]
      exact ⟨by simp, List.pairwise_singleton _ _⟩

/-! ## Instruments -/

theorem addInstrument_of_oscillator (backend : Backend) (h : entry.2.type = Catalogue.oscillatorType) :
    d.addInstrument entry = ⟨d.inventory.withEntry backend entry,
      d.report ++ Report.located s!"hardware_description.{entry.1}" (oscillatorCauses entry.2)⟩ := by
  simp only [addInstrument, h, if_true, Inventory.withEntry, oscillatorOf?]
  rfl

theorem addInstrument_of_type (hother : entry.2.type ≠ Catalogue.oscillatorType)
    (htype : d.inventory.backend.unitType? entry.2.type = some type)
    (hmodule : d.inventory.backend.isModuleType type.name = false) :
    d.addInstrument entry = addTyped ⟨d.inventory.withInstrument entry.1 entry.2.type, d.report⟩ entry.1 type entry.2
      s!"hardware_description.{entry.1}" := by
  simp only [addInstrument, if_neg hother, htype, hmodule, Bool.false_eq_true, if_false]
  rfl

theorem addInstrument_of_sound (hbackend : d.inventory.backend = backend) (hsound : Sound backend entry)
    (hfree : Free d.inventory.units.keys (unitsOf backend entry)) :
    d.addInstrument entry = ⟨d.inventory.withEntry backend entry, d.report⟩ := by
  unfold Sound at hsound
  split at hsound
  · rename_i hoscillator
    rw [addInstrument_of_oscillator backend hoscillator, hsound, Report.located, List.map_nil, List.append_nil]
  · rename_i hother
    obtain ⟨type, htype, hmodule, htyped⟩ := hsound
    rw [addInstrument_of_type hother (by rw [hbackend]; exact htype) (by rw [hbackend]; exact hmodule)]
    rw [unitsOf_of_type htype] at hfree
    have hentered := addTyped_of_sound (d := ⟨d.inventory.withInstrument entry.1 entry.2.type, d.report⟩) hbackend
      htyped hfree
    rw [hentered]
    simp only [Inventory.withEntry, oscillatorOf?, if_neg hother, unitsOf_of_type htype]

theorem sound_of_addInstrument_clean (hbackend : d.inventory.backend = backend)
    (h : (d.addInstrument entry).report = []) :
    d.report = [] ∧ Sound backend entry ∧ Free d.inventory.units.keys (unitsOf backend entry) := by
  by_cases hoscillator : entry.2.type = Catalogue.oscillatorType
  · rw [addInstrument_of_oscillator backend hoscillator] at h
    obtain ⟨hreport, hcauses⟩ := List.append_eq_nil_iff.1 h
    rw [Report.located_eq_nil_iff] at hcauses
    rw [Sound, if_pos hoscillator, unitsOf_of_oscillator hoscillator]
    exact ⟨hreport, hcauses, Inventory.free_nil _⟩
  · rw [Sound, if_neg hoscillator]
    cases htype : d.inventory.backend.unitType? entry.2.type with
    | none => simp [addInstrument, hoscillator, htype, note] at h
    | some type =>
      cases hmodule : d.inventory.backend.isModuleType type.name with
      | true => simp [addInstrument, hoscillator, htype, hmodule, note] at h
      | false =>
        rw [addInstrument_of_type hoscillator htype hmodule] at h
        obtain ⟨hreport, htyped, hfree⟩ := sound_of_addTyped_clean (by exact hbackend) h
        rw [hbackend] at htype hmodule
        rw [unitsOf_of_type htype]
        exact ⟨hreport, ⟨type, htype, hmodule, htyped⟩, hfree⟩

end Draft

namespace Inventory

variable {backend : Backend} {inv : Inventory} {units : List DeclaredUnit} {entries description : HardwareDescription}
  {entry : String × InstrumentDescription} {d : Draft}

/-! ## Whole descriptions -/

/-- entering units touches nothing but the units and the channels -/
theorem foldl_withDeclared (inv : Inventory) (units : List DeclaredUnit) :
    units.foldl withDeclared inv =
      { inv with
        units := units.foldl (fun t u => t.put u.path u.type) inv.units
        channels := (units.flatMap fun u => u.described.2).foldl (fun t c => t.put c.path c) inv.channels } := by
  induction units generalizing inv with
  | nil => rfl
  | cons u units ih =>
    rw [List.foldl_cons, ih, List.foldl_cons, List.flatMap_cons, List.foldl_append]
    rfl

/-- what instruments enter, table by table -/
theorem foldl_withEntry (inv : Inventory) (entries : HardwareDescription) :
    entries.foldl (withEntry backend) inv =
      { backend := inv.backend
        instruments := entries.foldl (fun t entry => t.put entry.1 entry.2.type) inv.instruments
        units := (declaredUnits backend entries).foldl (fun t u => t.put u.path u.type) inv.units
        channels := ((declaredUnits backend entries).flatMap fun u => u.described.2).foldl
          (fun t c => t.put c.path c) inv.channels
        oscillators := (entries.filterMap oscillatorOf?).foldl (fun t o => t.put o.name o) inv.oscillators } := by
  induction entries generalizing inv with
  | nil => rfl
  | cons entry entries ih =>
    have hunits : declaredUnits backend (entry :: entries) = unitsOf backend entry ++ declaredUnits backend entries :=
      List.flatMap_cons
    rw [List.foldl_cons, ih, hunits, List.flatMap_append, List.foldl_append, List.foldl_append, List.foldl_cons,
      List.filterMap_cons]
    by_cases hoscillator : entry.2.type = Catalogue.oscillatorType
    · simp only [withEntry, oscillatorOf?, if_pos hoscillator, unitsOf_of_oscillator hoscillator]
      rfl
    · simp only [withEntry, oscillatorOf?, if_neg hoscillator, foldl_withDeclared]
      rfl

theorem mem_keys_foldl_withDeclared {path : String} :
    path ∈ (units.foldl withDeclared inv).units.keys ↔ path ∈ inv.units.keys ∨ ∃ u ∈ units, u.path = path := by
  induction units generalizing inv with
  | nil => simp
  | cons u units ih =>
    rw [List.foldl_cons, ih, mem_keys_withDeclared]
    simp only [List.mem_cons, exists_eq_or_imp, or_assoc]
    rw [eq_comm (a := path)]

theorem mem_keys_withEntry {path : String} :
    path ∈ (inv.withEntry backend entry).units.keys ↔
      path ∈ inv.units.keys ∨ ∃ u ∈ unitsOf backend entry, u.path = path := by
  by_cases hoscillator : entry.2.type = Catalogue.oscillatorType
  · simp only [withEntry, oscillatorOf?, if_pos hoscillator, unitsOf_of_oscillator hoscillator]
    simp [withOscillator, withInstrument]
  · simp only [withEntry, oscillatorOf?, if_neg hoscillator, mem_keys_foldl_withDeclared, withInstrument]

theorem backend_withEntry : (inv.withEntry backend entry).backend = inv.backend := by
  have hfold : inv.withEntry backend entry = _ := foldl_withEntry inv [entry]
  rw [hfold]

/-- sound instruments whose modules have places of their own are entered one after the other -/
theorem foldl_addInstrument_of_sound (hbackend : d.inventory.backend = backend)
    (hsound : ∀ entry ∈ entries, Sound backend entry)
    (hfree : Free d.inventory.units.keys (declaredUnits backend entries)) :
    entries.foldl Draft.addInstrument d = ⟨entries.foldl (withEntry backend) d.inventory, d.report⟩ := by
  induction entries generalizing d with
  | nil => rfl
  | cons entry entries ih =>
    obtain ⟨hfirst, hrest⟩ := (free_append_iff fun _ => mem_keys_withEntry).1 hfree
    rw [List.foldl_cons, Draft.addInstrument_of_sound hbackend (hsound entry List.mem_cons_self) hfirst,
      List.foldl_cons]
    exact ih (by rw [backend_withEntry]; exact hbackend) (fun e he => hsound e (List.mem_cons_of_mem _ he)) hrest

theorem sound_of_foldl_addInstrument_clean (hbackend : d.inventory.backend = backend)
    (h : (entries.foldl Draft.addInstrument d).report = []) :
    d.report = [] ∧ (∀ entry ∈ entries, Sound backend entry) ∧
      Free d.inventory.units.keys (declaredUnits backend entries) := by
  induction entries generalizing d with
  | nil => exact ⟨h, by simp, free_nil _⟩
  | cons entry entries ih =>
    rw [List.foldl_cons] at h
    have hkept := ((kept_true backend).addInstrument ⟨hbackend, trivial⟩ entry).1
    obtain ⟨hreport, hsound, hfree⟩ := ih hkept h
    obtain ⟨hfirst, hentry, hplaces⟩ := Draft.sound_of_addInstrument_clean hbackend hreport
    rw [Draft.addInstrument_of_sound hbackend hentry hplaces] at hfree
    exact ⟨hfirst, List.forall_mem_cons.2 ⟨hentry, hsound⟩,
      (free_append_iff fun _ => mem_keys_withEntry).2 ⟨hplaces, hfree⟩⟩

/-- **Building an inventory.** It succeeds iff every instrument is sound and every module has a place of its own, and
then it holds what the instruments enter. -/
theorem build_eq_ok_iff : build description backend = .ok inv ↔
    (∀ entry ∈ description, Sound backend entry) ∧ Free [] (declaredUnits backend description) ∧
      inv = description.foldl (withEntry backend) (empty backend) := by
  have hentered : (∀ entry ∈ description, Sound backend entry) → Free [] (declaredUnits backend description) →
      draft description backend = ⟨description.foldl (withEntry backend) (empty backend), []⟩ :=
    foldl_addInstrument_of_sound (d := ⟨empty backend, []⟩) rfl
  unfold build
  simp only [List.isEmpty_iff]
  constructor
  · intro h
    split at h
    · rename_i hreport
      obtain ⟨-, hsound, hfree⟩ := sound_of_foldl_addInstrument_clean (d := ⟨empty backend, []⟩) rfl hreport
      cases h
      exact ⟨hsound, hfree, by rw [hentered hsound hfree]⟩
    · cases h
  · rintro ⟨hsound, hfree, rfl⟩
    rw [hentered hsound hfree]
    exact if_pos rfl

end Inventory

end RackMap
