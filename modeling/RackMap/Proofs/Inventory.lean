/-
What holds of every inventory that is built from a description.

`build_induction` packages the induction over the description: what holds of the empty inventory and is kept by entering
a name, an oscillator or a unit of a known type holds of the inventory that is built. From it:
- `build_provided`: every channel is found under its own path and is provided by a slot of a type the vendor knows;
- `oscillator?_eq_none_of_digital`: no oscillator is built into a digital channel.
-/
import Mathlib.Tactic
import RackMap.Inventory
import RackMap.Proofs.Outcome
import RackMap.Proofs.Table

namespace RackMap

/-- **Modes.** Every kind but the digital one can be declared, by its text. -/
theorem ofMode?_eq_some_iff {mode : String} {kind : ChannelKind} :
    ChannelKind.ofMode? mode = some kind ↔ mode = kind.text ∧ kind ≠ .digital := by
  constructor
  · intro h
    unfold ChannelKind.ofMode? ChannelKind.ofText? at h
    split at h
    · cases h
    · split at h <;> cases h
      · exact ⟨rfl, nofun⟩
      · exact ⟨rfl, nofun⟩
      · rename_i hdigital
        exact absurd rfl hdigital
  · rintro ⟨rfl, hkind⟩
    cases kind with
    | digital => exact absurd rfl hkind
    | _ => rfl

namespace Inventory

/-! ## The induction over a description -/

/-- the inventory with one more unit and its channels -/
def withUnit (inv : Inventory) (path : String) (type : UnitType) (channels : List Channel) : Inventory :=
  { inv with
    units := inv.units.put path type
    channels := channels.foldl (fun t c => t.put c.path c) inv.channels }

def withInstrument (inv : Inventory) (name type : String) : Inventory :=
  { inv with instruments := inv.instruments.put name type }

def withOscillator (inv : Inventory) (name : String) (o : Oscillator) : Inventory :=
  { inv with oscillators := inv.oscillators.put name o }

/-- what every step of building an inventory for a vendor keeps -/
structure Kept (backend : Backend) (P : Inventory → Prop) : Prop where
  instrument : ∀ inv name type, P inv → P (inv.withInstrument name type)
  oscillator : ∀ inv name o, P inv → P (inv.withOscillator name o)
  unit : ∀ inv path type fields location, type ∈ backend.unitTypes → P inv →
    P (inv.withUnit path type (describeUnit path type fields location).2)

/-- the inventory of a draft for a vendor has the property -/
def Holds (backend : Backend) (P : Inventory → Prop) (d : Draft) : Prop := d.inventory.backend = backend ∧ P d.inventory

variable {backend : Backend} {P : Inventory → Prop}

theorem unitType?_mem {name : String} {type : UnitType} (h : backend.unitType? name = some type) :
    type ∈ backend.unitTypes := List.mem_of_find?_eq_some h

theorem Kept.addUnit (k : Kept backend P) {d : Draft} (h : Holds backend P d) (path : String) {type : UnitType}
    (htype : type ∈ backend.unitTypes) (fields : Table String Json) (location : String) :
    Holds backend P (d.addUnit path type fields location) :=
  ⟨h.1, k.unit _ path type fields location htype h.2⟩

theorem Kept.addModule (k : Kept backend P) {d : Draft} (h : Holds backend P d) (name : String) (composite : UnitType)
    (location : String) (entry : String × ModuleDescription) :
    Holds backend P (d.addModule name composite location entry) := by
  unfold Draft.addModule
  simp only
  split
  · exact h
  · split
    · exact h
    · rename_i type htype
      split
      · exact h
      · refine k.addUnit h _ ?_ _ _
        unfold Draft.slotType? at htype
        split at htype
        · rw [h.1] at htype
          exact unitType?_mem htype
        · cases htype

theorem Kept.foldl_addModule (k : Kept backend P) {modules : List (String × ModuleDescription)} {d : Draft}
    (h : Holds backend P d) (name : String) (composite : UnitType) (location : String) :
    Holds backend P (modules.foldl (Draft.addModule name composite location) d) := by
  induction modules generalizing d with
  | nil => exact h
  | cons entry modules ih => exact ih (k.addModule h name composite location entry)

theorem Kept.addTyped (k : Kept backend P) {d : Draft} (h : Holds backend P d) (name : String) {type : UnitType}
    (htype : type ∈ backend.unitTypes) (i : InstrumentDescription) (location : String) :
    Holds backend P (d.addTyped name type i location) := by
  unfold Draft.addTyped
  simp only
  split
  · refine k.foldl_addModule ?_ name type location
    exact h
  · split
    · exact k.addUnit h name htype i.fields location
    · exact k.addUnit h name htype i.fields location

theorem Kept.addInstrument (k : Kept backend P) {d : Draft} (h : Holds backend P d)
    (entry : String × InstrumentDescription) : Holds backend P (d.addInstrument entry) := by
  obtain ⟨name, i⟩ := entry
  have hnamed : Holds backend P { d with inventory := d.inventory.withInstrument name i.type } :=
    ⟨h.1, k.instrument _ name i.type h.2⟩
  unfold Draft.addInstrument
  simp only
  split
  · exact ⟨hnamed.1, k.oscillator _ name _ hnamed.2⟩
  · split
    · exact hnamed
    · rename_i type htype
      split
      · exact hnamed
      · refine k.addTyped hnamed name ?_ i _
        have hbackend : d.inventory.backend = backend := h.1
        rw [← hbackend]
        exact unitType?_mem htype

theorem Kept.foldl_addInstrument (k : Kept backend P) {d : Draft} (h : Holds backend P d)
    (entries : HardwareDescription) : Holds backend P (entries.foldl Draft.addInstrument d) := by
  induction entries generalizing d with
  | nil => exact h
  | cons entry entries ih => exact ih (k.addInstrument h entry)

/-- what the empty inventory has and every step keeps, the inventory in the making has -/
theorem Kept.draft (k : Kept backend P) (hempty : P (empty backend)) (description : HardwareDescription) :
    Holds backend P (draft description backend) := k.foldl_addInstrument ⟨rfl, hempty⟩ description

/-- and so has the inventory of a description -/
theorem build_induction (k : Kept backend P) (hempty : P (empty backend)) {description : HardwareDescription}
    {inv : Inventory} (h : build description backend = .ok inv) : inv.backend = backend ∧ P inv := by
  unfold build at h
  simp only at h
  split at h
  · cases h
    exact k.draft hempty description
  · cases h

theorem kept_true (backend : Backend) : Kept backend fun _ => True where
  instrument _ _ _ h := h
  oscillator _ _ _ h := h
  unit _ _ _ _ _ _ h := h

theorem backend_draft (description : HardwareDescription) (backend : Backend) :
    (draft description backend).inventory.backend = backend :=
  ((kept_true backend).draft trivial description).1

theorem backend_of_build {description : HardwareDescription} {inv : Inventory}
    (h : build description backend = .ok inv) : inv.backend = backend :=
  (build_induction (kept_true backend) trivial h).1

/-! ## Channels -/

/-- a channel that a slot of a known type provides -/
def Provided (backend : Backend) (ch : Channel) : Prop :=
  ∃ unit type location slot description?, type ∈ backend.unitTypes ∧ slot ∈ type.channels ∧
    (describeChannel unit type location slot description?).2 = some ch

theorem mem_describeUnit {unit location : String} {type : UnitType} {fields : Table String Json} {ch : Channel}
    (h : ch ∈ (describeUnit unit type fields location).2) :
    ∃ slot ∈ type.channels, ∃ description?, (describeChannel unit type location slot description?).2 = some ch := by
  obtain ⟨result, hresult, hch⟩ := List.mem_filterMap.1 h
  obtain ⟨slot, hslot, rfl⟩ := List.mem_map.1 hresult
  exact ⟨slot, hslot, _, hch⟩

theorem kept_provided (backend : Backend) :
    Kept backend fun inv => ∀ path ch, inv.channel? path = some ch → ch.path = path ∧ Provided backend ch where
  instrument _ _ _ h := h
  oscillator _ _ _ h := h
  unit inv path type fields location htype h := by
    intro p ch hch
    rcases Table.mem_of_lookup?_foldl_put hch with ⟨hmem, hpath⟩ | hch
    · obtain ⟨slot, hslot, description?, hdescribe⟩ := mem_describeUnit hmem
      exact ⟨hpath, path, type, location, slot, description?, htype, hslot, hdescribe⟩
    · exact h p ch hch

/-- every channel of an inventory stands under its own path and is provided by a known type -/
theorem build_provided {description : HardwareDescription} {inv : Inventory}
    (h : build description backend = .ok inv) {path : ChannelPath} {ch : Channel} (hch : inv.channel? path = some ch) :
    ch.path = path ∧ Provided backend ch :=
  (build_induction (kept_provided backend) (fun _ _ h => by cases h) h).2 path ch hch

/-! ## Digital channels -/

theorem ofMode?_ne_digital (mode : String) : ChannelKind.ofMode? mode ≠ some .digital := by
  intro h
  exact (ofMode?_eq_some_iff.1 h).2 rfl

theorem declaredMode_ne_digital (mode? : Option String) : declaredMode mode? ≠ .ok (some .digital) := by
  unfold declaredMode
  split
  · simp
  · split
    · rename_i mode _ kind hkind
      rintro h
      cases h
      exact ofMode?_ne_digital mode hkind
    · simp

/-- a digital channel has its kind from the slot: no description declares it -/
theorem kind?_of_kindOf_digital {slot : ChannelSlot} {description? : Option ChannelDescription}
    (h : kindOf slot description? = .ok (some .digital)) : slot.kind? = some .digital := by
  unfold kindOf at h
  obtain ⟨mode?, hmode, h⟩ := bind_eq_ok_iff.1 h
  cases hk : slot.kind? with
  | some fixed =>
    rw [hk] at h
    cases mode? with
    | none => cases h; rfl
    | some mode =>
      simp only at h
      split at h
      · cases h; rfl
      · cases h
  | none =>
    rw [hk] at h
    cases mode? with
    | none =>
      simp only at h
      split at h <;> cases h
    | some mode =>
      cases h
      exact absurd hmode (declaredMode_ne_digital _)

theorem slot_unfed_of_digital : ∀ backend : Backend, ∀ type ∈ backend.unitTypes, ∀ slot ∈ type.channels,
    slot.kind? = some .digital → slot.oscillator? = none := by
  intro backend
  cases backend <;> decide

theorem oscillator?_eq_none_of_digital {description : HardwareDescription} {inv : Inventory}
    (h : build description backend = .ok inv) {path : ChannelPath} {ch : Channel} (hch : inv.channel? path = some ch)
    (hkind : ch.kind = .digital) : ch.oscillator? = none := by
  obtain ⟨-, unit, type, location, slot, description?, htype, hslot, hdescribe⟩ := build_provided h hch
  unfold describeChannel at hdescribe
  simp only at hdescribe
  split at hdescribe
  · cases hdescribe
  · cases hdescribe
  · rename_i kind hk
    cases hdescribe
    simp only at hkind
    subst hkind
    simp only [slot_unfed_of_digital backend type htype slot hslot (kind?_of_kindOf_digital hk), Option.map_none]

end Inventory

end RackMap
