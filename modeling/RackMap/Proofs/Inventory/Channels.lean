/-
When the channels of a unit are described without a problem, and which channels it has then.

`WellDescribed` says of the fields of a unit what they have to get right: each field that is named like a channel
describes a channel of the type, and each description fits its slot (`Fits`). A slot is in use if its kind is fixed or
it is described (`InUse`), and `IsChannel` says what the channel in it is like.
- `declaredChannels_fst_eq_nil_iff`: the loop over the fields finds no fault iff they are named rightly and can be read;
- `describeChannel_some_fst_eq_nil_iff`: nor does the loop over the slots iff the descriptions fit;
- `describeUnit_fst_eq_nil_iff_wellDescribed`: hence a unit is entered without a problem iff it is well described;
- `addUnit_wellDescribed`: and then the channels in its slots in use are added, and no others.
-/
import Mathlib.Tactic
import RackMap.Proofs.Inventory.Entering

namespace RackMap

namespace Inventory

/-- what the fields say of a channel -/
def Describes (fields : Table String Json) (name : String) (c : ChannelDescription) : Prop :=
  ∃ json, fields.lookup? name = some json ∧ ChannelDescription.ofJson json = .ok c

/-- the kind of a described channel: the one that its slot has, or else the one that is declared -/
def HasKind (slot : ChannelSlot) (c : ChannelDescription) (kind : ChannelKind) : Prop :=
  slot.kind? = some kind ∨ slot.kind? = none ∧ c.mode? = some kind.text

/-- a description that is right for a slot -/
structure Fits (slot : ChannelSlot) (c : ChannelDescription) : Prop where
  mode : ∀ mode, c.mode? = some mode → mode = "complex" ∨ mode = "real"
  fixed : ∀ mode kind, c.mode? = some mode → slot.kind? = some kind → mode = kind.text
  declared : slot.kind? = none → ∃ mode, c.mode? = some mode
  complexOnly : c.mixLo?.isSome ∨ c.downconverter?.isSome → HasKind slot c .complex
  finite : ∀ frequency, c.downconverter? = some frequency → frequency.isFinite = true

/-- fields that describe channels of a type, and describe them rightly -/
structure WellDescribed (type : UnitType) (fields : Table String Json) : Prop where
  named : ∀ field ∈ fields, Catalogue.isChannelName field.1 = true →
    (∃ slot ∈ type.channels, slot.name = field.1) ∧ ∃ c, ChannelDescription.ofJson field.2 = .ok c
  fits : ∀ slot ∈ type.channels, ∀ c, Describes fields slot.name c → Fits slot c

/-- a slot whose kind is fixed is in use, and any other one if it is described -/
def InUse (fields : Table String Json) (slot : ChannelSlot) : Prop :=
  slot.kind? ≠ none ∨ ∃ c, Describes fields slot.name c

/-- the channel in a slot of the unit at `unitPath` -/
structure IsChannel (unitPath : String) (type : UnitType) (fields : Table String Json) (slot : ChannelSlot)
    (ch : Channel) : Prop where
  path : ch.path.text = unitPath ++ "." ++ slot.name
  kind : slot.kind? = some ch.kind ∨
    slot.kind? = none ∧ ∃ c, Describes fields slot.name c ∧ c.mode? = some ch.kind.text
  direction : ch.direction = slot.direction
  unitType : ch.unitType = type.name
  oscillator : ch.oscillator? = slot.oscillator?.map (.integrated unitPath)
  described : ∀ c, Describes fields slot.name c →
    ch.mixLo? = c.mixLo? ∧ ch.downconverter? = c.downconverter? ∧ ch.markerDebug? = c.markerDebug?
  undescribed : (¬∃ c, Describes fields slot.name c) →
    ch.mixLo? = none ∧ ch.downconverter? = none ∧ ch.markerDebug? = none

/-- the channels in the slots in use are added, and all else is as it was -/
structure Adds (path : String) (type : UnitType) (fields : Table String Json)
    (before after : Table ChannelPath Channel) : Prop where
  each : ∀ slot ∈ type.channels, InUse fields slot →
    ∃ ch, IsChannel path type fields slot ch ∧ after.lookup? ch.path = some ch
  only : ∀ other : ChannelPath, (¬∃ slot ∈ type.channels, InUse fields slot ∧ other.text = path ++ "." ++ slot.name) →
    after.lookup? other = before.lookup? other

variable {backend : Backend} {type : UnitType} {fields : Table String Json} {path location : String}
  {slot : ChannelSlot} {c : ChannelDescription} {kind : ChannelKind} {u : DeclaredUnit}

/-! ## The fields -/

theorem channel?_isNone_eq_false_iff {name : String} :
    (type.channel? name).isNone = false ↔ ∃ slot ∈ type.channels, slot.name = name := by
  simp [UnitType.channel?]

/-- the loop over the fields finds fault with no field that describes a channel of the type -/
theorem declaredChannels_fst_eq_nil_iff :
    (declaredChannels type fields location).1 = [] ↔ ∀ field ∈ fields, Catalogue.isChannelName field.1 = true →
      (∃ slot ∈ type.channels, slot.name = field.1) ∧ ∃ c, ChannelDescription.ofJson field.2 = .ok c := by
  simp only [declaredChannels, List.filterMap_eq_nil_iff, List.forall_mem_map, List.mem_filter, and_imp]
  refine forall₃_congr fun field _ _ => ?_
  rw [← channel?_isNone_eq_false_iff]
  cases hslot : (type.channel? field.1).isNone with
  | true => simp
  | false => cases hread : ChannelDescription.ofJson field.2 <;> simp [Except.mapError]

theorem said?_eq_some_iff {name : String} : u.said? name = some c ↔ Describes u.fields name c := by
  simp only [DeclaredUnit.said?, Option.bind_eq_some_iff, toOption_eq_some_iff, Describes]

/-! ## The slots -/

theorem text_inj {kind kind' : ChannelKind} : kind.text = kind'.text ↔ kind = kind' := by
  cases kind <;> cases kind' <;> decide

theorem HasKind.unique {kind' : ChannelKind} (h : HasKind slot c kind) (h' : HasKind slot c kind') : kind = kind' := by
  rcases h with h | ⟨hnone, h⟩ <;> rcases h' with h' | ⟨hnone', h'⟩
  · exact Option.some.inj (h.symm.trans h')
  · cases h.symm.trans hnone'
  · cases h'.symm.trans hnone
  · exact text_inj.1 (Option.some.inj (h.symm.trans h'))

/-- the kind that is told from a description: if a mode is declared, it is that one -/
theorem kindOf_some_eq_ok_iff :
    kindOf slot (some c) = .ok (some kind) ↔
      HasKind slot c kind ∧ ∀ mode, c.mode? = some mode → mode = kind.text ∧ kind ≠ .digital := by
  simp only [kindOf, HasKind, Option.bind_some]
  cases c.mode? with
  | none => cases slot.kind? <;> simp [declaredMode]
  | some mode =>
    rw [declaredMode]
    cases hdeclared : ChannelKind.ofMode? mode with
    | none =>
      have hnone : ¬(mode = kind.text ∧ kind ≠ .digital) := by
        intro h
        cases hdeclared.symm.trans (ofMode?_eq_some_iff.2 h)
      simp [hnone]
    | some declared =>
      obtain ⟨rfl, hdigital⟩ := ofMode?_eq_some_iff.1 hdeclared
      have hsame : declared = kind → kind ≠ .digital := fun h => h ▸ hdigital
      cases slot.kind? with
      | none => simpa [text_inj] using hsame
      | some fixed =>
        by_cases heq : fixed = declared
        · subst heq
          simpa [text_inj] using hsame
        · have hother : fixed = kind → declared ≠ kind := fun h h' => heq (h.trans h'.symm)
          simpa [heq, text_inj] using fun h h' => absurd h' (hother h)

/-- a channel that is described is in use, or else that is a problem -/
theorem kindOf_some_ne_ok_none : kindOf slot (some c) ≠ .ok none := by
  intro h
  obtain ⟨mode?, -, h⟩ := bind_eq_ok_iff.1 h
  simp only at h
  split at h
  · split at h <;> cases h
  · cases h
  · cases h
  · cases h

theorem descriptionCauses_eq_nil_iff :
    descriptionCauses kind c = [] ↔ (c.mixLo?.isSome ∨ c.downconverter?.isSome → kind = .complex) ∧
      ∀ frequency, c.downconverter? = some frequency → frequency.isFinite = true := by
  cases hfrequency : c.downconverter? <;> by_cases hkind : kind = .complex <;>
    simp [descriptionCauses, hfrequency, hkind]

/-- a description fits iff the slot has a kind with it, no other mode is declared, and the kind has what is given -/
theorem fits_iff : Fits slot c ↔ ∃ kind, kindOf slot (some c) = .ok (some kind) ∧ descriptionCauses kind c = [] := by
  simp only [kindOf_some_eq_ok_iff, descriptionCauses_eq_nil_iff]
  constructor
  · intro h
    obtain ⟨kind, hkind, hmode⟩ : ∃ kind, HasKind slot c kind ∧
        ∀ mode, c.mode? = some mode → mode = kind.text ∧ kind ≠ .digital := by
      cases hslot : slot.kind? with
      | some fixed =>
        refine ⟨fixed, Or.inl hslot, fun mode hmode => ⟨h.fixed mode fixed hmode hslot, ?_⟩⟩
        rintro rfl
        have htext : mode = "digital" := h.fixed mode .digital hmode hslot
        rcases h.mode mode hmode with rfl | rfl <;> revert htext <;> decide
      | none =>
        obtain ⟨mode, hmode⟩ := h.declared hslot
        rcases h.mode mode hmode with rfl | rfl
        · refine ⟨.complex, Or.inr ⟨hslot, hmode⟩, fun other hother => ⟨?_, nofun⟩⟩
          exact Option.some.inj (hother.symm.trans hmode)
        · refine ⟨.real, Or.inr ⟨hslot, hmode⟩, fun other hother => ⟨?_, nofun⟩⟩
          exact Option.some.inj (hother.symm.trans hmode)
    exact ⟨kind, ⟨hkind, hmode⟩, fun hgiven => hkind.unique (h.complexOnly hgiven), h.finite⟩
  · rintro ⟨kind, ⟨hkind, hmode⟩, hgiven, hfinite⟩
    refine ⟨fun mode hdeclared => ?_, fun mode fixed hdeclared hslot => ?_, fun hslot => ?_, fun hin => ?_, hfinite⟩
    · obtain ⟨rfl, hdigital⟩ := hmode mode hdeclared
      cases kind with
      | complex => exact Or.inl rfl
      | real => exact Or.inr rfl
      | digital => exact absurd rfl hdigital
    · obtain rfl : kind = fixed := hkind.unique (Or.inl hslot)
      exact (hmode mode hdeclared).1
    · rcases hkind with hfixed | ⟨-, hdeclared⟩
      · cases hfixed.symm.trans hslot
      · exact ⟨kind.text, hdeclared⟩
    · obtain rfl := hgiven hin
      exact hkind

/-- the loop over the slots finds fault with no description that fits -/
theorem describeChannel_some_fst_eq_nil_iff :
    (describeChannel path type location slot (some c)).1 = [] ↔ Fits slot c := by
  rw [fits_iff, describeChannel]
  cases hkind : kindOf slot (some c) with
  | error cause => simp
  | ok kind? =>
    cases kind? with
    | none => exact absurd hkind kindOf_some_ne_ok_none
    | some kind => simp [Report.located_eq_nil_iff]

/-- nor with a slot that is not described -/
theorem describeChannel_none_fst : (describeChannel path type location slot none).1 = [] := by
  have hkind : kindOf slot none = .ok slot.kind? := by cases hslot : slot.kind? <;> simp [kindOf, hslot, declaredMode]
  rw [describeChannel, hkind]
  cases slot.kind? with
  | none => rfl
  | some kind => cases kind <;> rfl

/-! ## Units -/

/-- **Units without problems.** A unit is described without a problem iff its fields describe channels of its type, and
each of them rightly. -/
theorem describeUnit_fst_eq_nil_iff_wellDescribed (htype : type ∈ backend.unitTypes) :
    (describeUnit path type fields location).1 = [] ↔ WellDescribed type fields := by
  have hslot : (declaredChannels type fields location).1 = [] → ∀ slot ∈ type.channels,
      ((describeChannel path type location slot ((declaredChannels type fields location).2.lookup? slot.name)).1 = [] ↔
        ∀ c, Describes fields slot.name c → Fits slot c) := by
    intro hdeclared slot hslot
    have hname := (slots_wellFormed backend type htype).2 slot hslot
    have hsaid : ∀ c, (declaredChannels type fields location).2.lookup? slot.name = some c ↔
        Describes fields slot.name c := by
      intro c
      rw [lookup?_declaredChannels hdeclared hname]
      exact said?_eq_some_iff (u := ⟨path, type, fields, false, location⟩)
    cases hfound : (declaredChannels type fields location).2.lookup? slot.name with
    | none =>
      have hnot : ∀ c, ¬Describes fields slot.name c := by simp [← hsaid, hfound]
      exact iff_of_true describeChannel_none_fst fun c hc => absurd hc (hnot c)
    | some c =>
      rw [describeChannel_some_fst_eq_nil_iff]
      simp only [← hsaid, hfound, Option.some.injEq, forall_eq']
  rw [describeUnit_fst_eq_nil_iff]
  constructor
  · rintro ⟨hdeclared, hslots⟩
    exact ⟨declaredChannels_fst_eq_nil_iff.1 hdeclared, fun slot hin => (hslot hdeclared slot hin).1 (hslots slot hin)⟩
  · intro h
    have hdeclared : (declaredChannels type fields location).1 = [] := declaredChannels_fst_eq_nil_iff.2 h.named
    exact ⟨hdeclared, fun slot hin => (hslot hdeclared slot hin).2 (h.fits slot hin)⟩

theorem inUse_of_provided? {ch : Channel} (h : u.provided? slot = some ch) : InUse u.fields slot := by
  obtain ⟨kind, hkind, -⟩ := Option.map_eq_some_iff.1 h
  rcases Option.or_eq_some_iff.1 hkind with hfixed | ⟨-, hmode⟩
  · exact Or.inl (by simp [hfixed])
  · obtain ⟨mode, hmode, -⟩ := Option.bind_eq_some_iff.1 hmode
    obtain ⟨c, hc, -⟩ := Option.bind_eq_some_iff.1 hmode
    exact Or.inr ⟨c, said?_eq_some_iff.1 hc⟩

/-- the kind of a channel whose description fits is the fixed one, or else the declared one -/
theorem kind?_of_fits (hfits : ∀ c, Describes u.fields slot.name c → Fits slot c) (huse : InUse u.fields slot) :
    ∃ kind, u.kind? slot = some kind ∧ (slot.kind? = some kind ∨
      slot.kind? = none ∧ ∃ c, Describes u.fields slot.name c ∧ c.mode? = some kind.text) := by
  cases hslot : slot.kind? with
  | some fixed => exact ⟨fixed, by rw [DeclaredUnit.kind?, hslot, Option.some_or], Or.inl rfl⟩
  | none =>
    obtain ⟨c, hc⟩ := huse.resolve_left fun h => h hslot
    obtain ⟨kind, hkind, -⟩ := fits_iff.1 (hfits c hc)
    obtain ⟨hkind, hmode⟩ := kindOf_some_eq_ok_iff.1 hkind
    have hdeclared : c.mode? = some kind.text := by
      rcases hkind with hfixed | ⟨-, hdeclared⟩
      · cases hslot.symm.trans hfixed
      · exact hdeclared
    have hofMode : ChannelKind.ofMode? kind.text = some kind := ofMode?_eq_some_iff.2 (hmode _ hdeclared)
    refine ⟨kind, ?_, Or.inr ⟨rfl, c, hc, hdeclared⟩⟩
    rw [DeclaredUnit.kind?, hslot, Option.none_or, said?_eq_some_iff.2 hc, Option.bind_some, hdeclared,
      Option.bind_some, hofMode]

/-- a slot in use has a channel, as the fields describe it -/
theorem exists_provided?_of_inUse (hfits : ∀ c, Describes u.fields slot.name c → Fits slot c)
    (huse : InUse u.fields slot) : ∃ ch, u.provided? slot = some ch ∧ IsChannel u.path u.type u.fields slot ch := by
  obtain ⟨kind, hkind, hfrom⟩ := kind?_of_fits hfits huse
  refine ⟨_, by rw [DeclaredUnit.provided?, hkind, Option.map_some], ?_⟩
  refine ⟨rfl, hfrom, rfl, rfl, rfl, fun c hc => ?_, fun hnot => ?_⟩
  · have hsaid : u.said? slot.name = some c := said?_eq_some_iff.2 hc
    simp only [hsaid, Option.bind_some, and_self]
  · have hsaid : u.said? slot.name = none := by
      cases hfound : u.said? slot.name with
      | none => rfl
      | some c => exact absurd ⟨c, said?_eq_some_iff.1 hfound⟩ hnot
    simp only [hsaid, Option.bind_none, and_self]

/-- the channels of a well described unit are put into the table, each under its path -/
theorem adds_of_wellDescribed (htype : u.type ∈ backend.unitTypes) (h : WellDescribed u.type u.fields)
    (before : Table ChannelPath Channel) :
    Adds u.path u.type u.fields before (u.described.2.foldl (fun t ch => t.put ch.path ch) before) := by
  have hclean : u.described.1 = [] := (describeUnit_fst_eq_nil_iff_wellDescribed htype).2 h
  have hnodup : (Table.keys (u.provided.map fun ch => (ch.path, ch))).Nodup := by
    rw [Table.keys, List.map_map]
    exact nodup_paths_provided htype
  have hlookup : ∀ path, (u.described.2.foldl (fun t ch => t.put ch.path ch) before).lookup? path =
      (Table.lookup? (u.provided.map fun ch => (ch.path, ch)) path).or (before.lookup? path) := by
    intro path
    rw [described_eq_provided htype hclean, ← Table.latest_eq_self hnodup, ← Table.lookup?_foldl_put, List.foldl_map]
  refine ⟨fun slot hslot huse => ?_, fun other hother => ?_⟩
  · obtain ⟨ch, hch, hlike⟩ := exists_provided?_of_inUse (h.fits slot hslot) huse
    have hmem : (ch.path, ch) ∈ u.provided.map fun ch => (ch.path, ch) :=
      List.mem_map_of_mem (mem_provided.2 ⟨slot, hslot, hch⟩)
    refine ⟨ch, hlike, ?_⟩
    rw [hlookup, Table.lookup?_of_mem hnodup hmem, Option.some_or]
  · have hnone : Table.lookup? (u.provided.map fun ch => (ch.path, ch)) other = none := by
      rw [Table.lookup?_eq_none_iff]
      intro hin
      obtain ⟨p, hp, rfl⟩ := List.mem_map.1 hin
      obtain ⟨ch, hch, rfl⟩ := List.mem_map.1 hp
      obtain ⟨slot, hslot, hprovided⟩ := mem_provided.1 hch
      refine hother ⟨slot, hslot, inUse_of_provided? hprovided, ?_⟩
      rw [path_of_provided? hprovided]
      rfl
    rw [hlookup, hnone, Option.none_or]

/-- **The channels of a unit.** Entering a unit notes no problem iff its fields describe channels of its type, and each
of them rightly; then the channels in its slots in use are added, as they are described, and no others. -/
theorem addUnit_wellDescribed (d : Draft) (path : String) (fields : Table String Json) (location : String)
    (htype : type ∈ backend.unitTypes) :
    ((d.addUnit path type fields location).report = d.report ↔ WellDescribed type fields) ∧
      (WellDescribed type fields → Adds path type fields d.inventory.channels
        (d.addUnit path type fields location).inventory.channels) := by
  rw [Draft.addUnit_eq d ⟨path, type, fields, false, location⟩]
  constructor
  · rw [List.append_right_eq_self]
    exact describeUnit_fst_eq_nil_iff_wellDescribed htype
  · intro h
    exact adds_of_wellDescribed (u := ⟨path, type, fields, false, location⟩) htype h d.inventory.channels

/-- an output that is declared complex, beside one that is not in use -/
theorem addUnit_wellDescribed_generator :
    let fields : Table String Json := [("channel_1", .obj [("mode", .str "complex"), ("mix_lo", .bool true)])]
    Catalogue.generator4 ∈ Backend.zhinst.unitTypes ∧ WellDescribed Catalogue.generator4 fields ∧
      Adds "hdawg0" Catalogue.generator4 fields []
        ((⟨empty .zhinst, []⟩ : Draft).addUnit "hdawg0" Catalogue.generator4 fields "").inventory.channels := by
  intro fields
  have htype : Catalogue.generator4 ∈ Backend.zhinst.unitTypes := by decide
  have hclean : ((⟨empty .zhinst, []⟩ : Draft).addUnit "hdawg0" Catalogue.generator4 fields "").report = [] := by
    decide +kernel
  obtain ⟨hiff, hadds⟩ := addUnit_wellDescribed ⟨empty .zhinst, []⟩ "hdawg0" fields "" htype
  exact ⟨htype, hiff.1 hclean, hadds (hiff.1 hclean)⟩

end Inventory

end RackMap
