/-
Units that hide each other.

A module is not put where there is a unit already, but an instrument that is a unit itself is entered without a look at
its place. So an instrument that is named like the path of a module, and comes after it, hides the module with its
channels; where it comes first, the module is refused.
- `TellsUnits` says that an inventory finds every unit and every channel that is declared, and nothing else, in whatever
  order the instruments are written;
- `build_tells_units`: so it is of every description that is accepted, unless an instrument is named like a module;
- `hidingDescription_hides` is a description with such a name.
-/
import Mathlib.Tactic
import RackMap.Proofs.Inventory.Entering

namespace RackMap.Inventory

variable {backend : Backend} {inv inv' : Inventory} {description description' : HardwareDescription}
  {entry : String × InstrumentDescription} {u v : DeclaredUnit} {type : UnitType}

/-! ## Declared units -/

/-- a unit of its own is the instrument, under its name -/
theorem path_of_mem_unitsOf (h : u ∈ unitsOf backend entry) (hslot : u.inSlot = false) :
    u.path = entry.1 ∧ unitsOf backend entry = [u] := by
  obtain ⟨type, -, ⟨hmodule, -⟩ | ⟨-, -, hsingle⟩⟩ := unitsOf_cases h
  · rw [hmodule] at hslot
    cases hslot
  · exact hsingle

/-- a module has a type for slots -/
theorem isModuleType_of_mem_unitsOf (h : u ∈ unitsOf backend entry) (hslot : u.inSlot = true) :
    backend.isModuleType u.type.name = true := by
  obtain ⟨composite, htype, ⟨-, htaken, -⟩ | ⟨hsingle, -⟩⟩ := unitsOf_cases h
  · exact List.any_eq_true.2 ⟨composite, unitType?_mem htype, by simpa using htaken⟩
  · rw [hsingle] at hslot
    cases hslot

theorem type_mem_of_mem_unitsOf (h : u ∈ unitsOf backend entry) : u.type ∈ backend.unitTypes := by
  obtain ⟨type, htype, ⟨-, -, hmem⟩ | ⟨-, rfl, -⟩⟩ := unitsOf_cases h
  · exact hmem
  · exact unitType?_mem htype

/-- a unit of its own has no type for slots, if the instrument is accepted -/
theorem not_isModuleType_of_sound (hsound : Sound backend entry) (h : u ∈ unitsOf backend entry)
    (hslot : u.inSlot = false) : backend.isModuleType u.type.name = false := by
  obtain ⟨type, htype, hmodule, -⟩ := hsound.typed h
  obtain ⟨type', htype', ⟨hin, -⟩ | ⟨-, rfl, -⟩⟩ := unitsOf_cases h
  · rw [hin] at hslot
    cases hslot
  · rw [htype, Option.some.injEq] at htype'
    rw [← htype']
    exact hmodule

theorem types_mem (u : DeclaredUnit) (hu : u ∈ declaredUnits backend description) : u.type ∈ backend.unitTypes := by
  obtain ⟨entry, -, hu⟩ := List.mem_flatMap.1 hu
  exact type_mem_of_mem_unitsOf hu

/-- no instrument that is a unit itself is named like the path of a module -/
def NamesApart (backend : Backend) (description : HardwareDescription) : Prop :=
  ∀ u ∈ declaredUnits backend description, ∀ v ∈ declaredUnits backend description,
    u.inSlot = false → v.inSlot = true → u.path ≠ v.path

/-- instruments that are units themselves have different paths, since they have different names -/
theorem pairwise_names (hkeys : description.keys.Nodup) :
    (declaredUnits backend description).Pairwise fun u v =>
      u.inSlot = false → v.inSlot = false → u.path ≠ v.path := by
  have hnames : description.Pairwise fun e e' => e.1 ≠ e'.1 := List.pairwise_map.1 hkeys
  refine List.pairwise_flatMap.2 ⟨fun entry hentry => ?_, hnames.imp fun {e e'} hne u hu v hv hslot hslot' => ?_⟩
  · by_cases hsingle : ∃ u ∈ unitsOf backend entry, u.inSlot = false
    · obtain ⟨u, hu, hslot⟩ := hsingle
      rw [(path_of_mem_unitsOf hu hslot).2]
      exact List.pairwise_singleton _ _
    · refine List.pairwise_of_forall_mem_list fun u hu v hv hslot => ?_
      exact absurd ⟨u, hu, hslot⟩ hsingle
  · rw [(path_of_mem_unitsOf hu hslot).1, (path_of_mem_unitsOf hv hslot').1]
    exact hne

/-- **Places of their own.** Where modules are put into free places, and no instrument is named like a module, all units
have different paths. -/
theorem nodup_paths (hkeys : description.keys.Nodup) (hfree : Free [] (declaredUnits backend description))
    (happart : NamesApart backend description) :
    ((declaredUnits backend description).map DeclaredUnit.path).Nodup := by
  have hnames : (declaredUnits backend description).Pairwise _ := pairwise_names hkeys
  refine List.pairwise_map.2 ((hfree.apart.and hnames).imp_of_mem ?_)
  rintro u v hu hv ⟨hmodule, hsingle⟩
  cases hslot' : v.inSlot with
  | true => exact hmodule hslot'
  | false =>
    cases hslot : u.inSlot with
    | true => exact (happart v hv u hu hslot' hslot).symm
    | false => exact hsingle hslot hslot'

theorem free_of_nodup {units : List DeclaredUnit} (h : (units.map DeclaredUnit.path).Nodup) : Free [] units := by
  have hpairs : units.Pairwise fun u v => u.path ≠ v.path := List.pairwise_map.1 h
  have hapart : units.Pairwise fun u v => v.inSlot = true → u.path ≠ v.path := by
    refine hpairs.imp ?_
    intro u v hne _
    exact hne
  exact ⟨by simp, hapart⟩

/-! ## What is found -/

/-- the units of sound instruments are described without a problem -/
theorem described_clean (hsound : ∀ entry ∈ description, Sound backend entry)
    (hu : u ∈ declaredUnits backend description) : u.described.1 = [] := by
  obtain ⟨entry, hentry, hunit⟩ := List.mem_flatMap.1 hu
  obtain ⟨type, htype, -, htyped⟩ := (hsound entry hentry).typed hunit
  rw [unitsOf_of_type htype] at hunit
  exact htyped.channels u hunit

theorem channels_eq_provided (hsound : ∀ entry ∈ description, Sound backend entry) :
    ((declaredUnits backend description).flatMap fun u => u.described.2) =
      (declaredUnits backend description).flatMap DeclaredUnit.provided :=
  List.flatMap_congr fun u hu => described_eq_provided (types_mem u hu) (described_clean hsound hu)

/-- what an inventory answers about a description: what is declared, and nothing else -/
structure Answers (backend : Backend) (description : HardwareDescription) (inv : Inventory) : Prop where
  unit : ∀ path type, inv.unit? path = some type ↔
    ∃ u ∈ declaredUnits backend description, u.path = path ∧ u.type = type
  /-- a channel has the type of its unit, its kind, its direction, its integrated oscillator and what is said of it -/
  channel : ∀ path ch, inv.channel? path = some ch ↔
    ∃ u ∈ declaredUnits backend description, ∃ slot ∈ u.type.channels, u.provided? slot = some ch ∧ ch.path = path
  oscillator : ∀ name o, inv.oscillator? name = some o ↔
    ∃ entry ∈ description, oscillatorOf? entry = some o ∧ o.name = name
  instrument : ∀ name type, inv.instrumentType? name = some type ↔
    ∃ entry ∈ description, entry.1 = name ∧ entry.2.type = type

theorem name_of_oscillatorOf? {o : Oscillator} (h : oscillatorOf? entry = some o) : o.name = entry.1 := by
  unfold oscillatorOf? at h
  split at h
  · cases h; rfl
  · cases h

theorem nodup_oscillator_names (hkeys : description.keys.Nodup) :
    ((description.filterMap oscillatorOf?).map Oscillator.name).Nodup := by
  have hnames : description.Pairwise fun e e' => e.1 ≠ e'.1 := List.pairwise_map.1 hkeys
  refine List.pairwise_map.2 (List.pairwise_filterMap.2 (hnames.imp fun hne o ho o' ho' heq => hne ?_))
  rw [← name_of_oscillatorOf? ho, ← name_of_oscillatorOf? ho', heq]

/-- units at different paths are all found, with all their channels -/
theorem answers_of_nodup (hsound : ∀ entry ∈ description, Sound backend entry) (hkeys : description.keys.Nodup)
    (hpaths : ((declaredUnits backend description).map DeclaredUnit.path).Nodup) :
    Answers backend description (description.foldl (withEntry backend) (empty backend)) := by
  rw [foldl_withEntry, channels_eq_provided hsound]
  refine ⟨fun path type => Table.lookup?_foldl_put_iff hpaths, fun path ch => ?_, fun name o => ?_, fun name type => ?_⟩
  · have hchannels := nodup_paths_flatMap_provided types_mem hpaths
    refine (Table.lookup?_foldl_put_iff (g := fun c => c) hchannels).trans ?_
    simp only [List.mem_flatMap, mem_provided]
    constructor
    · rintro ⟨_, ⟨u, hu, slot, hslot, hch⟩, hpath, rfl⟩
      exact ⟨u, hu, slot, hslot, hch, hpath⟩
    · rintro ⟨u, hu, slot, hslot, hch, hpath⟩
      exact ⟨ch, ⟨u, hu, slot, hslot, hch⟩, hpath, rfl⟩
  · refine (Table.lookup?_foldl_put_iff (g := fun o => o) (nodup_oscillator_names hkeys)).trans ?_
    constructor
    · rintro ⟨_, ho, hname, rfl⟩
      obtain ⟨entry, hentry, ho⟩ := List.mem_filterMap.1 ho
      exact ⟨entry, hentry, ho, hname⟩
    · rintro ⟨entry, hentry, ho, hname⟩
      exact ⟨o, List.mem_filterMap.2 ⟨entry, hentry, ho⟩, hname, rfl⟩
  · exact Table.lookup?_foldl_put_iff hkeys

/-- two inventories that answer every question alike -/
structure Alike (inv inv' : Inventory) : Prop where
  unit : ∀ path, inv.unit? path = inv'.unit? path
  channel : ∀ path, inv.channel? path = inv'.channel? path
  oscillator : ∀ name, inv.oscillator? name = inv'.oscillator? name
  instrument : ∀ name, inv.instrumentType? name = inv'.instrumentType? name

theorem declaredUnits_perm (h : description'.Perm description) :
    (declaredUnits backend description').Perm (declaredUnits backend description) := h.flatMap_right _

theorem alike_of_perm (h : Answers backend description inv) (h' : Answers backend description' inv')
    (hperm : description'.Perm description) : Alike inv' inv where
  unit path := Option.ext fun type => by
    rw [h'.unit, h.unit]
    simp only [(declaredUnits_perm hperm).mem_iff]
  channel path := Option.ext fun ch => by
    rw [h'.channel, h.channel]
    simp only [(declaredUnits_perm hperm).mem_iff]
  oscillator name := Option.ext fun o => by
    rw [h'.oscillator, h.oscillator]
    simp only [hperm.mem_iff]
  instrument name := Option.ext fun type => by
    rw [h'.instrument, h.instrument]
    simp only [hperm.mem_iff]

/-! ## Descriptions that are accepted -/

/-- no unit of a description hides another one: every unit has its own path, the inventory answers what is declared, and
the order in which the instruments are written plays no part -/
structure TellsUnits (backend : Backend) (description : HardwareDescription) (inv : Inventory) : Prop where
  paths : ((declaredUnits backend description).map DeclaredUnit.path).Nodup
  answers : Answers backend description inv
  order : ∀ description' : HardwareDescription, description'.Perm description →
    ∃ inv', build description' backend = .ok inv' ∧ Alike inv' inv

/-- **Units of an accepted description.** None hides another one iff no instrument that is a unit itself is named like
the path of a module. If one is, there is a unit that is not found under its path. -/
theorem build_tells_units (h : build description backend = .ok inv) (hkeys : description.keys.Nodup) :
    (TellsUnits backend description inv ↔ NamesApart backend description) ∧
      (¬NamesApart backend description →
        ∃ u ∈ declaredUnits backend description, inv.unit? u.path ≠ some u.type) := by
  obtain ⟨hsound, hfree, rfl⟩ := build_eq_ok_iff.1 h
  have hfound : (∀ u ∈ declaredUnits backend description,
      (description.foldl (withEntry backend) (empty backend)).unit? u.path = some u.type) →
        NamesApart backend description := by
    intro hall u hu v hv hslot hslot' heq
    have htype : u.type = v.type := by
      rw [← Option.some.injEq, ← hall u hu, ← hall v hv, heq]
    obtain ⟨entry, hentry, hu⟩ := List.mem_flatMap.1 hu
    obtain ⟨entry', -, hv⟩ := List.mem_flatMap.1 hv
    have hnot := not_isModuleType_of_sound (hsound entry hentry) hu hslot
    rw [htype, isModuleType_of_mem_unitsOf hv hslot'] at hnot
    cases hnot
  constructor
  · constructor
    · intro htells
      exact hfound fun u hu => (htells.answers.unit u.path u.type).2 ⟨u, hu, rfl, rfl⟩
    · intro happart
      have hpaths := nodup_paths hkeys hfree happart
      have hanswers := answers_of_nodup hsound hkeys hpaths
      refine ⟨hpaths, hanswers, fun description' hperm => ?_⟩
      have hpaths' : ((declaredUnits backend description').map DeclaredUnit.path).Nodup :=
        ((declaredUnits_perm hperm).map _).nodup_iff.2 hpaths
      have hsound' : ∀ entry ∈ description', Sound backend entry := fun entry he => hsound entry (hperm.mem_iff.1 he)
      have hkeys' : description'.keys.Nodup := (hperm.map Prod.fst).nodup_iff.2 hkeys
      exact ⟨_, build_eq_ok_iff.2 ⟨hsound', free_of_nodup hpaths', rfl⟩,
        alike_of_perm hanswers (answers_of_nodup hsound' hkeys' hpaths') hperm⟩
  · intro hclash
    by_contra hnone
    refine hclash (hfound fun u hu => ?_)
    by_contra hhidden
    exact hnone ⟨u, hu, hhidden⟩

/-- the instruments of a description that is read from a document have different names -/
theorem nodup_keys_of_read {e : Json.Excerpt} (h : HardwareDescription.read e = .ok description) :
    description.keys.Nodup := by
  obtain ⟨entries, -, rfl⟩ := map_eq_ok_iff.1 h
  have hnil : (Table.keys ([] : HardwareDescription)).Nodup := List.nodup_nil
  exact Table.nodup_keys_foldl_put hnil

/-- a rack with a module, an instrument with channels of its own, and an oscillator -/
def plainDescription : HardwareDescription :=
  [("cluster0", { (default : InstrumentDescription) with type := "Cluster", modules? := some [("1", ⟨"QCM_RF", []⟩)] }),
    ("pulsar0", { (default : InstrumentDescription) with type := "Pulsar_QCM" }),
    ("lo0", { (default : InstrumentDescription) with type := "LocalOscillator" })]

/-- nothing is hidden where the names are apart -/
theorem plainDescription_told :
    ∃ inv, build plainDescription .qblox = .ok inv ∧ plainDescription.keys.Nodup ∧
      TellsUnits .qblox plainDescription inv := by
  obtain ⟨inv, hinv, -⟩ := exists_eq_ok (x := build plainDescription .qblox) (c := fun _ => true) (by decide +kernel)
  have hkeys : plainDescription.keys.Nodup := by decide
  have happart : NamesApart .qblox plainDescription := by
    unfold NamesApart
    decide +kernel
  exact ⟨inv, hinv, hkeys, (build_tells_units hinv hkeys).1.2 happart⟩

/-- a rack with a module, and an instrument that is named like its path -/
def hidingDescription : HardwareDescription :=
  [("cluster0", { (default : InstrumentDescription) with type := "Cluster", modules? := some [("1", ⟨"QCM_RF", []⟩)] }),
    ("cluster0.module1", { (default : InstrumentDescription) with type := "Pulsar_QCM" })]

/-- the instrument hides the module, and is refused if the instruments are written the other way round -/
theorem hidingDescription_hides :
    ∃ inv, build hidingDescription .qblox = .ok inv ∧ hidingDescription.keys.Nodup ∧
      (∃ u ∈ declaredUnits .qblox hidingDescription, u.inSlot = true ∧ inv.unit? u.path ≠ some u.type ∧
        ∃ slot ∈ u.type.channels, ∃ ch, u.provided? slot = some ch ∧ inv.channel? ch.path ≠ some ch) ∧
      ∃ report, build hidingDescription.reverse .qblox = .error (.schema report) := by
  obtain ⟨inv, hinv, hhidden⟩ := exists_eq_ok (x := build hidingDescription .qblox)
    (c := fun inv => (declaredUnits .qblox hidingDescription).any fun u =>
      u.inSlot && inv.unit? u.path ≠ some u.type && u.type.channels.any fun slot =>
        (u.provided? slot).any fun ch => inv.channel? ch.path ≠ some ch)
    (by decide +kernel)
  simp only [List.any_eq_true, Option.any_eq_true, Bool.and_eq_true, decide_eq_true_eq] at hhidden
  obtain ⟨u, hu, ⟨hslot, htype⟩, slot, hchannel, ch, hprovided, hlost⟩ := hhidden
  have hreport : (draft hidingDescription.reverse .qblox).report.isEmpty = false := by decide +kernel
  have hrefused : build hidingDescription.reverse .qblox =
      .error (.schema (draft hidingDescription.reverse .qblox).report) := by
    rw [build]
    exact if_neg (by rw [hreport]; exact Bool.false_ne_true)
  exact ⟨inv, hinv, by decide, ⟨u, hu, hslot, htype, slot, hchannel, ch, hprovided, hlost⟩, _, hrefused⟩

end RackMap.Inventory
