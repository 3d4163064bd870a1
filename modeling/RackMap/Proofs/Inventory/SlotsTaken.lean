/-
Which slots of a composite instrument are reported as taken.

- `mem_addModule_iff`: a slot is reported as taken iff it is numbered, takes its module, and there is a unit at its
  path already;
- `mem_keys_foldl_addModule`: after some slots there are units at the paths of their numbers;
- `mem_foldl_addInstrument_of_other`: no instrument reports a slot of another one;
- `slots_told_by_numbers`: hence the slots that are reported are those whose number has come up before.
-/
import Mathlib.Tactic
import RackMap.Proofs.Inventory.SlotNumbers

namespace RackMap

namespace Inventory

/-- the problem of a slot of an instrument that is taken -/
def slotIssue (name slot moduleName : String) : Issue :=
  ⟨s!"hardware_description.{name}.modules.{slot}", .slotTaken moduleName⟩

/-- a composite instrument all of whose slots are numbers, each with a module of a type that the instrument takes -/
structure Slotted (backend : Backend) (type : UnitType) (i : InstrumentDescription)
    (modules : Table String ModuleDescription) : Prop where
  known : backend.unitType? i.type = some type
  composite : type.isComposite = true
  given : i.modules? = some modules
  distinct : modules.keys.Nodup
  numbered : ∀ slot ∈ modules, ∃ n, Denotes slot.1 n
  accepted : ∀ slot ∈ modules, slot.2.type ∈ type.moduleTypes

variable {backend : Backend} {d : Draft} {u : DeclaredUnit} {name location place m : String} {composite type : UnitType}
  {slot : String × ModuleDescription} {slots : List (String × ModuleDescription)} {i : InstrumentDescription}
  {entry : String × InstrumentDescription} {entries : HardwareDescription} {report report' : Report}

/-! ## Other problems -/

/-- no problem of the report is a slot that is taken -/
def Silent (report : Report) : Prop := ∀ place m, (⟨place, .slotTaken m⟩ : Issue) ∉ report

theorem Silent.mem_append_iff (h : Silent report') :
    (⟨place, .slotTaken m⟩ : Issue) ∈ report ++ report' ↔ (⟨place, .slotTaken m⟩ : Issue) ∈ report := by
  rw [List.mem_append, or_iff_left (h place m)]

theorem silent_located_iff {causes : List Cause} :
    Silent (Report.located location causes) ↔ ∀ m, .slotTaken m ∉ causes := by
  simp [Silent, Report.located]

theorem silent_singleton {cause : Cause} (h : ∀ m, cause ≠ .slotTaken m) : Silent [⟨location, cause⟩] := by
  intro place m hin
  obtain ⟨-, rfl⟩ := Issue.mk.inj (List.mem_singleton.1 hin)
  exact h m rfl

theorem silent_declaredChannels (type : UnitType) (fields : Table String Json) (location : String) :
    Silent (declaredChannels type fields location).1 := by
  intro place m hin
  obtain ⟨_, hresult, hissue⟩ := List.mem_filterMap.1 hin
  obtain ⟨field, -, rfl⟩ := List.mem_map.1 hresult
  simp only at hissue
  split at hissue
  · rename_i cause hcause
    cases hissue
    split at hcause
    · cases hcause
    · cases hread : ChannelDescription.ofJson field.2 <;> simp [hread, Except.mapError] at hcause
  · cases hissue

theorem kindOf_ne_slotTaken {slot : ChannelSlot} {description? : Option ChannelDescription} :
    kindOf slot description? ≠ .error (.slotTaken m) := by
  intro h
  rcases bind_eq_error_iff.1 h with h | ⟨mode?, -, h⟩
  · unfold declaredMode at h
    split at h
    · cases h
    · split at h <;> cases h
  · simp only at h
    split at h
    · split at h <;> cases h
    · cases h
    · cases h
    · split at h <;> cases h

theorem silent_describeChannel (path : String) (type : UnitType) (location : String) (slot : ChannelSlot)
    (description? : Option ChannelDescription) : Silent (describeChannel path type location slot description?).1 := by
  unfold describeChannel
  cases hkind : kindOf slot description? with
  | error cause =>
    apply silent_singleton
    rintro m rfl
    exact kindOf_ne_slotTaken hkind
  | ok kind? =>
    cases kind? with
    | none => exact fun place m => List.not_mem_nil
    | some kind =>
      apply silent_located_iff.2
      intro m
      simp [descriptionCauses]

/-- the channels of a unit are no slots -/
theorem silent_describeUnit (path : String) (type : UnitType) (fields : Table String Json) (location : String) :
    Silent (describeUnit path type fields location).1 := by
  intro place m hin
  rcases List.mem_append.1 hin with hin | hin
  · exact silent_declaredChannels type fields location place m hin
  · obtain ⟨_, hresult, hin⟩ := List.mem_flatMap.1 hin
    obtain ⟨slot, -, rfl⟩ := List.mem_map.1 hresult
    exact silent_describeChannel path type location slot _ place m hin

theorem slotTaken_notMem_settingCauses : .slotTaken m ∉ Draft.settingCauses type i := by
  unfold Draft.settingCauses
  rw [List.mem_append, not_or]
  constructor
  · split
    · exact List.not_mem_nil
    · split_ifs <;> simp
  · split <;> simp

theorem slotTaken_notMem_oscillatorCauses : .slotTaken m ∉ Draft.oscillatorCauses i := by
  simp [Draft.oscillatorCauses]

/-! ## One slot -/

/-- a slot that is taken says so, at its own place -/
theorem mem_addModule_iff (hbackend : d.inventory.backend = backend) :
    (⟨place, .slotTaken m⟩ : Issue) ∈ (d.addModule name composite location slot).report ↔
      (⟨place, .slotTaken m⟩ : Issue) ∈ d.report ∨
        ∃ u, moduleUnit? backend name composite location slot = some u ∧ u.path ∈ d.inventory.units.keys ∧
          moduleName? slot.1 = some m ∧ place = s!"{location}.modules.{slot.1}" := by
  subst hbackend
  rcases Draft.addModule_cases d name composite location slot with
    ⟨u, hu, hfree, hstep⟩ | ⟨u, m', hu, htaken, hname, hstep⟩ | ⟨hnone, cause, hcause, hstep⟩
  · rw [hstep, or_iff_left]
    · exact (silent_describeUnit u.path u.type u.fields u.location).mem_append_iff
    · rintro ⟨v, hv, htaken, -⟩
      obtain rfl := Option.some.inj (hu.symm.trans hv)
      exact hfree htaken
  · rw [hstep, Draft.note, List.mem_append, List.mem_singleton, Issue.mk.injEq, Cause.slotTaken.injEq]
    apply or_congr_right
    constructor
    · rintro ⟨rfl, rfl⟩
      exact ⟨u, hu, htaken, hname, rfl⟩
    · rintro ⟨-, -, -, hname', rfl⟩
      exact ⟨rfl, Option.some.inj (hname'.symm.trans hname)⟩
  · rw [hstep, or_iff_left]
    · exact (silent_singleton hcause).mem_append_iff
    · rintro ⟨v, hv, -⟩
      cases hnone.symm.trans hv

theorem mem_keys_addModule {path : String} (hbackend : d.inventory.backend = backend) :
    path ∈ (d.addModule name composite location slot).inventory.units.keys ↔
      path ∈ d.inventory.units.keys ∨
        ∃ u, moduleUnit? backend name composite location slot = some u ∧ u.path = path := by
  subst hbackend
  rcases Draft.addModule_cases d name composite location slot with
    ⟨u, hu, -, hstep⟩ | ⟨u, m', hu, htaken, -, hstep⟩ | ⟨hnone, cause, -, hstep⟩
  · rw [hstep, mem_keys_withDeclared, hu]
    simp [eq_comm]
  · rw [hstep, hu]
    refine (or_iff_left_of_imp ?_).symm
    rintro ⟨v, hv, rfl⟩
    obtain rfl := Option.some.inj hv
    exact htaken
  · rw [hstep, hnone]
    simp [Draft.note]

/-! ## The slots of an instrument -/

theorem backend_foldl_addModule (name : String) (composite : UnitType) (location : String)
    (slots : List (String × ModuleDescription)) (hbackend : d.inventory.backend = backend) :
    (slots.foldl (Draft.addModule name composite location) d).inventory.backend = backend :=
  ((kept_true backend).foldl_addModule ⟨hbackend, trivial⟩ name composite location).1

theorem mem_keys_foldl_addModule {path : String} (hbackend : d.inventory.backend = backend) :
    path ∈ (slots.foldl (Draft.addModule name composite location) d).inventory.units.keys ↔
      path ∈ d.inventory.units.keys ∨
        ∃ slot ∈ slots, ∃ u, moduleUnit? backend name composite location slot = some u ∧ u.path = path := by
  induction slots generalizing d with
  | nil => simp
  | cons slot rest ih =>
    have hkept : (d.addModule name composite location slot).inventory.backend = backend :=
      ((kept_true backend).addModule ⟨hbackend, trivial⟩ name composite location slot).1
    rw [List.foldl_cons, ih hkept, mem_keys_addModule hbackend, or_assoc]
    simp only [List.mem_cons, exists_eq_or_imp]

/-- slots elsewhere say nothing of a place -/
theorem mem_foldl_addModule_of_other (hbackend : d.inventory.backend = backend)
    (h : ∀ slot ∈ slots, moduleName? slot.1 = some m → place ≠ s!"{location}.modules.{slot.1}") :
    (⟨place, .slotTaken m⟩ : Issue) ∈ (slots.foldl (Draft.addModule name composite location) d).report ↔
      (⟨place, .slotTaken m⟩ : Issue) ∈ d.report := by
  induction slots generalizing d with
  | nil => rfl
  | cons slot rest ih =>
    obtain ⟨hslot, hrest⟩ := List.forall_mem_cons.1 h
    have hkept : (d.addModule name composite location slot).inventory.backend = backend :=
      ((kept_true backend).addModule ⟨hbackend, trivial⟩ name composite location slot).1
    rw [List.foldl_cons, ih hkept hrest, mem_addModule_iff hbackend, or_iff_left]
    rintro ⟨-, -, -, hname, hplace⟩
    exact hslot hname hplace

/-! ## Other instruments -/

/-- a composite instrument notes what is wrong with its settings, and then goes through its slots -/
theorem addTyped_of_composite (d : Draft) (name : String) (i : InstrumentDescription) (location : String)
    (h : type.isComposite = true) :
    ∃ report, Silent report ∧ d.addTyped name type i location =
      (i.modules?.getD []).foldl (Draft.addModule name type location) ⟨d.inventory, d.report ++ report⟩ := by
  refine ⟨Report.located location (Draft.settingCauses type i) ++
    (i.fields.keys.filter Catalogue.isChannelName).map fun key =>
      ⟨s!"{location}.{key}", .channelOutsideModule type.name⟩, ?_, ?_⟩
  · intro place m hin
    rcases List.mem_append.1 hin with hin | hin
    · exact silent_located_iff.2 (fun m => slotTaken_notMem_settingCauses) place m hin
    · obtain ⟨key, -, hissue⟩ := List.mem_map.1 hin
      cases hissue
  · simp only [Draft.addTyped, if_pos h, Draft.noteAll, List.append_assoc]

/-- any other instrument has no slots -/
theorem addTyped_of_single (d : Draft) (name : String) (i : InstrumentDescription) (location : String)
    (h : type.isComposite = false) :
    ∃ report, Silent report ∧ (d.addTyped name type i location).report = d.report ++ report := by
  refine ⟨Report.located location (Draft.settingCauses type i) ++
    ((if i.modules?.isSome then [⟨location, .noSlots type.name⟩] else []) ++
      (describeUnit name type i.fields location).1), ?_, ?_⟩
  · intro place m hin
    rcases List.mem_append.1 hin with hin | hin
    · exact silent_located_iff.2 (fun m => slotTaken_notMem_settingCauses) place m hin
    · rcases List.mem_append.1 hin with hin | hin
      · split at hin
        · exact silent_singleton (by simp) place m hin
        · cases hin
      · exact silent_describeUnit name type i.fields location place m hin
  · cases hmodules : i.modules? <;> simp [Draft.addTyped, h, hmodules, Draft.noteAll, Draft.note, Draft.addUnit]

theorem dot_notMem_of_moduleName? {slot : String} (h : moduleName? slot = some m) : '.' ∉ slot.toList := by
  obtain ⟨n, ⟨digits, -, hdigits, hslot, -⟩, -⟩ := moduleName?_eq_some_iff.1 h
  have hdot : '.' ∉ digits.toList := fun hin => absurd (hdigits '.' hin) (by decide)
  rcases hslot with rfl | rfl
  · exact hdot
  · simpa using hdot

/-- a slot is told by where its problems are -/
theorem place_inj {other slot otherSlot : String} (h : '.' ∉ slot.toList) (h' : '.' ∉ otherSlot.toList)
    (heq : s!"hardware_description.{name}.modules.{slot}" = s!"hardware_description.{other}.modules.{otherSlot}") :
    name = other ∧ slot = otherSlot := by
  have hlist : ("hardware_description." ++ name ++ ".modules").toList ++ '.' :: slot.toList =
      ("hardware_description." ++ other ++ ".modules").toList ++ '.' :: otherSlot.toList := by
    simpa [toString] using congrArg String.toList heq
  obtain ⟨hname, hslot⟩ := Text.append_cons_inj h h' hlist
  refine ⟨String.toList_inj.1 ?_, String.toList_inj.1 hslot⟩
  simpa using hname

/-- an instrument of another name says nothing of a slot -/
theorem mem_addInstrument_of_other {slot : String} (hother : entry.1 ≠ name) (hslot : '.' ∉ slot.toList) :
    slotIssue name slot m ∈ (d.addInstrument entry).report ↔ slotIssue name slot m ∈ d.report := by
  unfold slotIssue
  by_cases hoscillator : entry.2.type = Catalogue.oscillatorType
  · rw [Draft.addInstrument_of_oscillator d.inventory.backend hoscillator]
    exact (silent_located_iff.2 fun m => slotTaken_notMem_oscillatorCauses).mem_append_iff
  cases htype : d.inventory.backend.unitType? entry.2.type with
  | none =>
    simp only [Draft.addInstrument, if_neg hoscillator, htype]
    exact (silent_singleton (by simp)).mem_append_iff
  | some type =>
    cases hmodule : d.inventory.backend.isModuleType type.name with
    | true =>
      simp only [Draft.addInstrument, if_neg hoscillator, htype, hmodule, if_true]
      exact (silent_singleton (by simp)).mem_append_iff
    | false =>
      rw [Draft.addInstrument_of_type hoscillator htype hmodule]
      cases hcomposite : type.isComposite with
      | true =>
        obtain ⟨report, hsilent, hstep⟩ := addTyped_of_composite
          ⟨d.inventory.withInstrument entry.1 entry.2.type, d.report⟩ entry.1 entry.2
          s!"hardware_description.{entry.1}" hcomposite
        rw [hstep, mem_foldl_addModule_of_other rfl, hsilent.mem_append_iff]
        intro slot' _ hname heq
        exact hother (place_inj hslot (dot_notMem_of_moduleName? hname) heq).1.symm
      | false =>
        obtain ⟨report, hsilent, hstep⟩ := addTyped_of_single
          ⟨d.inventory.withInstrument entry.1 entry.2.type, d.report⟩ entry.1 entry.2
          s!"hardware_description.{entry.1}" hcomposite
        rw [hstep, hsilent.mem_append_iff]

theorem mem_foldl_addInstrument_of_other {slot : String} (hother : ∀ entry ∈ entries, entry.1 ≠ name)
    (hslot : '.' ∉ slot.toList) :
    slotIssue name slot m ∈ (entries.foldl Draft.addInstrument d).report ↔ slotIssue name slot m ∈ d.report := by
  induction entries generalizing d with
  | nil => rfl
  | cons entry rest ih =>
    obtain ⟨hentry, hrest⟩ := List.forall_mem_cons.1 hother
    rw [List.foldl_cons, ih hrest, mem_addInstrument_of_other hentry hslot]

/-! ## Numbers of slots -/

theorem composite_wellFormed : ∀ backend : Backend, ∀ type ∈ backend.unitTypes, type.isComposite = true →
    backend.isModuleType type.name = false ∧ ∀ name ∈ type.moduleTypes, (backend.unitType? name).isSome = true := by
  intro backend
  cases backend <;> decide

/-- a slot with a name gets its module at the path of that name -/
theorem exists_moduleUnit? (name location : String) (htype : composite ∈ backend.unitTypes)
    (hcomposite : composite.isComposite = true) (haccepted : slot.2.type ∈ composite.moduleTypes)
    (hname : moduleName? slot.1 = some m) :
    ∃ u, moduleUnit? backend name composite location slot = some u ∧ u.path = s!"{name}.{m}" := by
  have hknown := (composite_wellFormed backend composite htype hcomposite).2 _ haccepted
  obtain ⟨type, htype⟩ := Option.isSome_iff_exists.1 hknown
  have hslotType : Draft.slotType? backend composite slot.2.type = some type := by
    rw [Draft.slotType?, if_pos (List.contains_iff_mem.2 haccepted), htype]
  have hunit : moduleUnit? backend name composite location slot =
      some ⟨s!"{name}.{m}", type, slot.2.fields, true, s!"{location}.modules.{slot.1}"⟩ := by
    unfold moduleUnit?
    rw [hname, hslotType]
  exact ⟨_, hunit, rfl⟩

theorem path_inj {other : String} : s!"{name}.{m}" = s!"{name}.{other}" ↔ m = other := by
  simp [← String.toList_inj, toString]

variable {before after : HardwareDescription} {modules earlier later : Table String ModuleDescription} {n : Nat}
  {written : String} {module : ModuleDescription}

/-- the instrument itself goes through its slots -/
theorem addInstrument_of_slotted (name : String) (hbackend : d.inventory.backend = backend)
    (h : Slotted backend type i modules) :
    ∃ report, Silent report ∧ d.addInstrument (name, i) =
      modules.foldl (Draft.addModule name type s!"hardware_description.{name}")
        ⟨d.inventory.withInstrument name i.type, d.report ++ report⟩ := by
  have hother : i.type ≠ Catalogue.oscillatorType := by
    intro heq
    have hnone : backend.unitType? Catalogue.oscillatorType = none := by cases backend <;> decide
    rw [← heq, h.known] at hnone
    cases hnone
  have hmodule := (composite_wellFormed backend type (unitType?_mem h.known) h.composite).1
  obtain ⟨report, hsilent, hstep⟩ := addTyped_of_composite ⟨d.inventory.withInstrument name i.type, d.report⟩ name i
    s!"hardware_description.{name}" h.composite
  subst hbackend
  have htyped : d.addInstrument (name, i) = _ := Draft.addInstrument_of_type hother h.known hmodule
  refine ⟨report, hsilent, ?_⟩
  rw [htyped, hstep, h.given, Option.getD_some]

/-- after some slots, there is a module at the path of a number iff one of them is that number -/
theorem mem_keys_iff_denotes (hbackend : d.inventory.backend = backend) (h : Slotted backend type i modules)
    (hsub : earlier ⊆ modules) (hname : m = "module" ++ toString n) (hnew : s!"{name}.{m}" ∉ d.inventory.units.keys) :
    s!"{name}.{m}" ∈ (earlier.foldl (Draft.addModule name type location) d).inventory.units.keys ↔
      ∃ slot ∈ earlier, Denotes slot.1 n := by
  rw [mem_keys_foldl_addModule hbackend, or_iff_right hnew]
  refine exists_congr fun slot => and_congr_right fun hslot => ?_
  obtain ⟨n', hn'⟩ := h.numbered slot (hsub hslot)
  obtain ⟨u, hu, hpath⟩ := exists_moduleUnit? name location (unitType?_mem h.known) h.composite
    (h.accepted slot (hsub hslot)) (moduleName?_of_denotes hn')
  constructor
  · rintro ⟨v, hv, hplace⟩
    obtain rfl := Option.some.inj (hu.symm.trans hv)
    have hsame : n' = n := by
      rw [← name_inj, ← hname]
      exact path_inj.1 (hpath.symm.trans hplace)
    exact hsame ▸ hn'
  · intro hn
    obtain rfl : n' = n := (moduleName?_eq_iff hn' hn).1 rfl
    exact ⟨u, hu, by rw [hpath, hname]⟩

/-- among the slots of one instrument, one is reported iff its number comes up before it -/
theorem mem_foldl_addModule_iff (hbackend : d.inventory.backend = backend) (h : Slotted backend type i modules)
    (hfree : ∀ slot ∈ modules, ∀ m, moduleName? slot.1 = some m → s!"{name}.{m}" ∉ d.inventory.units.keys)
    (hsplit : modules = earlier ++ (written, module) :: later) (hn : Denotes written n)
    (hstart : (⟨s!"{location}.modules.{written}", .slotTaken m⟩ : Issue) ∉ d.report) :
    (⟨s!"{location}.modules.{written}", .slotTaken m⟩ : Issue) ∈
        (modules.foldl (Draft.addModule name type location) d).report ↔
      m = "module" ++ toString n ∧ ∃ slot ∈ earlier, Denotes slot.1 n := by
  have hname : moduleName? written = some ("module" ++ toString n) := moduleName?_of_denotes hn
  have hin : (written, module) ∈ modules := by rw [hsplit]; simp
  have hsub : earlier ⊆ modules := by rw [hsplit]; exact List.subset_append_left _ _
  -- the other slots are at other places
  have hother : ∀ slot ∈ earlier ++ later,
      moduleName? slot.1 = some m → s!"{location}.modules.{written}" ≠ s!"{location}.modules.{slot.1}" := by
    intro slot hslot _ heq
    have hsame : written = slot.1 := by simpa [← String.toList_inj, toString] using heq
    exact Table.ne_of_mem_around (hsplit ▸ h.distinct) slot hslot hsame.symm
  have hbefore := backend_foldl_addModule name type location earlier hbackend
  have hthen := ((kept_true backend).addModule ⟨hbefore, trivial⟩ name type location (written, module)).1
  obtain ⟨u, hu, hpath⟩ := exists_moduleUnit? name location (unitType?_mem h.known) h.composite
    (h.accepted (written, module) hin) hname
  rw [hsplit, List.foldl_append, List.foldl_cons,
    mem_foldl_addModule_of_other hthen fun slot hslot => hother slot (List.mem_append_right _ hslot),
    mem_addModule_iff hbefore,
    mem_foldl_addModule_of_other hbackend fun slot hslot => hother slot (List.mem_append_left _ hslot),
    or_iff_right hstart, ← mem_keys_iff_denotes hbackend h hsub rfl (hfree _ hin _ hname), ← hpath]
  constructor
  · rintro ⟨v, hv, htaken, hm, -⟩
    obtain rfl := Option.some.inj (hu.symm.trans hv)
    exact ⟨Option.some.inj (hm.symm.trans hname), htaken⟩
  · rintro ⟨rfl, htaken⟩
    exact ⟨u, hu, htaken, hname, rfl⟩

/-- the slots of an instrument that are reported -/
theorem mem_draft_iff (hkeys : (Table.keys (before ++ (name, i) :: after)).Nodup)
    (hslotted : Slotted backend type i modules)
    (hfree : ∀ slot ∈ modules, ∀ m, moduleName? slot.1 = some m →
      (draft before backend).inventory.unit? s!"{name}.{m}" = none)
    (hsplit : modules = earlier ++ (written, module) :: later) (hn : Denotes written n) :
    slotIssue name written m ∈ (draft (before ++ (name, i) :: after) backend).report ↔
      m = "module" ++ toString n ∧ ∃ slot ∈ earlier, Denotes slot.1 n := by
  have hname : moduleName? written = some ("module" ++ toString n) := moduleName?_of_denotes hn
  have hdot : '.' ∉ written.toList := dot_notMem_of_moduleName? hname
  have hother : ∀ entry ∈ before ++ after, entry.1 ≠ name := Table.ne_of_mem_around hkeys
  have hbefore : ∀ entry ∈ before, entry.1 ≠ name := fun entry hentry => hother entry (List.mem_append_left _ hentry)
  have hafter : ∀ entry ∈ after, entry.1 ≠ name := fun entry hentry => hother entry (List.mem_append_right _ hentry)
  have hstart : slotIssue name written m ∉ (draft before backend).report := by
    rw [draft, mem_foldl_addInstrument_of_other hbefore hdot]
    exact List.not_mem_nil
  have hdraft : draft (before ++ (name, i) :: after) backend =
      after.foldl Draft.addInstrument ((draft before backend).addInstrument (name, i)) := by
    rw [draft, List.foldl_append, List.foldl_cons]
    rfl
  obtain ⟨report, hsilent, hstep⟩ := addInstrument_of_slotted name (backend_draft before backend) hslotted
  rw [hdraft, mem_foldl_addInstrument_of_other hafter hdot, hstep]
  refine mem_foldl_addModule_iff (backend_draft before backend) hslotted ?_ hsplit hn ?_
  · intro slot hslot m' hm'
    exact Table.lookup?_eq_none_iff.1 (hfree slot hslot m' hm')
  · exact mt hsilent.mem_append_iff.1 hstart

theorem exists_build_error_iff {description : HardwareDescription} {issue : Issue} :
    (∃ report, build description backend = .error (.schema report) ∧ issue ∈ report) ↔
      issue ∈ (draft description backend).report := by
  unfold build
  simp only
  split
  · rename_i hclean
    rw [List.isEmpty_iff.1 hclean]
    simp
  · simp

/-- **Slots are told by their numbers.** A slot has a name iff it is a run of digits, behind `module` or not, and the
name is the number in decimals; naming a name changes nothing, and slots have one name iff they are one number. Of the
slots of a composite instrument, if there is nothing else at the paths of its modules, those are reported as taken whose
number has come up before. -/
theorem slots_told_by_numbers :
    (∀ slot m, moduleName? slot = some m ↔ ∃ n, Denotes slot n ∧ m = "module" ++ toString n) ∧
      (∀ slot m, moduleName? slot = some m → moduleName? m = some m) ∧
      (∀ slot slot' n n', Denotes slot n → Denotes slot' n' → (moduleName? slot = moduleName? slot' ↔ n = n')) ∧
      ∀ (backend : Backend) (before after : HardwareDescription) (name : String) (i : InstrumentDescription)
        (type : UnitType) (modules earlier later : Table String ModuleDescription) (slot : String)
        (module : ModuleDescription) (n : Nat) (m : String),
        (Table.keys (before ++ (name, i) :: after)).Nodup → Slotted backend type i modules →
        (∀ slot ∈ modules, ∀ m, moduleName? slot.1 = some m →
          (draft before backend).inventory.unit? s!"{name}.{m}" = none) →
        modules = earlier ++ (slot, module) :: later → Denotes slot n →
        ((∃ report, build (before ++ (name, i) :: after) backend = .error (.schema report) ∧
            slotIssue name slot m ∈ report) ↔
          m = "module" ++ toString n ∧ ∃ other ∈ earlier, Denotes other.1 n) := by
  refine ⟨fun slot m => moduleName?_eq_some_iff, fun slot m => moduleName?_idem,
    fun slot slot' n n' => moduleName?_eq_iff, ?_⟩
  intro backend before after name i type modules earlier later slot module n m hkeys hslotted hfree hsplit hn
  rw [exists_build_error_iff]
  exact mem_draft_iff hkeys hslotted hfree hsplit hn

/-- two modules in one slot, written in two ways -/
def twoModules : Table String ModuleDescription := [("1", ⟨"QCM", []⟩), ("module01", ⟨"QRM_RF", []⟩)]

/-- the instrument with the two modules -/
def twoModulesCluster : InstrumentDescription :=
  { type := "Cluster", reference? := some "internal", modules? := some twoModules, power? := none,
    instrumentName? := none, iccName? := none, frequencyParam? := none, powerParam? := none, fields := [] }

/-- the second module is reported: its number is that of the first one -/
theorem slots_told_by_numbers_twoModules :
    Slotted .qblox Catalogue.cluster twoModulesCluster twoModules ∧
      ∃ report, build [("cluster0", twoModulesCluster)] .qblox = .error (.schema report) ∧
        slotIssue "cluster0" "module01" "module1" ∈ report := by
  have hone : Denotes "1" 1 := ⟨"1", by decide, by simp, Or.inl rfl, by decide⟩
  have hpadded : Denotes "module01" 1 := ⟨"01", by decide, by simp, Or.inr rfl, by decide⟩
  have hslotted : Slotted .qblox Catalogue.cluster twoModulesCluster twoModules :=
    ⟨by decide, by decide, rfl, by decide,
      List.forall_mem_cons.2 ⟨⟨1, hone⟩, List.forall_mem_singleton.2 ⟨1, hpadded⟩⟩, by decide⟩
  refine ⟨hslotted, ?_⟩
  have h := slots_told_by_numbers.2.2.2 .qblox [] [] "cluster0" twoModulesCluster Catalogue.cluster twoModules
    [("1", ⟨"QCM", []⟩)] [] "module01" ⟨"QRM_RF", []⟩ 1 "module1" (by decide) hslotted (fun _ _ _ _ => rfl) rfl hpadded
  exact h.2 ⟨by decide, _, List.mem_singleton.2 rfl, hone⟩

end Inventory

end RackMap
