/-
What reading the documents of a config reports.

Every document is read, whatever is wrong with the ones before it; only the description is passed over where no backend
is named. `problems` puts together what each document reports on its own.
- `ofConfig_of_sound`: when backend, description and options are read, the connectivity alone decides;
- `ofConfig_of_flawed`: when one of them is not, all problems are reported together, those of the connectivity included;
- `ofConfig_reports`: so reading succeeds iff every document does, a schema problem anywhere is reported with all
  others, and port-clocks that are connected twice are a failure of their own only if nothing else is wrong.
-/
import Mathlib.Tactic
import RackMap.Proofs.Compilation

namespace RackMap.Parsed

variable {config : Config} {settings : Settings} {report : Report} {violations : List Violation} {failure : Failure}

/-! ## What a document reports -/

/-- the problems of a document that is read on its own; each violation is one, with its place and its text -/
def issuesOf {α : Type} : Except Failure α → Report
  | .error (.schema report) => report
  | .error (.duplicates violations) => violations.map Issue.ofViolation
  | _ => []

@[simp] theorem issuesOf_ok {α : Type} (a : α) : issuesOf (.ok a : Except Failure α) = [] := rfl

@[simp] theorem issuesOf_schema {α : Type} (report : Report) :
    issuesOf (.error (.schema report) : Except Failure α) = report := rfl

@[simp] theorem issuesOf_duplicates {α : Type} (violations : List Violation) :
    issuesOf (.error (.duplicates violations) : Except Failure α) = violations.map Issue.ofViolation := rfl

/-- the problems of all documents, one document after the other; without a backend the description adds none -/
def problems (config : Config) : Report :=
  issuesOf (selectBackend config.backend) ++
    (match selectBackend config.backend with
      | .ok backend => issuesOf (Inventory.build config.description backend)
      | .error _ => []) ++
    issuesOf (OptionTable.build (optionsOf config)) ++ issuesOf (Wiring.build config.connectivity)

/-- one of the documents has schema problems -/
inductive Flawed (config : Config) : Prop
  | backend {report : Report} : selectBackend config.backend = .error (.schema report) → Flawed config
  | description {backend : Backend} {report : Report} : selectBackend config.backend = .ok backend →
      Inventory.build config.description backend = .error (.schema report) → Flawed config
  | options {report : Report} : OptionTable.build (optionsOf config) = .error (.schema report) → Flawed config
  | connectivity {report : Report} : Wiring.build config.connectivity = .error (.schema report) → Flawed config

/-! ## Which failures a document has -/

/-- a result, or schema problems, at least one -/
def SchemaOnly {α : Type} (x : Except Failure α) : Prop :=
  (∃ a, x = .ok a) ∨ ∃ report, report ≠ [] ∧ x = .error (.schema report)

/-- the usual end of a reading: the problems that were found, and else the result -/
theorem schemaOnly_of_report {α : Type} (report : Report) (a : α) :
    SchemaOnly (if report.isEmpty then (.ok a : Except Failure α) else .error (.schema report)) := by
  by_cases h : report = []
  · left
    exact ⟨a, by simp [h]⟩
  · right
    exact ⟨report, h, by simp [h]⟩

theorem schemaOnly_selectBackend (identifier : String) : SchemaOnly (selectBackend identifier) := by
  unfold selectBackend
  cases Backend.ofIdentifier? identifier with
  | some backend => exact Or.inl ⟨backend, rfl⟩
  | none => exact Or.inr ⟨_, List.cons_ne_nil _ _, rfl⟩

theorem schemaOnly_inventory (description : HardwareDescription) (backend : Backend) :
    SchemaOnly (Inventory.build description backend) :=
  schemaOnly_of_report _ _

theorem schemaOnly_options (options : HardwareOptions) : SchemaOnly (OptionTable.build options) :=
  schemaOnly_of_report _ _

/-- the connectivity alone may be read and still be at fault: it may connect a port-clock twice -/
theorem wiring_cases (connectivity : Connectivity) :
    SchemaOnly (Wiring.build connectivity) ∨
      ∃ violations, Wiring.build connectivity = .error (.duplicates violations) := by
  unfold Wiring.build Wiring.ofEdges
  simp only
  split
  · split
    · exact Or.inl (Or.inl ⟨_, rfl⟩)
    · exact Or.inr ⟨_, rfl⟩
  · rename_i h
    have hne : (Wiring.draft connectivity).report ≠ [] := by simpa using h
    exact Or.inl (Or.inr ⟨_, hne, rfl⟩)

/-- a document with nothing but schema problems is always gathered -/
theorem gather_of_schemaOnly {α : Type} {x : Except Failure α} (hx : SchemaOnly x) (report : Report) :
    gather report x = .ok (x.toOption, report ++ issuesOf x) := by
  rcases hx with ⟨a, rfl⟩ | ⟨more, -, rfl⟩
  · simp [gather, issuesOf, Except.toOption]
  · simp [gather, issuesOf, Except.toOption]

/-! ## Backend, description and options -/

/-- the inventory of a config, if a backend is named that the description can be read for -/
def inventoryOf (config : Config) : Except Failure Inventory :=
  selectBackend config.backend >>= Inventory.build config.description

/-- the problems of backend, description and options -/
def earlierProblems (config : Config) : Report :=
  issuesOf (inventoryOf config) ++ issuesOf (OptionTable.build (optionsOf config))

theorem schemaOnly_inventoryOf (config : Config) : SchemaOnly (inventoryOf config) := by
  unfold inventoryOf
  rcases schemaOnly_selectBackend config.backend with ⟨backend, h⟩ | ⟨report, hne, h⟩
  · rw [h, ok_bind]
    exact schemaOnly_inventory config.description backend
  · rw [h, error_bind]
    exact Or.inr ⟨report, hne, rfl⟩

theorem problems_eq (config : Config) :
    problems config = earlierProblems config ++ issuesOf (Wiring.build config.connectivity) := by
  unfold problems earlierProblems inventoryOf
  rcases schemaOnly_selectBackend config.backend with ⟨backend, h⟩ | ⟨report, -, h⟩
  · simp [h, issuesOf]
  · simp [h, issuesOf]

theorem issuesOf_eq_nil_iff {α : Type} {x : Except Failure α} (hx : SchemaOnly x) :
    issuesOf x = [] ↔ ∃ a, x = .ok a := by
  rcases hx with ⟨a, rfl⟩ | ⟨report, hne, rfl⟩
  · simp
  · simp [hne]

/-- backend, description and options are without problems iff all of them are read -/
theorem earlierProblems_eq_nil_iff :
    earlierProblems config = [] ↔
      (∃ inventory, inventoryOf config = .ok inventory) ∧
        ∃ options, OptionTable.build (optionsOf config) = .ok options := by
  rw [earlierProblems, List.append_eq_nil_iff, issuesOf_eq_nil_iff (schemaOnly_inventoryOf config),
    issuesOf_eq_nil_iff (schemaOnly_options _)]

theorem inventoryOf_eq_ok_iff {inventory : Inventory} :
    inventoryOf config = .ok inventory ↔
      ∃ backend, selectBackend config.backend = .ok backend ∧
        Inventory.build config.description backend = .ok inventory :=
  bind_eq_ok_iff

/-- a document has schema problems iff one of the first three has problems, or the connectivity has some of its shape -/
theorem flawed_iff :
    Flawed config ↔
      earlierProblems config ≠ [] ∨ ∃ report, Wiring.build config.connectivity = .error (.schema report) := by
  constructor
  · intro h
    by_cases hearlier : earlierProblems config = []
    · obtain ⟨⟨inventory, hinventory⟩, options, hoptions⟩ := earlierProblems_eq_nil_iff.1 hearlier
      obtain ⟨backend, hbackend, hbuild⟩ := inventoryOf_eq_ok_iff.1 hinventory
      cases h with
      | backend h => simp [hbackend] at h
      | description hb h =>
        obtain rfl : backend = _ := by simpa [hbackend] using hb
        simp [hbuild] at h
      | options h => simp [hoptions] at h
      | connectivity h => exact Or.inr ⟨_, h⟩
    · exact Or.inl hearlier
  · rintro (h | ⟨report, h⟩)
    · rw [Ne, earlierProblems_eq_nil_iff, not_and_or] at h
      rcases schemaOnly_selectBackend config.backend with ⟨backend, hb⟩ | ⟨report, -, hb⟩
      · rcases schemaOnly_inventory config.description backend with ⟨inventory, hi⟩ | ⟨report, -, hi⟩
        · rcases schemaOnly_options (optionsOf config) with ⟨options, ho⟩ | ⟨report, -, ho⟩
          · exact absurd h (by simp [inventoryOf, hb, hi, ho])
          · exact .options ho
        · exact .description hb hi
      · exact .backend hb
    · exact .connectivity h

/-- pending problems take in whatever is wrong with the connectivity -/
theorem gather_wiring_of_pending {connectivity : Connectivity} (h : report ≠ []) :
    gather report (Wiring.build connectivity) =
      .ok ((Wiring.build connectivity).toOption, report ++ issuesOf (Wiring.build connectivity)) := by
  rcases wiring_cases connectivity with hx | ⟨violations, hx⟩
  · exact gather_of_schemaOnly hx report
  · simp [hx, gather, issuesOf, Except.toOption, h]

/-- what is read of a config once its connectivity is gathered -/
theorem ofConfig_eq (config : Config) (settings : Settings) :
    ofConfig config settings =
      (gather (earlierProblems config) (Wiring.build config.connectivity) >>= fun gathered =>
        match (inventoryOf config).toOption, (OptionTable.build (optionsOf config)).toOption, gathered.1 with
        | some inventory, some options, some wiring =>
          if gathered.2.isEmpty then .ok ⟨settings, inventory, options, wiring⟩ else .error (.schema gathered.2)
        | _, _, _ => .error (.schema gathered.2)) := by
  have hbackend := schemaOnly_selectBackend config.backend
  have hoptions := schemaOnly_options (optionsOf config)
  unfold ofConfig earlierProblems inventoryOf
  rw [gather_of_schemaOnly hbackend, ok_bind]
  rcases hbackend with ⟨backend, h⟩ | ⟨more, -, h⟩
  · have hinventory := schemaOnly_inventory config.description backend
    rw [h]
    conv_lhs => simp only [Except.toOption, issuesOf_ok, ok_bind, gather_of_schemaOnly hinventory,
      gather_of_schemaOnly hoptions, List.nil_append]
    rfl
  · simp only [h, Except.toOption, issuesOf_schema, ok_bind, error_bind, gather_of_schemaOnly hoptions,
      List.nil_append]

/-- **Sound documents so far.** When backend, description and options are read, the connectivity alone decides. -/
theorem ofConfig_of_sound {inventory : Inventory} {options : OptionTable}
    (hinventory : inventoryOf config = .ok inventory)
    (hoptions : OptionTable.build (optionsOf config) = .ok options) :
    ofConfig config settings =
      (Wiring.build config.connectivity).map fun wiring => ⟨settings, inventory, options, wiring⟩ := by
  have hearlier : earlierProblems config = [] := by simp [earlierProblems, hinventory, hoptions, issuesOf]
  rw [ofConfig_eq, hearlier, hinventory, hoptions]
  rcases wiring_cases config.connectivity with (⟨wiring, hx⟩ | ⟨more, -, hx⟩) | ⟨violations, hx⟩
  · simp [hx, gather, Except.map, Except.toOption]
  · simp [hx, gather, Except.map, Except.toOption]
  · simp [hx, gather, Except.map]

/-- **Problems before the connectivity.** They are reported with those of the connectivity. -/
theorem ofConfig_of_flawed (h : earlierProblems config ≠ []) :
    ofConfig config settings = .error (.schema (problems config)) := by
  rw [ofConfig_eq, gather_wiring_of_pending h, ok_bind, problems_eq]
  have hpending : (earlierProblems config ++ issuesOf (Wiring.build config.connectivity)).isEmpty = false := by
    simp [h]
  simp only [hpending]
  split <;> rfl

/-! ## Reading a config -/

theorem ofConfig_eq_schema_iff :
    ofConfig config settings = .error (.schema report) ↔ Flawed config ∧ report = problems config := by
  by_cases hearlier : earlierProblems config = []
  · obtain ⟨⟨inventory, hinventory⟩, options, hoptions⟩ := earlierProblems_eq_nil_iff.1 hearlier
    rw [ofConfig_of_sound hinventory hoptions, map_eq_error_iff, flawed_iff, problems_eq, hearlier, List.nil_append]
    constructor
    · intro h
      exact ⟨Or.inr ⟨report, h⟩, by rw [h, issuesOf_schema]⟩
    · rintro ⟨hflawed | ⟨more, h⟩, rfl⟩
      · exact absurd rfl hflawed
      · rw [h, issuesOf_schema]
  · rw [ofConfig_of_flawed hearlier, flawed_iff, Except.error.injEq, Failure.schema.injEq, eq_comm]
    exact (and_iff_right (Or.inl hearlier)).symm

theorem ofConfig_eq_duplicates_iff :
    ofConfig config settings = .error (.duplicates violations) ↔
      (∃ backend, selectBackend config.backend = .ok backend ∧
        ∃ inventory, Inventory.build config.description backend = .ok inventory) ∧
      (∃ options, OptionTable.build (optionsOf config) = .ok options) ∧
      Wiring.build config.connectivity = .error (.duplicates violations) := by
  have hread : (∃ backend, selectBackend config.backend = .ok backend ∧
      ∃ inventory, Inventory.build config.description backend = .ok inventory) ↔
        ∃ inventory, inventoryOf config = .ok inventory := by
    simp only [inventoryOf_eq_ok_iff]
    constructor
    · rintro ⟨backend, hb, inventory, hi⟩
      exact ⟨inventory, backend, hb, hi⟩
    · rintro ⟨inventory, backend, hb, hi⟩
      exact ⟨backend, hb, inventory, hi⟩
  rw [hread, ← and_assoc, ← earlierProblems_eq_nil_iff]
  by_cases hearlier : earlierProblems config = []
  · obtain ⟨⟨inventory, hinventory⟩, options, hoptions⟩ := earlierProblems_eq_nil_iff.1 hearlier
    rw [ofConfig_of_sound hinventory hoptions, map_eq_error_iff]
    exact (and_iff_right hearlier).symm
  · rw [ofConfig_of_flawed hearlier]
    simp [hearlier]

/-- reading ends with schema problems or with port-clocks that are connected twice -/
theorem ofConfig_eq_error (h : ofConfig config settings = .error failure) :
    (∃ report, failure = .schema report) ∨ ∃ violations, failure = .duplicates violations := by
  by_cases hearlier : earlierProblems config = []
  · obtain ⟨⟨inventory, hinventory⟩, options, hoptions⟩ := earlierProblems_eq_nil_iff.1 hearlier
    rw [ofConfig_of_sound hinventory hoptions, map_eq_error_iff] at h
    rcases wiring_cases config.connectivity with (⟨wiring, hx⟩ | ⟨more, -, hx⟩) | ⟨violations, hx⟩
    · rw [hx] at h
      cases h
    · rw [hx] at h
      cases h
      exact Or.inl ⟨more, rfl⟩
    · rw [hx] at h
      cases h
      exact Or.inr ⟨violations, rfl⟩
  · rw [ofConfig_of_flawed hearlier] at h
    cases h
    exact Or.inl ⟨_, rfl⟩

/-- **What reading a config reports.** It succeeds iff every document is read. Schema problems in any document are
reported together with everything that the others report, in the order of the documents; a violation is an issue then,
with its place and its text. Violations alone are a failure of their own, with all of them. -/
theorem ofConfig_reports (config : Config) (settings : Settings) :
    (∀ p, ofConfig config settings = .ok p ↔
      ∃ backend, selectBackend config.backend = .ok backend ∧
        Inventory.build config.description backend = .ok p.inventory ∧
        OptionTable.build (optionsOf config) = .ok p.options ∧
        Wiring.build config.connectivity = .ok p.wiring ∧ p.settings = settings) ∧
    (∀ report, ofConfig config settings = .error (.schema report) ↔ Flawed config ∧ report = problems config) ∧
    (∀ violations, ofConfig config settings = .error (.duplicates violations) ↔
      (∃ backend, selectBackend config.backend = .ok backend ∧
        ∃ inventory, Inventory.build config.description backend = .ok inventory) ∧
      (∃ options, OptionTable.build (optionsOf config) = .ok options) ∧
      Wiring.build config.connectivity = .error (.duplicates violations)) ∧
    (∀ failure, ofConfig config settings = .error failure →
      (∃ report, failure = .schema report) ∨ ∃ violations, failure = .duplicates violations) ∧
    ∀ violation, (Issue.ofViolation violation).location = violation.location ∧
      (Issue.ofViolation violation).message = violation.message := by
  refine ⟨?_, ?_, ?_, ?_, ?_⟩
  · intro p
    exact ofConfig_eq_ok_iff
  · intro report
    exact ofConfig_eq_schema_iff
  · intro violations
    exact ofConfig_eq_duplicates_iff
  · intro failure h
    exact ofConfig_eq_error h
  · intro violation
    exact ⟨rfl, rfl⟩

end RackMap.Parsed
