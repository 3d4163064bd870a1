/-
Which failure a compilation ends with, by the first thing that is wrong with its documents.

References come before crowded channels, these before oscillators whose members disagree, and the intermediate
frequencies of single channels last. `Rejected` tells the kind of failure of documents that are read, without the reports.
- `accepted_or_rejected`: documents that are read are accepted or rejected;
- `failsAs_of_rejected`: rejected documents fail as that kind;
- `failsAs_of_unread`: a config whose documents are not read fails with their schema problems, or else with port-clocks
  that are connected twice.
-/
import Mathlib.Tactic
import RackMap.Proofs.ClosedForm
import RackMap.Proofs.Failures

namespace RackMap

/-- the kinds of failure that a compilation can end with -/
inductive FailureKind where
  | schema
  | referential
  | duplicates
  /-- the members of an oscillator disagree -/
  | oscillator
  /-- port-clocks on one channel ask for the same intermediate frequency -/
  | intermediate
deriving DecidableEq, Repr

/-- the kind of a failure; failures that no compilation ends with have none -/
def Failure.kind? : Failure → Option FailureKind
  | schema _ => some .schema
  | referential _ => some .referential
  | duplicates _ => some .duplicates
  | conflict (.oscillator _ _) => some .oscillator
  | conflict (.intermediate _ _ _) => some .intermediate
  | undescribed _ _ | looseConflict => none

/-- the compilation fails, with a failure of this kind -/
def FailsAs (config : Config) (settings : Settings) (kind : FailureKind) : Prop :=
  ∃ failure, compile config settings = .error failure ∧ failure.kind? = some kind

variable {config : Config} {settings : Settings} {p : Parsed} {kind : FailureKind} {failure : Failure}

namespace Parsed

/-- what is wrong first with the documents -/
inductive Rejected (p : Parsed) : FailureKind → Prop
  | referential : ¬p.Linked → Rejected p .referential
  | duplicates : p.Linked → ¬p.Spacious → Rejected p .duplicates
  | oscillator : p.Linked → p.Spacious → ¬p.Agreed → Rejected p .oscillator
  | intermediate : p.Linked → p.Spacious → p.Agreed → ¬p.Distinct → Rejected p .intermediate

theorem accepted_or_rejected (p : Parsed) : p.Accepted ∨ ∃ kind, p.Rejected kind := by
  by_cases hlinked : p.Linked
  · by_cases hspacious : p.Spacious
    · by_cases hagreed : p.Agreed
      · by_cases hdistinct : p.Distinct
        · exact Or.inl ⟨hlinked, hspacious, hagreed, hdistinct⟩
        · exact Or.inr ⟨_, .intermediate hlinked hspacious hagreed hdistinct⟩
      · exact Or.inr ⟨_, .oscillator hlinked hspacious hagreed⟩
    · exact Or.inr ⟨_, .duplicates hlinked hspacious⟩
  · exact Or.inr ⟨_, .referential hlinked⟩

end Parsed

/-! ## Documents that are not read -/

/-- documents that are not read: schema problems, or port-clocks that are connected twice -/
theorem failsAs_of_unread (h : ∀ p, Parsed.ofConfig config settings.sanitize.2 ≠ .ok p) :
    (Parsed.Flawed config → FailsAs config settings .schema) ∧
      (¬Parsed.Flawed config → FailsAs config settings .duplicates) := by
  cases hread : Parsed.ofConfig config settings.sanitize.2 with
  | ok p => exact absurd hread (h p)
  | error failure =>
    constructor
    · intro hflawed
      have hproblems : Parsed.ofConfig config settings.sanitize.2 = .error (.schema (Parsed.problems config)) :=
        Parsed.ofConfig_eq_schema_iff.2 ⟨hflawed, rfl⟩
      exact ⟨_, compile_of_unread hproblems, rfl⟩
    · intro hsound
      rcases Parsed.ofConfig_eq_error hread with ⟨report, rfl⟩ | ⟨violations, rfl⟩
      · exact absurd (Parsed.ofConfig_eq_schema_iff.1 hread).1 hsound
      · exact ⟨_, compile_of_unread hread, rfl⟩

/-! ## Documents that are rejected -/

/-- **Rejected documents.** The first thing that is wrong with them is the failure. -/
theorem failsAs_of_rejected (hp : Parsed.ofConfig config settings.sanitize.2 = .ok p) (h : p.Rejected kind) :
    FailsAs config settings kind := by
  obtain ⟨backend, -, -, hoptions, -, -⟩ := Parsed.ofConfig_eq_ok_iff.1 hp
  unfold FailsAs
  rw [compile_of_parsed hp]
  cases h with
  | referential hbroken =>
    rw [Parsed.Linked, Crosscheck.linked_iff] at hbroken
    rw [Crosscheck.validate_eq_referential_iff.2 ⟨hbroken, rfl⟩, error_bind]
    exact ⟨_, rfl, rfl⟩
  | duplicates hlinked hcrowded =>
    have hover : Crosscheck.overloads p.inventory p.wiring ≠ [] := by
      rw [Ne, Crosscheck.overloads_eq_nil_iff]
      exact hcrowded
    rw [Crosscheck.validate_eq_duplicates_iff.2 ⟨Crosscheck.linked_iff.1 hlinked, hover, rfl⟩, error_bind]
    exact ⟨_, rfl, rfl⟩
  | oscillator hlinked hspacious hdisagree =>
    rw [Crosscheck.validate_eq_ok_iff_linked.2 ⟨hlinked, hspacious, rfl⟩, ok_bind,
      Frequencies.resolve_of_fits hoptions hlinked.edges]
    rw [Parsed.Agreed, ← Frequencies.firstConflict?_eq_none_iff] at hdisagree
    obtain ⟨lo, hlo⟩ := Option.ne_none_iff_exists'.1 hdisagree
    rw [hlo]
    exact ⟨_, rfl, rfl⟩
  | intermediate hlinked hspacious hagreed hclash =>
    rw [Crosscheck.validate_eq_ok_iff_linked.2 ⟨hlinked, hspacious, rfl⟩, ok_bind,
      (Frequencies.resolve_eq_ok_iff hoptions hlinked.edges).2 ⟨hagreed, rfl⟩, ok_bind]
    cases hmap : Compile.map p.inventory p.options p.wiring p.settings p.resolution
        (Crosscheck.warnings p.options p.wiring p.settings) with
    | ok m =>
      have hclear := (Compile.map_eq_ok_iff_clear.1 hmap).1
      exact absurd ((Parsed.clear_iff hlinked hspacious).1 hclear) hclash
    | error failure =>
      have hsound : Validated.Sound ⟨p, Crosscheck.warnings p.options p.wiring p.settings⟩ :=
        ⟨⟨_, hoptions⟩, hlinked.edges, List.filterMap_eq_nil_iff.1 (Crosscheck.overloads_eq_nil_iff.2 hspacious)⟩
      obtain ⟨path, frequency, pcs, rfl⟩ := hsound.build_eq_error hmap
      exact ⟨_, hmap, rfl⟩

end RackMap
