/-
The failures that a compilation can end with.

Each stage has its own: reading ends with schema problems or port-clocks that are connected twice (`Unreadable`),
checking with broken references or overloaded channels (`Unfitting`), resolving with a conflict over an oscillator, and
compiling the map with a conflict between intermediate frequencies. The later stages rely on the earlier ones for the
rest: checked documents name described channels only and overload none of them, and what they ask for is finite, so it
agrees with itself. `compile_failures` puts the stages together.
-/
import Mathlib.Tactic
import RackMap.Proofs.Reading

namespace RackMap

variable {config : Config} {settings : Settings} {failure : Failure}

/-- a document is at fault -/
def Failure.Unreadable (failure : Failure) : Prop :=
  (∃ report, failure = .schema report) ∨ ∃ violations, failure = .duplicates violations

/-- the documents do not fit together -/
def Failure.Unfitting (failure : Failure) : Prop :=
  (∃ report, failure = .referential report) ∨ ∃ violations, failure = .duplicates violations

/-! ## Reading -/

theorem Parsed.unreadable_of_ofConfig (h : ofConfig config settings = .error failure) : failure.Unreadable :=
  ofConfig_eq_error h

/-! ## Checking -/

theorem Crosscheck.unfitting_of_validate {inv : Inventory} {options : OptionTable} {wiring : Wiring}
    (h : validate inv options wiring settings = .error failure) : failure.Unfitting := by
  unfold validate at h
  simp only at h
  split at h
  · cases h
    exact Or.inl ⟨_, rfl⟩
  · split at h
    · cases h
      exact Or.inr ⟨_, rfl⟩
    · cases h

theorem Parsed.unfitting_of_validate {p : Parsed} (h : p.validate = .error failure) : failure.Unfitting :=
  Crosscheck.unfitting_of_validate (map_eq_error_iff.1 h)

/-! ## Resolving and compiling checked documents -/

/-- documents that were read and checked, for the stages after that -/
structure Validated.Sound (v : Validated) : Prop where
  options : ∃ given, OptionTable.build given = .ok v.options
  fits : ∀ e ∈ v.wiring.edges, ∃ channel, Crosscheck.Fits v.inventory e channel
  spacious : ∀ path ∈ v.wiring.channels, Crosscheck.overload? v.inventory v.wiring path = none

namespace Validated

variable {p : Parsed} {v : Validated}

theorem sound_of_validate (hp : Parsed.ofConfig config settings = .ok p) (hv : p.validate = .ok v) : v.Sound := by
  obtain ⟨backend, -, -, hoptions, -, -⟩ := Parsed.ofConfig_eq_ok_iff.1 hp
  obtain ⟨warnings, hwarnings, rfl⟩ := map_eq_ok_iff.1 hv
  obtain ⟨-, hfits, hover, -⟩ := Crosscheck.validate_eq_ok_iff.1 hwarnings
  exact ⟨⟨_, hoptions⟩, hfits, List.filterMap_eq_nil_iff.1 hover⟩

/-- resolving fails over an oscillator only: a group without one has a single member, which agrees with itself -/
theorem Sound.resolve_eq_error (hv : v.Sound) (h : v.resolve = .error failure) :
    ∃ lo asked, failure = .conflict (.oscillator lo asked) := by
  obtain ⟨given, hoptions⟩ := hv.options
  rw [Validated.resolve, map_eq_error_iff, Frequencies.resolve_of_fits hoptions hv.fits] at h
  split at h
  · cases h
    exact ⟨_, _, rfl⟩
  · cases h

/-- compiling fails over intermediate frequencies only, whatever frequencies the documents were resolved to -/
theorem Sound.build_eq_error (hv : v.Sound) {frequencies : Resolution}
    (h : Resolved.build ⟨v, frequencies⟩ = .error failure) :
    ∃ path frequency pcs, failure = .conflict (.intermediate path frequency pcs) := by
  obtain ⟨path, hpath, h⟩ := Compile.map_eq_error h
  rcases Compile.channel_eq_error h with ⟨hnone, -⟩ | ⟨violation, hviolation, -⟩ | ⟨frequency, pcs, rfl⟩
  · obtain ⟨e, he, rfl⟩ := Compile.mem_channels.1 hpath
    obtain ⟨channel, hfits⟩ := hv.fits e he
    rw [hfits.described] at hnone
    cases hnone
  · rw [hv.spacious path hpath] at hviolation
    cases hviolation
  · exact ⟨path, frequency, pcs, rfl⟩

end Validated

/-- **Failures of a compilation.** They are schema problems, broken references, assignments beyond what the hardware
allows, and conflicts. Once the documents are checked, resolving fails over an oscillator only, and compiling the map
over intermediate frequencies only. -/
theorem compile_failures (config : Config) (settings : Settings) :
    (∀ failure, compile config settings = .error failure →
      (∃ report, failure = .schema report) ∨ (∃ report, failure = .referential report) ∨
        (∃ violations, failure = .duplicates violations) ∨ ∃ conflict, failure = .conflict conflict) ∧
    ∀ p v, Parsed.ofConfig config settings = .ok p → p.validate = .ok v →
      (∀ failure, v.resolve = .error failure → ∃ lo asked, failure = .conflict (.oscillator lo asked)) ∧
      ∀ frequencies failure, Resolved.build ⟨v, frequencies⟩ = .error failure →
        ∃ path frequency pcs, failure = .conflict (.intermediate path frequency pcs) := by
  constructor
  · intro failure h
    rcases bind_eq_error_iff.1 h with h | ⟨p, hp, h⟩
    · rcases Parsed.unreadable_of_ofConfig h with hschema | hduplicates
      · exact Or.inl hschema
      · exact Or.inr (Or.inr (Or.inl hduplicates))
    rcases bind_eq_error_iff.1 h with h | ⟨v, hv, h⟩
    · exact Or.inr ((Parsed.unfitting_of_validate h).imp_right Or.inl)
    have hsound := Validated.sound_of_validate hp hv
    rcases bind_eq_error_iff.1 h with h | ⟨resolved, hresolved, h⟩
    · obtain ⟨lo, asked, rfl⟩ := hsound.resolve_eq_error h
      exact Or.inr (Or.inr (Or.inr ⟨_, rfl⟩))
    · obtain ⟨frequencies, -, rfl⟩ := map_eq_ok_iff.1 hresolved
      obtain ⟨path, frequency, pcs, rfl⟩ := hsound.build_eq_error h
      exact Or.inr (Or.inr (Or.inr ⟨_, rfl⟩))
  · intro p v hp hv
    have hsound := Validated.sound_of_validate hp hv
    exact ⟨fun _ => hsound.resolve_eq_error, fun _ _ => hsound.build_eq_error⟩

end RackMap
