/-
When a compilation fails over the frequency of an oscillator, and what it then reports.

Resolving compares every request with the first of its group only. Since numeric equality is an equivalence on the
requests, which are finite, this finds every pair of members that disagree (`agreed_eq_false_iff`). `compile_conflict`
follows: the failure names the first oscillator with such a pair, and everyone who asks for its frequency.
-/
import Mathlib.Tactic
import RackMap.Proofs.Compilation

namespace RackMap

open RackMap.Decimal (Double)

namespace Frequencies

variable {inv : Inventory} {options : OptionTable} {edges : List Edge} {lo : OscillatorRef}
  {asked : List (PortClock × Double)}

/-- two members of an oscillator ask for different frequencies -/
def Disputed (inv : Inventory) (options : OptionTable) (edges : List Edge) (lo : OscillatorRef) : Prop :=
  ∃ pc ∈ members inv edges lo, ∃ pc' ∈ members inv edges lo, ∃ f f', pc ≠ pc' ∧
    (options.modulation pc).lo? = some f ∧ (options.modulation pc').lo? = some f' ∧ f.same f' = false

/-- the report of a conflict: the first disputed oscillator, and the members that ask for a frequency, each once -/
structure Reports (inv : Inventory) (options : OptionTable) (edges : List Edge) (lo : OscillatorRef)
    (asked : List (PortClock × Double)) : Prop where
  disputed : Disputed inv options edges lo
  first : ∃ before after, oscillators inv edges = before ++ lo :: after ∧
    ∀ other ∈ before, ¬Disputed inv options edges other
  members : asked.map Prod.fst = (members inv edges lo).filter fun pc => (options.modulation pc).lo?.isSome
  values : ∀ a ∈ asked, (options.modulation a.1).lo? = some a.2
  once : (asked.map Prod.fst).Nodup

/-- members disagree iff two of them ask for different frequencies: a finite request agrees with itself -/
theorem agreed_eq_false_iff (hfinite : options.AsksFinite) :
    agreed (requests inv options edges lo) = false ↔ Disputed inv options edges lo := by
  rw [← Bool.not_eq_true, agreed_iff]
  push Not
  constructor
  · rintro ⟨⟨pc, f⟩, ha, ⟨pc', f'⟩, hb, hne⟩
    obtain ⟨hpc, hf⟩ := mem_requests.1 ha
    obtain ⟨hpc', hf'⟩ := mem_requests.1 hb
    refine ⟨pc, hpc, pc', hpc', f, f', ?_, hf, hf', Bool.eq_false_iff.2 hne⟩
    rintro rfl
    rw [hf, Option.some.injEq] at hf'
    subst hf'
    exact hne (Double.same_self_of_isFinite (hfinite pc f hf))
  · rintro ⟨pc, hpc, pc', hpc', f, f', -, hf, hf', hne⟩
    exact ⟨(pc, f), mem_requests.2 ⟨hpc, hf⟩, (pc', f'), mem_requests.2 ⟨hpc', hf'⟩, Bool.eq_false_iff.1 hne⟩

theorem nodup_members (hnodup : (edges.map Edge.portClock).Nodup) : (members inv edges lo).Nodup :=
  hnodup.sublist (List.filter_sublist.map Edge.portClock)

/-- the port-clocks of the requests: the members that ask for a frequency -/
theorem map_fst_requests :
    (requests inv options edges lo).map Prod.fst =
      (members inv edges lo).filter fun pc => (options.modulation pc).lo?.isSome := by
  rw [requests, List.map_filterMap, ← List.filterMap_eq_filter]
  refine List.filterMap_congr fun pc _ => ?_
  cases hpc : (options.modulation pc).lo? <;> simp [hpc, Option.guard]

/-- the first oscillator whose members disagree is reported with all requests of its members -/
theorem reports_of_firstConflict? (hfinite : options.AsksFinite) (hnodup : (edges.map Edge.portClock).Nodup)
    (hfirst : firstConflict? inv options edges = some lo) :
    Reports inv options edges lo (requests inv options edges lo) := by
  obtain ⟨hlo, before, after, hsplit, hbefore⟩ := List.find?_eq_some_iff_append.1 hfirst
  refine ⟨?_, ⟨before, after, hsplit, ?_⟩, map_fst_requests, ?_, ?_⟩
  · rw [Bool.not_eq_true'] at hlo
    exact (agreed_eq_false_iff hfinite).1 hlo
  · intro other hother hdisputed
    have hagreed := hbefore other hother
    rw [(agreed_eq_false_iff hfinite).2 hdisputed] at hagreed
    cases hagreed
  · intro a ha
    exact (mem_requests.1 ha).2
  · rw [map_fst_requests]
    exact (nodup_members hnodup).filter _

end Frequencies

variable {config : Config} {settings : Settings} {p : Parsed} {v : Validated} {lo : OscillatorRef}
  {asked : List (PortClock × Double)}

/-- what is left of a compilation once the documents are checked -/
theorem compile_of_validated (hp : Parsed.ofConfig config settings.sanitize.2 = .ok p) (hv : p.validate = .ok v) :
    compile config settings = (v.resolve >>= Resolved.build) := by
  unfold compile
  rw [hp, ok_bind, hv, ok_bind]

/-- the compilation fails over an oscillator iff resolving finds one whose members disagree -/
theorem compile_eq_conflict_iff (hp : Parsed.ofConfig config settings.sanitize.2 = .ok p) (hv : p.validate = .ok v) :
    compile config settings = .error (.conflict (.oscillator lo asked)) ↔
      Frequencies.firstConflict? p.inventory p.options p.wiring.edges = some lo ∧
        asked = Frequencies.requests p.inventory p.options p.wiring.edges lo := by
  obtain ⟨backend, -, -, hoptions, -, -⟩ := Parsed.ofConfig_eq_ok_iff.1 hp
  obtain ⟨warnings, hwarnings, rfl⟩ := map_eq_ok_iff.1 hv
  obtain ⟨-, hfits, -, -⟩ := Crosscheck.validate_eq_ok_iff.1 hwarnings
  rw [compile_of_validated hp hv, Validated.resolve, Frequencies.resolve_of_fits hoptions hfits]
  cases hfirst : Frequencies.firstConflict? p.inventory p.options p.wiring.edges with
  | some first =>
    simp only [Except.map, error_bind, Except.error.injEq, Failure.conflict.injEq, Conflict.oscillator.injEq,
      Option.some.injEq]
    constructor
    · rintro ⟨rfl, rfl⟩
      exact ⟨rfl, rfl⟩
    · rintro ⟨rfl, rfl⟩
      exact ⟨rfl, rfl⟩
  | none =>
    refine iff_of_false ?_ (by simp)
    rw [Except.map, ok_bind, Resolved.build]
    exact Compile.map_ne_oscillator_conflict

/-- **Conflicts over an oscillator.** Checked documents fail to compile over an oscillator iff two members of one ask
for different frequencies. The failure reports the first oscillator in document order of which this holds, and all of
its members that ask for a frequency, with what they ask for. -/
theorem compile_conflict (hp : Parsed.ofConfig config settings.sanitize.2 = .ok p) (hv : p.validate = .ok v) :
    ((∃ lo asked, compile config settings = .error (.conflict (.oscillator lo asked))) ↔
      ∃ lo, Frequencies.Disputed p.inventory p.options config.connectivity.edges lo) ∧
    ∀ lo asked, compile config settings = .error (.conflict (.oscillator lo asked)) →
      Frequencies.Reports p.inventory p.options config.connectivity.edges lo asked := by
  obtain ⟨backend, -, -, hoptions, hwiring, -⟩ := Parsed.ofConfig_eq_ok_iff.1 hp
  have hfinite := OptionTable.asksFinite_of_build hoptions
  rw [← Wiring.build_edges hwiring]
  have hreports : ∀ lo asked, compile config settings = .error (.conflict (.oscillator lo asked)) →
      Frequencies.Reports p.inventory p.options p.wiring.edges lo asked := by
    intro lo asked h
    obtain ⟨hfirst, rfl⟩ := (compile_eq_conflict_iff hp hv).1 h
    exact Frequencies.reports_of_firstConflict? hfinite p.wiring.distinct hfirst
  refine ⟨⟨?_, ?_⟩, hreports⟩
  · rintro ⟨lo, asked, h⟩
    exact ⟨lo, (hreports lo asked h).disputed⟩
  · rintro ⟨lo, hdisputed⟩
    cases hfirst : Frequencies.firstConflict? p.inventory p.options p.wiring.edges with
    | some first => exact ⟨first, _, (compile_eq_conflict_iff hp hv).2 ⟨hfirst, rfl⟩⟩
    | none =>
      have hagreed := Frequencies.firstConflict?_eq_none_iff.1 hfirst lo
      rw [(Frequencies.agreed_eq_false_iff hfinite).2 hdisputed] at hagreed
      cases hagreed

/-- two port-clocks on one oscillator that ask for different frequencies -/
theorem sharedConfig_conflict :
    ∃ p v lo asked, Parsed.ofConfig (sharedConfig (some (.finite false 5)) (some (.finite false 6)))
        (Settings.sanitize {}).2 = .ok p ∧ p.validate = .ok v ∧
      compile (sharedConfig (some (.finite false 5)) (some (.finite false 6))) {} =
        .error (.conflict (.oscillator lo asked)) ∧
      Frequencies.Reports p.inventory p.options
        (sharedConfig (some (.finite false 5)) (some (.finite false 6))).connectivity.edges lo asked := by
  obtain ⟨p, hp, hchecked⟩ :=
    exists_eq_ok (x := Parsed.ofConfig (sharedConfig (some (.finite false 5)) (some (.finite false 6)))
      (Settings.sanitize {}).2) (c := fun p => p.validate.toOption.any fun _ => true) (by decide +kernel)
  obtain ⟨v, hv, -⟩ := exists_eq_ok hchecked
  have hfails : (match compile (sharedConfig (some (.finite false 5)) (some (.finite false 6))) {} with
      | .error (.conflict (.oscillator _ _)) => true
      | _ => false) = true := by decide +kernel
  split at hfails
  · rename_i lo asked h
    exact ⟨p, v, lo, asked, hp, hv, h, (compile_conflict hp hv).2 lo asked h⟩
  · cases hfails

end RackMap
