/-
The keys of an option table, and what is left of a table when only some keys are given.

Keys count without the blanks around them, whatever category brings them up.
- `mem_keys_iff`: a table has a key iff some option is given under it; no key comes up twice (`nodup_keys`);
- `exists_build_restrict`: a document without some of its keys is accepted if the whole document is;
- `corrections_restrict`: a port-clock whose key is left has the options that it had.
-/
import Mathlib.Tactic
import RackMap.Proofs.OptionTable.Given

namespace RackMap

/-! ## Correction sets, kind by kind -/

/-- a correction set is told by its values of all kinds -/
theorem CorrectionSet.eq_of_get_eq {a b : CorrectionSet}
    (h : ∀ kind : OptionKind, kind.category.get a = kind.category.get b) : a = b := by
  cases a
  cases b
  rw [CorrectionSet.mk.injEq]
  exact ⟨h .latency, h .distortion, h .modulation, h .mixer, h .outputAtt, h .inputAtt, h .outputGain, h .inputGain,
    h .sequencer⟩

/-! ## Some of the keys -/

/-- the entries under the keys that are wanted -/
def Entries.restrict {α : Type} (wanted : String → Bool) (entries : Entries α) : Entries α :=
  List.filter (fun entry => wanted (Text.trim entry.1)) entries

/-- the options under the keys that are wanted, in every category -/
def HardwareOptions.restrict (options : HardwareOptions) (wanted : String → Bool) : HardwareOptions where
  latency? := options.latency?.map (Entries.restrict wanted)
  distortion? := options.distortion?.map (Entries.restrict wanted)
  modulation? := options.modulation?.map (Entries.restrict wanted)
  mixer? := options.mixer?.map (Entries.restrict wanted)
  outputAtt? := options.outputAtt?.map (Entries.restrict wanted)
  inputAtt? := options.inputAtt?.map (Entries.restrict wanted)
  outputGain? := options.outputGain?.map (Entries.restrict wanted)
  inputGain? := options.inputGain?.map (Entries.restrict wanted)
  sequencer? := options.sequencer?.map (Entries.restrict wanted)

variable {options : HardwareOptions} {wanted : String → Bool} {kind : OptionKind}

theorem HardwareOptions.given_restrict (kind : OptionKind) (options : HardwareOptions) (wanted : String → Bool) :
    kind.category.given (options.restrict wanted) = (kind.category.given options).map (Entries.restrict wanted) := by
  cases kind <;> rfl

/-- what is given under the wanted keys is what is given and has a wanted key, in the same order -/
theorem HardwareOptions.listed_restrict (options : HardwareOptions) (wanted : String → Bool) :
    (options.restrict wanted).listed = options.listed.filter fun o => wanted (Text.trim o.key) := by
  rw [listed, listed, List.filter_flatMap]
  refine List.flatMap_congr fun kind _ => ?_
  rw [given_restrict, List.filter_map]
  cases kind.category.given options with
  | none => rfl
  | some entries => rfl

namespace OptionTable

variable {t t' : OptionTable} {d : Draft} {o : GivenOption} {listed : List GivenOption} {key : String}
  {pc : PortClock}

/-! ## Keys -/

namespace Draft

theorem nodup_keys_add (h : d.table.keys.Nodup) : (d.add o).table.keys.Nodup := by
  rcases d.add_cases o with ⟨_, _, heq⟩ | ⟨_, _, heq⟩ | ⟨_, _, heq⟩ | ⟨_, _, heq⟩ <;> rw [heq]
  · exact h
  · exact h
  · exact h
  · exact Table.nodup_keys_put h _ _

theorem nodup_keys_foldl (h : d.table.keys.Nodup) : (listed.foldl add d).table.keys.Nodup := by
  induction listed generalizing d with
  | nil => exact h
  | cons o listed ih => exact ih (nodup_keys_add h)

/-- an option that is added without a problem brings up its key -/
theorem mem_keys_add_iff (hclean : (d.add o).report = []) :
    key ∈ (d.add o).table.keys ↔ key ∈ d.table.keys ∨ Text.trim o.key = key := by
  obtain ⟨-, hsound, hfree⟩ := add_clean_iff.1 hclean
  rcases d.add_cases o with ⟨fault, hread, -⟩ | ⟨-, hcauses, -⟩ | ⟨-, hvalue, -⟩ | ⟨-, -, heq⟩
  · exact absurd hsound (GivenOption.not_sound_of_unread hread)
  · exact absurd hsound.passes hcauses
  · exact absurd hfree hvalue
  · rw [heq, Table.mem_keys_put, eq_comm (a := key)]

theorem mem_keys_foldl_iff (hclean : (listed.foldl add d).report = []) :
    key ∈ (listed.foldl add d).table.keys ↔ key ∈ d.table.keys ∨ ∃ o ∈ listed, Text.trim o.key = key := by
  induction listed generalizing d with
  | nil => simp
  | cons o listed ih =>
    rw [List.foldl_cons] at hclean ⊢
    have hstep : (d.add o).report = [] := (foldl_add_clean_iff.1 hclean).1
    rw [ih hclean, mem_keys_add_iff hstep, or_assoc]
    simp only [List.mem_cons, exists_eq_or_imp]

end Draft

/-- **Keys of a table.** They are those under which an option is given. -/
theorem mem_keys_iff (h : build options = .ok t) : key ∈ t.keys ↔ ∃ o ∈ options.listed, Text.trim o.key = key := by
  obtain ⟨haccepted, rfl⟩ := build_eq_ok_iff.1 h
  have hclean := draft_clean_iff.2 haccepted
  rw [keys]
  rw [draft_eq] at hclean ⊢
  rw [Draft.mem_keys_foldl_iff hclean]
  constructor
  · rintro (hstart | hgiven)
    · cases hstart
    · exact hgiven
  · exact Or.inr

theorem nodup_keys (h : build options = .ok t) : t.keys.Nodup := by
  obtain ⟨-, rfl⟩ := build_eq_ok_iff.1 h
  rw [keys, draft_eq]
  exact Draft.nodup_keys_foldl List.nodup_nil

/-! ## Tables of some of the keys -/

theorem acceptable_restrict (h : options.Acceptable) (wanted : String → Bool) :
    (options.restrict wanted).Acceptable := by
  constructor
  · intro o ho
    rw [HardwareOptions.listed_restrict] at ho
    exact h.sound o (List.mem_filter.1 ho).1
  · rw [HardwareOptions.listed_restrict]
    exact h.distinct.filter _

theorem exists_build_restrict (h : build options = .ok t) (wanted : String → Bool) :
    ∃ t', build (options.restrict wanted) = .ok t' :=
  exists_build_iff.2 (acceptable_restrict (build_eq_ok_iff.1 h).1 wanted)

/-- **Options that are left.** A port-clock whose key is wanted has the same options without the other keys. -/
theorem corrections_restrict (h : build options = .ok t) (h' : build (options.restrict wanted) = .ok t')
    (hwanted : wanted pc.text = true) : t'.corrections pc = t.corrections pc := by
  refine CorrectionSet.eq_of_get_eq fun kind => Option.ext fun value => ?_
  rw [get_corrections_iff h', get_corrections_iff h, HardwareOptions.listed_restrict]
  refine exists_congr fun written => and_congr_left fun hkey => ?_
  rw [List.mem_filter]
  constructor
  · exact fun hgiven => hgiven.1
  · intro hgiven
    refine ⟨hgiven, ?_⟩
    simp only [hkey]
    exact hwanted

end OptionTable

end RackMap
