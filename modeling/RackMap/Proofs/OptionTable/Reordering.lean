/-
Options in another order.

The keys of each category may be permuted. `listed_perm` says that then the whole document is, so what is asked of every
option or of every two of them is asked of both (`Acceptable.reordered`), and a port-clock finds the same values
(`corrections_reordered`). The keys of a table come in another order (`keys_reordered`).
-/
import Mathlib.Tactic
import RackMap.Proofs.OptionTable.Keys
import RackMap.Proofs.OptionTable.Reach

namespace RackMap

/-- the same categories, each with the same entries in some order -/
def HardwareOptions.Reordered (a b : HardwareOptions) : Prop :=
  ∀ kind : OptionKind, Option.Rel List.Perm (kind.category.given a) (kind.category.given b)

variable {a b : HardwareOptions} {t t' : OptionTable}

namespace HardwareOptions

theorem getD_perm {α : Type} {entries entries' : Option (List α)} (h : Option.Rel List.Perm entries entries') :
    (entries.getD []).Perm (entries'.getD []) := by
  cases h with
  | some hentries => exact hentries
  | none => exact List.Perm.refl []

theorem Reordered.symm (h : a.Reordered b) : b.Reordered a := by
  intro kind
  have hkind := h kind
  generalize kind.category.given a = entries, kind.category.given b = entries' at hkind ⊢
  cases hkind with
  | some hentries => exact .some hentries.symm
  | none => exact .none

theorem Reordered.refl (a : HardwareOptions) : a.Reordered a := by
  intro kind
  cases kind.category.given a with
  | some entries => exact .some (List.Perm.refl entries)
  | none => exact .none

theorem listed_perm (h : a.Reordered b) : a.listed.Perm b.listed :=
  List.Perm.flatMap_left _ fun kind _ => (getD_perm (h kind)).map _

theorem Acceptable.reordered (ha : a.Acceptable) (h : a.Reordered b) : b.Acceptable where
  sound o ho := ha.sound o ((listed_perm h).mem_iff.2 ho)
  distinct := by
    have hsymm : ∀ {o o' : GivenOption}, ¬o.Repeats o' → ¬o'.Repeats o :=
      fun hnot hrepeats => hnot (OptionTable.repeats_symm hrepeats)
    exact ((listed_perm h).pairwise_iff hsymm).1 ha.distinct

end HardwareOptions

namespace OptionTable

/-- **Options of a port-clock.** They do not depend on the order of the document. -/
theorem corrections_reordered (h : a.Reordered b) (ha : build a = .ok t) (hb : build b = .ok t') (pc : PortClock) :
    t.corrections pc = t'.corrections pc := by
  refine CorrectionSet.eq_of_get_eq fun kind => Option.ext fun value => ?_
  rw [get_corrections_iff ha, get_corrections_iff hb]
  simp only [(HardwareOptions.listed_perm h).mem_iff]

theorem keys_reordered (h : a.Reordered b) (ha : build a = .ok t) (hb : build b = .ok t') : t.keys.Perm t'.keys := by
  rw [List.perm_ext_iff_of_nodup (nodup_keys ha) (nodup_keys hb)]
  intro key
  rw [mem_keys_iff ha, mem_keys_iff hb]
  simp only [(HardwareOptions.listed_perm h).mem_iff]

theorem exists_build_reordered (h : a.Reordered b) (ha : build a = .ok t) : ∃ t', build b = .ok t' :=
  exists_build_iff.2 ((build_eq_ok_iff.1 ha).1.reordered h)

end OptionTable

end RackMap
