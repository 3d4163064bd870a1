/-
Trimmed texts, said without trimming.

`Trimmed s t`: the text `s` is `t` with blanks around it, and `t` neither starts nor ends with one.
- `trim_eq_iff`: trimming a text gives the one text that it is trimmed to;
- `trim_eq_self_iff`: the texts that trimming leaves alone are those without blanks at their ends.
-/
import Mathlib.Data.List.DropRight
import Mathlib.Tactic
import RackMap.Text.Blank

namespace RackMap.Text

variable {s t : String} {cs before after : List Char}

/-- neither the first nor the last character is blank -/
structure Unpadded (s : String) : Prop where
  first : ∀ c ∈ s.toList.head?, isBlank c = false
  last : ∀ c ∈ s.toList.getLast?, isBlank c = false

/-- `t` is `s` without the blanks around it -/
structure Trimmed (s t : String) : Prop where
  unpadded : Unpadded t
  around : ∃ before after, s.toList = before ++ (t.toList ++ after) ∧ (∀ c ∈ before, isBlank c = true) ∧
    ∀ c ∈ after, isBlank c = true

/-! ## One end at a time -/

theorem trimStart_of_first (h : ∀ c ∈ cs.head?, isBlank c = false) : trimStart cs = cs := by
  cases cs with
  | nil => rfl
  | cons c rest => exact trimStart_cons_of_not_blank (h c rfl)

theorem trimStart_append (hbefore : ∀ c ∈ before, isBlank c = true) : trimStart (before ++ cs) = trimStart cs :=
  List.dropWhile_append_of_pos hbefore

/-- the end of a text is trimmed as the start of the reversed text -/
theorem trimEnd_eq (cs : List Char) : trimEnd cs = (trimStart cs.reverse).reverse := rfl

theorem trimEnd_append_of_last (hlast : ∀ c ∈ cs.getLast?, isBlank c = false)
    (hafter : ∀ c ∈ after, isBlank c = true) : trimEnd (cs ++ after) = cs := by
  have hfirst : trimStart cs.reverse = cs.reverse := trimStart_of_first (by simpa using hlast)
  have hblank : ∀ c ∈ after.reverse, isBlank c = true := by simpa using hafter
  rw [trimEnd_eq, List.reverse_append, trimStart_append hblank, hfirst, List.reverse_reverse]

/-! ## What trimming leaves -/

theorem first_trimStart (cs : List Char) : ∀ c ∈ (trimStart cs).head?, isBlank c = false := by
  intro c hc
  have hdrop := List.head?_dropWhile_not isBlank cs
  rw [← trimStart, Option.mem_def.1 hc] at hdrop
  simpa using hdrop

theorem last_trimEnd (cs : List Char) : ∀ c ∈ (trimEnd cs).getLast?, isBlank c = false := by
  rw [trimEnd_eq, List.getLast?_reverse]
  exact first_trimStart cs.reverse

/-- what is left at the end begins as the text does -/
theorem first_trimEnd (h : ∀ c ∈ cs.head?, isBlank c = false) : ∀ c ∈ (trimEnd cs).head?, isBlank c = false := by
  obtain ⟨rest, hrest⟩ : trimEnd cs <+: cs := List.rdropWhile_prefix isBlank cs
  intro c hc
  apply h
  rw [← hrest, List.head?_append, Option.mem_def.1 hc]
  rfl

theorem trimmed_trim (s : String) : Trimmed s (trim s) := by
  have hleft : (trim s).toList = trimEnd (trimStart s.toList) := String.toList_ofList
  refine ⟨⟨?_, ?_⟩, s.toList.takeWhile isBlank, (trimStart s.toList).rtakeWhile isBlank, ?_, ?_, ?_⟩
  · rw [hleft]
    exact first_trimEnd (first_trimStart _)
  · rw [hleft]
    exact last_trimEnd _
  · have hend : trimEnd (trimStart s.toList) ++ (trimStart s.toList).rtakeWhile isBlank = trimStart s.toList :=
      List.rdropWhile_append_rtakeWhile
    calc s.toList = s.toList.takeWhile isBlank ++ trimStart s.toList := List.takeWhile_append_dropWhile.symm
      _ = s.toList.takeWhile isBlank ++ ((trim s).toList ++ (trimStart s.toList).rtakeWhile isBlank) := by
        rw [hleft, hend]
  · intro c hc
    exact List.mem_takeWhile_imp hc
  · intro c hc
    exact List.mem_rtakeWhile_imp hc

/-- **Trimming.** It gives the one text that a text is trimmed to. -/
theorem trim_eq_iff : trim s = t ↔ Trimmed s t := by
  constructor
  · intro h
    rw [← h]
    exact trimmed_trim s
  · intro h
    obtain ⟨before, after, hs, hbefore, hafter⟩ := h.around
    have hleft : trimEnd (trimStart (t.toList ++ after)) = t.toList := by
      cases ht : t.toList with
      | nil =>
        -- nothing but blanks: they all go at the start
        have hall : trimStart after = [] := List.dropWhile_eq_nil_iff.2 hafter
        rw [List.nil_append, hall]
        rfl
      | cons c rest =>
        have hfirst : isBlank c = false := h.unpadded.first c (by rw [ht]; rfl)
        rw [List.cons_append, trimStart_cons_of_not_blank hfirst, ← List.cons_append, ← ht]
        exact trimEnd_append_of_last h.unpadded.last hafter
    rw [trim, hs, trimStart_append hbefore, hleft, String.ofList_toList]

theorem trim_eq_self_iff : trim s = s ↔ Unpadded s := by
  rw [trim_eq_iff]
  constructor
  · intro h
    exact h.unpadded
  · intro h
    exact ⟨h, [], [], by simp, by simp, by simp⟩

/-- a text is trimmed once -/
theorem trim_trim (s : String) : trim (trim s) = trim s := trim_eq_self_iff.2 (trimmed_trim s).unpadded

end RackMap.Text
