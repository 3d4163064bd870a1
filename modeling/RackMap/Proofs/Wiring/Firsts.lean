/-
First occurrences: `firsts` keeps every item of a list once, at the place where it comes up first.

`firsts_concat` tells what one more item at the end changes, which is what the folds over the edges need;
`pairwise_idxOf_firsts` that the order is that of the places, and `filterMap_head?_sublist` that it is that of the items
where they come up. `firsts_flatMap_filter`: first occurrences in several lists are still those if each list is replaced
by those of them that it has.
-/
import Mathlib.Tactic

namespace RackMap.Wiring

/-- the first occurrence of each item -/
def firsts {α : Type} [DecidableEq α] : List α → List α
  | [] => []
  | a :: items => a :: (firsts items).filter (· ≠ a)

variable {α β : Type} [DecidableEq α]

@[simp] theorem mem_firsts {a : α} {items : List α} : a ∈ firsts items ↔ a ∈ items := by
  induction items with
  | nil => simp [firsts]
  | cons b items ih => by_cases h : a = b <;> simp [firsts, ih, h]

theorem nodup_firsts (items : List α) : (firsts items).Nodup := by
  induction items with
  | nil => exact List.nodup_nil
  | cons a items ih =>
    rw [firsts, List.nodup_cons]
    exact ⟨by simp, ih.filter _⟩

/-- first occurrences stand in the order of their places -/
theorem pairwise_idxOf_firsts (items : List α) :
    (firsts items).Pairwise fun a b => items.idxOf a < items.idxOf b := by
  induction items with
  | nil => exact List.Pairwise.nil
  | cons c items ih =>
    have hlater : ∀ {a}, a ∈ (firsts items).filter (· ≠ c) → (c :: items).idxOf a = items.idxOf a + 1 := by
      intro a ha
      have hne : a ≠ c := by simpa using (List.mem_filter.1 ha).2
      exact List.idxOf_cons_ne items (Ne.symm hne)
    rw [firsts, List.pairwise_cons]
    constructor
    · intro b hb
      rw [List.idxOf_cons_self, hlater hb]
      exact Nat.succ_pos _
    · refine (ih.filter _).imp_of_mem fun ha hb hab => ?_
      rw [hlater ha, hlater hb]
      exact Nat.succ_lt_succ hab

/-- the first item of each kind, kind by kind, stands where it stands among the items -/
theorem filterMap_head?_sublist (kind : β → α) (items : List β) :
    ((firsts (items.map kind)).filterMap fun a => (items.filter fun b => kind b = a).head?).Sublist items := by
  induction items with
  | nil => exact List.Sublist.slnil
  | cons b items ih =>
    have hfirst : ((b :: items).filter fun c => kind c = kind b).head? = some b := by simp
    have hothers : ∀ a ∈ (firsts (items.map kind)).filter (· ≠ kind b),
        ((b :: items).filter fun c => kind c = a).head? = (items.filter fun c => kind c = a).head? := by
      intro a ha
      have hne : a ≠ kind b := by simpa using (List.mem_filter.1 ha).2
      rw [List.filter_cons_of_neg (by simpa using Ne.symm hne)]
    rw [List.map_cons, firsts, List.filterMap_cons, hfirst, List.filterMap_congr hothers]
    exact ((List.filter_sublist.filterMap _).trans ih).cons_cons b

theorem firsts_concat (items : List α) (a : α) :
    firsts (items ++ [a]) = if a ∈ items then firsts items else firsts items ++ [a] := by
  induction items with
  | nil => simp [firsts]
  | cons b items ih =>
    rw [List.cons_append, firsts, ih]
    by_cases hb : a = b
    · subst hb
      by_cases h : a ∈ items <;> simp [firsts, h]
    · by_cases h : a ∈ items <;> simp [firsts, h, hb]

/-- first occurrences of what a function tells of the items, if it tells different items apart -/
theorem firsts_filterMap [DecidableEq β] {f : α → Option β} {items : List α}
    (hf : ∀ a ∈ items, ∀ b ∈ items, f a = f b → f a ≠ none → a = b) :
    firsts (items.filterMap f) = (firsts items).filterMap f := by
  induction items using List.reverseRecOn with
  | nil => rfl
  | append_singleton items a ih =>
    have hrest : firsts (items.filterMap f) = (firsts items).filterMap f :=
      ih fun b hb c hc => hf b (List.mem_append_left _ hb) c (List.mem_append_left _ hc)
    rw [List.filterMap_append, firsts_concat]
    cases ha : f a with
    | none =>
      have hnone : List.filterMap f [a] = [] := by simp [ha]
      rw [hnone, List.append_nil, hrest]
      split
      · rfl
      · rw [List.filterMap_append, hnone, List.append_nil]
    | some b =>
      have hsome : List.filterMap f [a] = [b] := by simp [ha]
      have hmem : b ∈ items.filterMap f ↔ a ∈ items := by
        rw [List.mem_filterMap]
        refine ⟨?_, fun h => ⟨a, h, ha⟩⟩
        rintro ⟨c, hc, hcb⟩
        have := hf c (List.mem_append_left _ hc) a (by simp) (hcb.trans ha.symm) (by simp [hcb])
        exact this ▸ hc
      rw [hsome, firsts_concat, hrest]
      by_cases h : a ∈ items
      · rw [if_pos h, if_pos (hmem.2 h)]
      · rw [if_neg h, if_neg (fun hb => h (hmem.1 hb)), List.filterMap_append, hsome]

/-- leaving items out leaves their first occurrences out -/
theorem firsts_filter (wanted : α → Bool) (items : List α) :
    firsts (items.filter wanted) = (firsts items).filter wanted := by
  rw [← List.filterMap_eq_filter]
  refine firsts_filterMap fun a _ b _ heq hsome => ?_
  obtain ⟨c, hc⟩ := Option.ne_none_iff_exists'.1 hsome
  obtain ⟨rfl, -⟩ := Option.guard_eq_some_iff.1 hc
  obtain ⟨rfl, -⟩ := Option.guard_eq_some_iff.1 (heq.symm.trans hc)
  rfl

theorem firsts_append (items others : List α) :
    firsts (items ++ others) = firsts items ++ (firsts others).filter (· ∉ items) := by
  induction items with
  | nil => simp [firsts]
  | cons a items ih =>
    rw [List.cons_append, firsts, ih, firsts, List.filter_append, List.filter_filter, List.cons_append]
    congr 2
    refine List.filter_congr fun b _ => ?_
    simp only [List.mem_cons, not_or, Bool.decide_and]

/-- first occurrences are their own first occurrences -/
theorem firsts_of_nodup {items : List α} (h : items.Nodup) : firsts items = items := by
  induction items with
  | nil => rfl
  | cons a items ih =>
    obtain ⟨hnew, hrest⟩ := List.nodup_cons.1 h
    rw [firsts, ih hrest, List.filter_eq_self.2]
    intro b hb
    have hne : b ≠ a := fun hsame => hnew (hsame ▸ hb)
    simpa using hne

/-- each list may be replaced by those of the first occurrences that it has -/
theorem firsts_flatMap_filter (places : List β) (listed : β → List α) :
    firsts (places.flatMap fun b => (firsts (places.flatMap listed)).filter (· ∈ listed b)) =
      firsts (places.flatMap listed) := by
  induction places generalizing listed with
  | nil => rfl
  | cons b places ih =>
    -- what the first list does not have is what the others bring up
    have hlater := ih fun b' => (listed b').filter (· ∉ listed b)
    have hall : firsts ((b :: places).flatMap listed) =
        firsts (listed b) ++ firsts (places.flatMap fun b' => (listed b').filter (· ∉ listed b)) := by
      rw [List.flatMap_cons, firsts_append, ← firsts_filter, List.filter_flatMap]
    generalize hnew : firsts (places.flatMap fun b' => (listed b').filter (· ∉ listed b)) = new at hlater hall
    have hnew : ∀ x ∈ new, x ∉ listed b := by
      intro x hx
      rw [← hnew, mem_firsts] at hx
      obtain ⟨b', -, hx⟩ := List.mem_flatMap.1 hx
      simpa using (List.mem_filter.1 hx).2
    have hfirst : (firsts (listed b) ++ new).filter (· ∈ listed b) = firsts (listed b) := by
      have hold : (firsts (listed b)).filter (· ∈ listed b) = firsts (listed b) :=
        List.filter_eq_self.2 fun x hx => decide_eq_true (mem_firsts.1 hx)
      have hnone : new.filter (· ∈ listed b) = [] := by
        simpa [List.filter_eq_nil_iff] using hnew
      rw [List.filter_append, hold, hnone, List.append_nil]
    have hothers : ∀ b' ∈ places, ((firsts (listed b) ++ new).filter (· ∈ listed b')).filter (· ∉ listed b) =
        new.filter (· ∈ (listed b').filter (· ∉ listed b)) := by
      intro b' _
      have hnone : ((firsts (listed b)).filter (· ∈ listed b')).filter (· ∉ listed b) = [] := by
        rw [List.filter_eq_nil_iff]
        intro x hx
        simpa using mem_firsts.1 (List.mem_filter.1 hx).1
      rw [List.filter_append, List.filter_append, hnone, List.nil_append, List.filter_filter]
      refine List.filter_congr fun x hx => ?_
      simp [hnew x hx]
    rw [hall, List.flatMap_cons, hfirst, firsts_append, firsts_of_nodup (nodup_firsts _)]
    simp only [mem_firsts]
    rw [← firsts_filter, List.filter_flatMap, List.flatMap_congr hothers, hlater]

end RackMap.Wiring
