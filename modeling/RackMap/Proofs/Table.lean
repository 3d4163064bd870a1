/-
Tables whose keys are pairwise different: a pair is in such a table iff its key finds its value, so a table is told by
what is found in it (`perm_of_lookup?`).

- `foldl_put_eq_append`: new keys are entered at the end, each with its value;
- `latest` keeps the last pair with each key, and `ofPairs_perm` says that these are what a table holds;
- `sortedOfPairs_perm`: a table built in the order of its keys holds exactly the pairs that were entered;
- `lookup?_sortedOfPairs`: if keys come up again, what is found is the last value of each;
- `eq_of_perm`: a table in the order of its keys is told by its pairs, in whatever order they were entered.
-/
import Mathlib.Tactic
import RackMap.Table

namespace RackMap

/-- texts are ordered -/
instance isStrictTotalOrder_string : IsStrictTotalOrder String (· < ·) where
  trichotomous _ _ hab hba := String.le_antisymm (String.not_lt.1 hba) (String.not_lt.1 hab)
  irrefl := String.lt_irrefl
  trans _ _ _ hab hbc := String.lt_trans hab hbc

end RackMap

namespace RackMap.Table

variable {κ ν : Type} [DecidableEq κ]

theorem mem_of_lookup? {t : Table κ ν} {key : κ} {value : ν} (h : t.lookup? key = some value) : (key, value) ∈ t := by
  induction t with
  | nil => cases h
  | cons p rest ih =>
    rw [lookup?] at h
    split at h
    · rename_i hk
      cases h
      rw [← hk]
      exact List.mem_cons_self
    · exact List.mem_cons_of_mem p (ih h)

theorem mem_keys_of_lookup? {t : Table κ ν} {key : κ} {value : ν} (h : t.lookup? key = some value) : key ∈ t.keys :=
  List.mem_map_of_mem (mem_of_lookup? h)

theorem lookup?_eq_none_iff {t : Table κ ν} {key : κ} : t.lookup? key = none ↔ key ∉ t.keys := by
  induction t with
  | nil => simp [keys]
  | cons p rest ih =>
    simp only [keys] at ih
    by_cases hk : p.1 = key
    · simp [lookup?, keys, hk]
    · simp [lookup?, keys, hk, ih, Ne.symm hk]

theorem exists_lookup? {t : Table κ ν} {key : κ} (h : key ∈ t.keys) : ∃ value, t.lookup? key = some value := by
  cases hl : t.lookup? key with
  | none => exact absurd h (lookup?_eq_none_iff.1 hl)
  | some value => exact ⟨value, rfl⟩

theorem lookup?_of_mem {t : Table κ ν} (hkeys : t.keys.Nodup) {p : κ × ν} (h : p ∈ t) :
    t.lookup? p.1 = some p.2 := by
  induction t with
  | nil => cases h
  | cons q rest ih =>
    have hnodup := List.nodup_cons.1 hkeys
    rw [lookup?]
    rcases List.mem_cons.1 h with rfl | h
    · rw [if_pos rfl]
    · have hne : q.1 ≠ p.1 := fun he => hnodup.1 (he ▸ List.mem_map.2 ⟨p, h, rfl⟩)
      rw [if_neg hne]
      exact ih hnodup.2 h

theorem lookup?_eq_some_iff {t : Table κ ν} (hkeys : t.keys.Nodup) {key : κ} {value : ν} :
    t.lookup? key = some value ↔ (key, value) ∈ t :=
  ⟨mem_of_lookup?, fun h => lookup?_of_mem hkeys h⟩

omit [DecidableEq κ] in
/-- the pairs around one have other keys -/
theorem ne_of_mem_around {before after : Table κ ν} {key : κ} {value : ν}
    (h : (keys (before ++ (key, value) :: after)).Nodup) : ∀ p ∈ before ++ after, p.1 ≠ key := by
  rw [keys, List.map_append, List.map_cons, List.nodup_middle, List.nodup_cons, ← List.map_append] at h
  rintro p hp rfl
  exact h.1 (List.mem_map.2 ⟨p, hp, rfl⟩)

/-- a table with pairwise different keys is told by what is found in it -/
theorem perm_of_lookup? {t t' : Table κ ν} (h : t.keys.Nodup) (h' : t'.keys.Nodup)
    (hlookup : ∀ key, t.lookup? key = t'.lookup? key) : t.Perm t' := by
  rw [List.perm_ext_iff_of_nodup h.of_map h'.of_map]
  intro p
  rw [← lookup?_eq_some_iff h, ← lookup?_eq_some_iff h', hlookup]

/-- a table is told by its keys and what is found under them -/
theorem eq_of_keys_eq {t t' : Table κ ν} (h : t.keys.Nodup) (hkeys : t.keys = t'.keys)
    (hlookup : ∀ key, t.lookup? key = t'.lookup? key) : t = t' := by
  induction t generalizing t' with
  | nil => exact (List.map_eq_nil_iff.1 hkeys.symm).symm
  | cons p rest ih =>
    obtain ⟨p', rest', rfl⟩ : ∃ p' rest', t' = p' :: rest' := by
      cases t' with
      | nil => cases hkeys
      | cons p' rest' => exact ⟨p', rest', rfl⟩
    obtain ⟨k, v⟩ := p
    obtain ⟨k', v'⟩ := p'
    obtain ⟨rfl, hrest⟩ : k = k' ∧ keys rest = keys rest' := List.cons.inj hkeys
    obtain ⟨hnew, hnodup⟩ : k ∉ keys rest ∧ (keys rest).Nodup := List.nodup_cons.1 h
    have hvalue := hlookup k
    rw [lookup?, lookup?, if_pos rfl, if_pos rfl, Option.some.injEq] at hvalue
    have hlater : ∀ key, lookup? rest key = lookup? rest' key := by
      intro key
      by_cases hkey : k = key
      · subst hkey
        rw [lookup?_eq_none_iff.2 hnew, lookup?_eq_none_iff.2 (hrest ▸ hnew)]
      · have hother := hlookup key
        rw [lookup?, lookup?, if_neg hkey, if_neg hkey] at hother
        exact hother
    rw [hvalue, ih hnodup hrest hlater]

/-! ## Entering pairs -/

theorem mem_keys_put {t : Table κ ν} {key other : κ} {value : ν} :
    other ∈ (t.put key value).keys ↔ other ∈ t.keys ∨ other = key := by
  rw [keys_put]
  split
  · rename_i hin
    exact (or_iff_left_of_imp fun heq => heq ▸ hin).symm
  · rw [List.mem_append, List.mem_singleton]

theorem put_of_notMem {t : Table κ ν} {key : κ} (h : key ∉ t.keys) (value : ν) :
    t.put key value = t ++ [(key, value)] := by
  induction t with
  | nil => rfl
  | cons p rest ih =>
    obtain ⟨k, v⟩ := p
    obtain ⟨hk, hrest⟩ : key ≠ k ∧ key ∉ keys rest := by simpa [keys] using h
    rw [put, if_neg hk.symm, ih hrest, List.cons_append]

/-- items entered under new keys stand behind those that are there, in their order -/
theorem foldl_put_eq_append {α : Type} {f : α → κ} {g : α → ν} {items : List α} {t : Table κ ν}
    (h : (t.keys ++ items.map f).Nodup) :
    items.foldl (fun t a => t.put (f a) (g a)) t = t ++ items.map fun a => (f a, g a) := by
  induction items generalizing t with
  | nil => simp
  | cons a items ih =>
    have hnew : f a ∉ t.keys := by
      intro hin
      exact (List.nodup_append.1 h).2.2 _ hin _ List.mem_cons_self rfl
    have hkeys : ((t.put (f a) (g a)).keys ++ items.map f).Nodup := by
      rw [put_of_notMem hnew]
      simpa [keys] using h
    rw [List.foldl_cons, ih hkeys, put_of_notMem hnew, List.append_assoc, List.map_cons, List.singleton_append]

/-- what is found where items with different keys were entered -/
theorem lookup?_foldl_put_iff {α : Type} {f : α → κ} {g : α → ν} {items : List α} (h : (items.map f).Nodup)
    {key : κ} {value : ν} :
    lookup? (items.foldl (fun t a => t.put (f a) (g a)) ([] : Table κ ν)) key = some value ↔
      ∃ a ∈ items, f a = key ∧ g a = value := by
  have hkeys : (keys (items.map fun a => (f a, g a))).Nodup := by
    rw [keys, List.map_map]
    exact h
  rw [foldl_put_eq_append (by simpa [keys] using h), List.nil_append, lookup?_eq_some_iff hkeys]
  simp only [List.mem_map, Prod.mk.injEq]

/-- what is found is one of the items that were entered, or was there before -/
theorem mem_of_lookup?_foldl_put {f : ν → κ} {items : List ν} {t : Table κ ν} {key : κ} {value : ν}
    (h : lookup? (items.foldl (fun t a => t.put (f a) a) t) key = some value) :
    (value ∈ items ∧ f value = key) ∨ t.lookup? key = some value := by
  induction items generalizing t with
  | nil => exact Or.inr h
  | cons a items ih =>
    rcases ih h with ⟨hmem, hkey⟩ | h
    · exact Or.inl ⟨List.mem_cons_of_mem a hmem, hkey⟩
    · rw [lookup?_put] at h
      split at h
      · rename_i hkey
        cases h
        exact Or.inl ⟨List.mem_cons_self, hkey.symm⟩
      · exact Or.inr h

theorem ofPairs_eq_self {ps : List (κ × ν)} (h : (ps.map Prod.fst).Nodup) : ofPairs ps = ps := by
  have hfold : ofPairs ps = [] ++ ps.map fun p => (p.1, p.2) := foldl_put_eq_append (by simpa [keys] using h)
  simpa using hfold

/-- the last pair with each key, in their order -/
def latest : List (κ × ν) → List (κ × ν)
  | [] => []
  | p :: rest => if p.1 ∈ keys rest then latest rest else p :: latest rest

theorem mem_keys_latest {ps : List (κ × ν)} {key : κ} : key ∈ keys (latest ps) ↔ key ∈ keys ps := by
  induction ps with
  | nil => rfl
  | cons p rest ih =>
    have hcons : ∀ tail : List (κ × ν), keys (p :: tail) = p.1 :: keys tail := fun _ => rfl
    rw [latest]
    split
    · rename_i hlater
      rw [ih, hcons, List.mem_cons, or_iff_right_of_imp]
      rintro rfl
      exact hlater
    · rw [hcons, hcons, List.mem_cons, List.mem_cons, ih]

theorem nodup_keys_latest (ps : List (κ × ν)) : (keys (latest ps)).Nodup := by
  induction ps with
  | nil => exact List.nodup_nil
  | cons p rest ih =>
    rw [latest]
    split
    · exact ih
    · rename_i hlast
      exact List.nodup_cons.2 ⟨fun hin => hlast (mem_keys_latest.1 hin), ih⟩

theorem latest_sublist (ps : List (κ × ν)) : (latest ps).Sublist ps := by
  induction ps with
  | nil => exact List.Sublist.slnil
  | cons p rest ih =>
    rw [latest]
    split
    · exact ih.cons p
    · exact ih.cons_cons p

theorem latest_eq_self {ps : List (κ × ν)} (h : (keys ps).Nodup) : latest ps = ps := by
  induction ps with
  | nil => rfl
  | cons p rest ih =>
    obtain ⟨hp, hrest⟩ : p.1 ∉ keys rest ∧ (keys rest).Nodup := List.nodup_cons.1 h
    rw [latest, if_neg hp, ih hrest]

theorem nodup_keys_foldl_put {ps : List (κ × ν)} {t : Table κ ν} (h : t.keys.Nodup) :
    (keys (ps.foldl (fun t p => t.put p.1 p.2) t)).Nodup := by
  induction ps generalizing t with
  | nil => exact h
  | cons p rest ih => exact ih (nodup_keys_put h p.1 p.2)

/-- what is found after entering pairs one by one: the last value of a key, and else what was there; it does not matter
where a pair is put, as long as it is found -/
theorem lookup?_foldl {enter : Table κ ν → κ → ν → Table κ ν}
    (henter : ∀ t key value other,
      lookup? (enter t key value) other = if other = key then some value else t.lookup? other)
    (ps : List (κ × ν)) (t : Table κ ν) (key : κ) :
    lookup? (ps.foldl (fun t p => enter t p.1 p.2) t) key = (lookup? (latest ps) key).or (t.lookup? key) := by
  induction ps generalizing t with
  | nil => simp [latest]
  | cons p rest ih =>
    rw [List.foldl_cons, ih, henter, latest]
    by_cases hlater : p.1 ∈ keys rest
    · rw [if_pos hlater]
      by_cases hkey : key = p.1
      · obtain ⟨value, hvalue⟩ := exists_lookup? (mem_keys_latest.2 hlater)
        rw [hkey, hvalue, Option.some_or, Option.some_or]
      · rw [if_neg hkey]
    · rw [if_neg hlater, lookup?]
      by_cases hkey : key = p.1
      · have hnone : lookup? (latest rest) p.1 = none :=
          lookup?_eq_none_iff.2 fun hin => hlater (mem_keys_latest.1 hin)
        rw [hkey, if_pos rfl, if_pos rfl, hnone, Option.none_or, Option.some_or]
      · rw [if_neg hkey, if_neg (Ne.symm hkey)]

theorem lookup?_foldl_put (ps : List (κ × ν)) (t : Table κ ν) (key : κ) :
    lookup? (ps.foldl (fun t p => t.put p.1 p.2) t) key = (lookup? (latest ps) key).or (t.lookup? key) :=
  lookup?_foldl (fun t key value other => lookup?_put t key other value) ps t key

/-- **A table holds the last pair with each key.** -/
theorem ofPairs_perm (ps : List (κ × ν)) : (ofPairs ps).Perm (latest ps) := by
  have hnil : (keys ([] : Table κ ν)).Nodup := List.nodup_nil
  refine perm_of_lookup? (nodup_keys_foldl_put hnil) (nodup_keys_latest ps) fun key => ?_
  rw [ofPairs, lookup?_foldl_put, lookup?_nil, Option.or_none]

/-! ## Tables in the order of their keys -/

variable [LT κ] [DecidableLT κ]

theorem lookup?_putSorted (t : Table κ ν) (key : κ) (value : ν) (other : κ) :
    (t.putSorted key value).lookup? other = if other = key then some value else t.lookup? other := by
  induction t with
  | nil => simp only [putSorted, lookup?, eq_comm]
  | cons p rest ih =>
    obtain ⟨k, v⟩ := p
    rw [putSorted]
    split
    · rename_i hk
      subst hk
      by_cases h : k = other
      · simp [lookup?, h]
      · simp [lookup?, h, Ne.symm h]
    · rename_i hk
      split
      · simp only [lookup?, @eq_comm _ other]
      · rw [lookup?, lookup?, ih]
        by_cases h : k = other
        · subst h
          simp [hk]
        · simp [h]

/-- a pair is entered or was there before -/
theorem mem_putSorted {t : Table κ ν} {key : κ} {value : ν} {p : κ × ν} (h : p ∈ t.putSorted key value) :
    p = (key, value) ∨ p ∈ t := by
  induction t with
  | nil => exact Or.inl (List.mem_singleton.1 h)
  | cons q rest ih =>
    obtain ⟨k, v⟩ := q
    rw [putSorted] at h
    split at h
    · rename_i hk
      rcases List.mem_cons.1 h with rfl | h
      · exact Or.inl (by rw [hk])
      · exact Or.inr (List.mem_cons_of_mem _ h)
    · split at h
      · exact List.mem_cons.1 h
      · rcases List.mem_cons.1 h with rfl | h
        · exact Or.inr List.mem_cons_self
        · exact (ih h).imp_right (List.mem_cons_of_mem _)

theorem mem_sortedOfPairs {ps : List (κ × ν)} {p : κ × ν} (h : p ∈ sortedOfPairs ps) : p ∈ ps := by
  have hfold : ∀ (ps : List (κ × ν)) (t : Table κ ν), p ∈ ps.foldl (fun t p => t.putSorted p.1 p.2) t →
      p ∈ ps ∨ p ∈ t := by
    intro ps
    induction ps with
    | nil => exact fun t ht => Or.inr ht
    | cons q ps ih =>
      intro t ht
      rcases ih _ ht with hp | hp
      · exact Or.inl (List.mem_cons_of_mem q hp)
      · rcases mem_putSorted hp with rfl | hp
        · exact Or.inl List.mem_cons_self
        · exact Or.inr hp
  exact (hfold ps [] h).resolve_right List.not_mem_nil

/-- **Searching a sorted table.** The last value of a key is found, whatever is entered under it before. -/
theorem lookup?_sortedOfPairs (ps : List (κ × ν)) (key : κ) :
    (sortedOfPairs ps).lookup? key = lookup? (latest ps) key := by
  rw [sortedOfPairs, lookup?_foldl lookup?_putSorted, lookup?_nil, Option.or_none]

/-- if every value that is entered depends on its key alone, that value is found -/
theorem lookup?_sortedOfPairs_of_forall {ps : List (κ × ν)} {f : κ → ν} (h : ∀ p ∈ ps, p.2 = f p.1) {key : κ}
    (hkey : key ∈ keys ps) : (sortedOfPairs ps).lookup? key = some (f key) := by
  obtain ⟨value, hvalue⟩ := exists_lookup? (mem_keys_latest.2 hkey)
  have hentered : (key, value) ∈ ps := (latest_sublist ps).subset (mem_of_lookup? hvalue)
  rw [lookup?_sortedOfPairs, hvalue, ← h _ hentered]

theorem mem_keys_sortedOfPairs {ps : List (κ × ν)} {key : κ} : key ∈ (sortedOfPairs ps).keys ↔ key ∈ keys ps := by
  rw [← not_iff_not, ← lookup?_eq_none_iff, lookup?_sortedOfPairs, lookup?_eq_none_iff, mem_keys_latest]

theorem putSorted_perm {t : Table κ ν} {key : κ} (h : key ∉ t.keys) (value : ν) :
    (t.putSorted key value).Perm ((key, value) :: t) := by
  induction t with
  | nil => exact List.Perm.refl _
  | cons p rest ih =>
    obtain ⟨k, v⟩ := p
    obtain ⟨hk, hrest⟩ : key ≠ k ∧ key ∉ keys rest := by simpa [keys] using h
    rw [putSorted, if_neg hk.symm]
    split
    · exact List.Perm.refl _
    · exact ((ih hrest).cons (k, v)).trans (List.Perm.swap (key, value) (k, v) rest)

/-- entering the pairs of a list into a sorted table, on top of those that are there -/
theorem foldl_putSorted_perm {ps : List (κ × ν)} {t : Table κ ν} (h : (ps.map Prod.fst ++ t.keys).Nodup) :
    (ps.foldl (fun t p => t.putSorted p.1 p.2) t).Perm (t ++ ps) := by
  induction ps generalizing t with
  | nil => rw [List.append_nil]; exact List.Perm.refl t
  | cons p ps ih =>
    rw [List.map_cons, List.cons_append, List.nodup_cons, List.mem_append, not_or] at h
    obtain ⟨⟨hps, ht⟩, hrest⟩ := h
    have hput : (t.putSorted p.1 p.2).Perm (p :: t) := putSorted_perm ht p.2
    have hkeys : (t.putSorted p.1 p.2).keys.Perm (p.1 :: t.keys) := hput.map Prod.fst
    have hnodup : (ps.map Prod.fst ++ (t.putSorted p.1 p.2).keys).Nodup := by
      rw [(hkeys.append_left (ps.map Prod.fst)).nodup_iff, List.perm_middle.nodup_iff, List.nodup_cons]
      exact ⟨by simp only [List.mem_append, not_or]; exact ⟨hps, ht⟩, hrest⟩
    have hmove : (t.putSorted p.1 p.2 ++ ps).Perm (t ++ p :: ps) :=
      (hput.append_right ps).trans List.perm_middle.symm
    exact (ih hnodup).trans hmove

/-- a sorted table holds the pairs that were entered, if their keys are pairwise different -/
theorem sortedOfPairs_perm {ps : List (κ × ν)} (h : (ps.map Prod.fst).Nodup) : (sortedOfPairs ps).Perm ps := by
  have := foldl_putSorted_perm (t := ([] : Table κ ν)) (by simpa [keys] using h)
  simpa [sortedOfPairs] using this

/-! ### Values that correspond -/

/-- tables that are alike key by key stay so when alike values are entered under one key -/
theorem forall₂_putSorted {S : ν → ν → Prop} {t t' : Table κ ν}
    (h : List.Forall₂ (fun p p' => p.1 = p'.1 ∧ S p.2 p'.2) t t') (key : κ) {value value' : ν}
    (hvalue : S value value') :
    List.Forall₂ (fun p p' => p.1 = p'.1 ∧ S p.2 p'.2) (t.putSorted key value) (t'.putSorted key value') := by
  induction h with
  | nil => exact .cons ⟨rfl, hvalue⟩ .nil
  | @cons p p' rest rest' hp hrest ih =>
    obtain ⟨k, v⟩ := p
    obtain ⟨k', v'⟩ := p'
    obtain ⟨rfl, hv⟩ : k = k' ∧ S v v' := hp
    rw [putSorted, putSorted]
    split
    · exact .cons ⟨rfl, hvalue⟩ hrest
    · split
      · exact .cons ⟨rfl, hvalue⟩ (.cons ⟨rfl, hv⟩ hrest)
      · exact .cons ⟨rfl, hv⟩ ih

theorem forall₂_sortedOfPairs {S : ν → ν → Prop} {ps ps' : List (κ × ν)}
    (h : List.Forall₂ (fun p p' => p.1 = p'.1 ∧ S p.2 p'.2) ps ps') :
    List.Forall₂ (fun p p' => p.1 = p'.1 ∧ S p.2 p'.2) (sortedOfPairs ps) (sortedOfPairs ps') := by
  have hfold : ∀ t t' : Table κ ν, List.Forall₂ (fun p p' => p.1 = p'.1 ∧ S p.2 p'.2) t t' →
      List.Forall₂ (fun p p' => p.1 = p'.1 ∧ S p.2 p'.2) (ps.foldl (fun (t : Table κ ν) p => t.putSorted p.1 p.2) t)
        (ps'.foldl (fun (t : Table κ ν) p => t.putSorted p.1 p.2) t') := by
    induction h with
    | nil => exact fun t t' ht => ht
    | @cons p p' rest rest' hp hrest ih =>
      intro t t' ht
      rw [List.foldl_cons, List.foldl_cons, ← hp.1]
      exact ih _ _ (forall₂_putSorted ht p.1 hp.2)
  exact hfold [] [] .nil

/-! ### Told by their pairs -/

/-- the keys stand in their order -/
def Ascending (t : Table κ ν) : Prop := t.keys.Pairwise (· < ·)

variable {t t' : Table κ ν} {key other : κ} {value : ν}

theorem mem_keys_putSorted (h : other ∈ (t.putSorted key value).keys) : other = key ∨ other ∈ t.keys := by
  obtain ⟨p, hp, rfl⟩ := List.mem_map.1 h
  rcases mem_putSorted hp with rfl | hp
  · exact Or.inl rfl
  · exact Or.inr (List.mem_map_of_mem hp)

variable [IsStrictTotalOrder κ (· < ·)]

theorem Ascending.putSorted (h : t.Ascending) (key : κ) (value : ν) : (t.putSorted key value).Ascending := by
  induction t with
  | nil => exact List.pairwise_singleton _ key
  | cons p rest ih =>
    obtain ⟨k, v⟩ := p
    obtain ⟨hfirst, hrest⟩ : (∀ other ∈ keys rest, k < other) ∧ Ascending rest := List.pairwise_cons.1 h
    rw [Table.putSorted]
    split
    · exact h
    · rename_i hne
      split
      · rename_i hlt
        -- the new key comes first, so it is below all others
        refine List.pairwise_cons.2 ⟨fun other hother => ?_, h⟩
        rcases List.mem_cons.1 hother with rfl | hother
        · exact hlt
        · exact trans_of (· < ·) hlt (hfirst other hother)
      · rename_i hnot
        have hgt : k < key := (trichotomous_of (· < ·) k key).resolve_right fun h => h.elim hne hnot
        refine List.pairwise_cons.2 ⟨fun other hother => ?_, ih hrest⟩
        rcases mem_keys_putSorted hother with rfl | hother
        · exact hgt
        · exact hfirst other hother

theorem ascending_sortedOfPairs (ps : List (κ × ν)) : (sortedOfPairs ps).Ascending := by
  have hfold : ∀ (ps : List (κ × ν)) (t : Table κ ν), t.Ascending →
      Ascending (ps.foldl (fun t p => t.putSorted p.1 p.2) t) := by
    intro ps
    induction ps with
    | nil => exact fun t ht => ht
    | cons p ps ih => exact fun t ht => ih _ (ht.putSorted p.1 p.2)
  exact hfold ps [] List.Pairwise.nil

omit [DecidableEq κ] [DecidableLT κ] in
theorem Ascending.nodup_keys (h : t.Ascending) : t.keys.Nodup :=
  List.Pairwise.imp (fun {a b} (hlt : a < b) => ne_of_irrefl (r := (· < ·)) hlt) h

omit [DecidableEq κ] [DecidableLT κ] in
/-- tables in the order of their keys are the same if they have the same pairs -/
theorem eq_of_perm (h : t.Ascending) (h' : t'.Ascending) (hperm : t.Perm t') : t = t' := by
  have hpairs : t.Pairwise fun a b => a.1 < b.1 := List.pairwise_map.1 h
  have hpairs' : t'.Pairwise fun a b => a.1 < b.1 := List.pairwise_map.1 h'
  exact hperm.eq_of_pairwise (fun a b _ _ hab hba => absurd hba (asymm_of (· < ·) hab)) hpairs hpairs'

/-- the order in which pairs with different keys are entered is not seen -/
theorem sortedOfPairs_eq_of_perm {ps ps' : List (κ × ν)} (h : (ps.map Prod.fst).Nodup) (hperm : ps.Perm ps') :
    sortedOfPairs ps = sortedOfPairs ps' := by
  have h' : (ps'.map Prod.fst).Nodup := (hperm.map Prod.fst).nodup_iff.1 h
  refine eq_of_perm (ascending_sortedOfPairs ps) (ascending_sortedOfPairs ps') ?_
  exact (sortedOfPairs_perm h).trans (hperm.trans (sortedOfPairs_perm h').symm)

/-- some of the keys may be left out before or after the pairs are entered -/
theorem sortedOfPairs_filter {ps : List (κ × ν)} (h : (ps.map Prod.fst).Nodup) (wanted : κ → Bool) :
    sortedOfPairs (ps.filter fun p => wanted p.1) = (sortedOfPairs ps).filter fun p => wanted p.1 := by
  have hwanted : ((ps.filter fun p => wanted p.1).map Prod.fst).Nodup := h.sublist (List.filter_sublist.map Prod.fst)
  have hleft : Ascending ((sortedOfPairs ps).filter fun p => wanted p.1) :=
    (ascending_sortedOfPairs ps).sublist (List.filter_sublist.map Prod.fst)
  refine eq_of_perm (ascending_sortedOfPairs _) hleft ?_
  exact (sortedOfPairs_perm hwanted).trans ((sortedOfPairs_perm h).filter _).symm

end RackMap.Table
