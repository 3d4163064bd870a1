/-
Outcomes of chained steps: when a chain succeeds, and which failure it ends with.

- `bind_eq_ok_iff`, `bind_eq_error_iff`: a chain of two steps succeeds iff both do, and fails as one of them;
- `mapM_eq_ok_iff` and `exists_mapM_iff`: a step taken for every item of a list succeeds iff it does for every item;
  `mapM_eq_error_iff`: it fails as the first item for which it does;
- `mapM_ite`: if what it does depends on a check, it ends with the failure of the first item that fails the check;
- `foldlM_induction`: what the steps of a fold keep holds of its result, and `exists_of_foldlM_eq_error` that a fold
  fails as one of its steps;
- `exists_foldlM_iff`: a fold whose items alone decide whether a step succeeds does so iff all of them pass.
-/
import Mathlib.Tactic

namespace RackMap

variable {ε α β : Type}

@[simp] theorem ok_bind (a : α) (f : α → Except ε β) : ((.ok a : Except ε α) >>= f) = f a := rfl

@[simp] theorem error_bind (e : ε) (f : α → Except ε β) : ((.error e : Except ε α) >>= f) = .error e := rfl

@[simp] theorem pure_eq_ok (a : α) : (pure a : Except ε α) = .ok a := rfl

theorem bind_eq_ok_iff {x : Except ε α} {f : α → Except ε β} {b : β} :
    (x >>= f) = .ok b ↔ ∃ a, x = .ok a ∧ f a = .ok b := by
  cases x <;> simp

theorem map_eq_ok_iff {x : Except ε α} {f : α → β} {b : β} : x.map f = .ok b ↔ ∃ a, x = .ok a ∧ f a = b := by
  cases x <;> simp [Except.map]

theorem bind_eq_error_iff {x : Except ε α} {f : α → Except ε β} {e : ε} :
    (x >>= f) = .error e ↔ x = .error e ∨ ∃ a, x = .ok a ∧ f a = .error e := by
  cases x <;> simp

theorem map_eq_error_iff {x : Except ε α} {f : α → β} {e : ε} : x.map f = .error e ↔ x = .error e := by
  cases x <;> simp [Except.map]

theorem mapError_eq_ok_iff {ε' : Type} {x : Except ε α} {f : ε → ε'} {a : α} : x.mapError f = .ok a ↔ x = .ok a := by
  cases x <;> simp [Except.mapError]

theorem toOption_eq_some_iff {x : Except ε α} {a : α} : x.toOption = some a ↔ x = .ok a := by
  cases x <;> simp [Except.toOption]

/-- a result that passes a check exists once the outcome is computed -/
theorem exists_eq_ok {x : Except ε α} {c : α → Bool} (h : x.toOption.any c = true) : ∃ a, x = .ok a ∧ c a = true := by
  cases x with
  | error e => cases h
  | ok a => exact ⟨a, rfl, h⟩

theorem mapM_eq_ok_iff {f : α → Except ε β} {as : List α} {bs : List β} :
    as.mapM f = .ok bs ↔ as.map f = bs.map .ok := by
  induction as generalizing bs with
  | nil => cases bs <;> simp
  | cons a as ih =>
    rw [List.mapM_cons, bind_eq_ok_iff, List.map_cons]
    simp only [bind_eq_ok_iff, pure_eq_ok, Except.ok.injEq, ih]
    constructor
    · rintro ⟨b, hb, bs, hbs, rfl⟩
      rw [hb, hbs, List.map_cons]
    · intro h
      cases bs with
      | nil => simp at h
      | cons b bs =>
        rw [List.map_cons, List.cons.injEq] at h
        exact ⟨b, h.1, bs, h.2, rfl⟩

/-- item by item -/
theorem mapM_eq_ok_iff_forall₂ {f : α → Except ε β} {as : List α} {bs : List β} :
    as.mapM f = .ok bs ↔ List.Forall₂ (fun a b => f a = .ok b) as bs := by
  rw [mapM_eq_ok_iff, ← List.forall₂_eq_eq_eq, List.forall₂_map_left_iff, List.forall₂_map_right_iff]

theorem mem_of_mapM_eq_ok {f : α → Except ε β} {as : List α} {bs : List β} (h : as.mapM f = .ok bs) {b : β} :
    b ∈ bs ↔ ∃ a ∈ as, f a = .ok b := by
  have hmap := mapM_eq_ok_iff.1 h
  have hmem : (.ok b : Except ε β) ∈ as.map f ↔ .ok b ∈ bs.map (.ok : β → Except ε β) := by rw [hmap]
  simpa [List.mem_map] using hmem.symm

/-- a step can be taken for every item iff it succeeds for each of them -/
theorem exists_mapM_iff {f : α → Except ε β} {as : List α} :
    (∃ bs, as.mapM f = .ok bs) ↔ ∀ a ∈ as, ∃ b, f a = .ok b := by
  constructor
  · rintro ⟨bs, hbs⟩ a ha
    have hin : f a ∈ as.map f := List.mem_map_of_mem ha
    rw [mapM_eq_ok_iff.1 hbs] at hin
    obtain ⟨b, -, hb⟩ := List.mem_map.1 hin
    exact ⟨b, hb.symm⟩
  · intro hall
    induction as with
    | nil => exact ⟨[], rfl⟩
    | cons a as ih =>
      obtain ⟨⟨b, hb⟩, hrest⟩ := List.forall_mem_cons.1 hall
      obtain ⟨bs, hbs⟩ := ih hrest
      refine ⟨b :: bs, ?_⟩
      rw [List.mapM_cons, hb, ok_bind, hbs, ok_bind, pure_eq_ok]

/-- what every result tells of its item, the results tell of the items in order -/
theorem map_of_mapM_eq_ok {γ : Type} {f : α → Except ε β} {as : List α} {bs : List β} {g : β → γ} {k : α → γ}
    (h : as.mapM f = .ok bs) (hf : ∀ a b, f a = .ok b → g b = k a) : bs.map g = as.map k := by
  have hmap := mapM_eq_ok_iff.1 h
  clear h
  induction bs generalizing as with
  | nil =>
    rw [List.map_nil, List.map_eq_nil_iff] at hmap
    rw [hmap]
    rfl
  | cons b bs ih =>
    cases as with
    | nil => cases hmap
    | cons a as =>
      rw [List.map_cons, List.map_cons, List.cons.injEq] at hmap
      rw [List.map_cons, List.map_cons, ih hmap.2, hf a b hmap.1]

/-- steps fail as the first of them that does -/
theorem mapM_eq_error_iff {f : α → Except ε β} {as : List α} {e : ε} :
    as.mapM f = .error e ↔
      ∃ before a after, as = before ++ a :: after ∧ (∀ b ∈ before, ∃ x, f b = .ok x) ∧ f a = .error e := by
  induction as with
  | nil => simp
  | cons a as ih =>
    rw [List.mapM_cons]
    cases ha : f a with
    | error e' =>
      rw [error_bind, Except.error.injEq]
      constructor
      · rintro rfl
        exact ⟨[], a, as, rfl, List.forall_mem_nil _, ha⟩
      · rintro ⟨before, a', after, hsplit, hbefore, ha'⟩
        rcases List.cons_eq_append_iff.1 hsplit with ⟨rfl, hcons⟩ | ⟨before, rfl, -⟩
        · rw [(List.cons.inj hcons).1, ha, Except.error.injEq] at ha'
          exact ha'
        · obtain ⟨x, hx⟩ := hbefore a List.mem_cons_self
          rw [ha] at hx
          cases hx
    | ok b =>
      have hrest : ((.ok b : Except ε β) >>= fun b => as.mapM f >>= fun bs => pure (b :: bs)) = .error e ↔
          as.mapM f = .error e := by
        rw [ok_bind]
        cases as.mapM f <;> simp
      rw [hrest, ih]
      constructor
      · rintro ⟨before, a', after, rfl, hbefore, ha'⟩
        exact ⟨a :: before, a', after, rfl, List.forall_mem_cons.2 ⟨⟨b, ha⟩, hbefore⟩, ha'⟩
      · rintro ⟨before, a', after, hsplit, hbefore, ha'⟩
        rcases List.cons_eq_append_iff.1 hsplit with ⟨rfl, hcons⟩ | ⟨before, rfl, rfl⟩
        · rw [(List.cons.inj hcons).1, ha] at ha'
          cases ha'
        · exact ⟨before, a', after, rfl, (List.forall_mem_cons.1 hbefore).2, ha'⟩

theorem exists_of_mapM_eq_error {f : α → Except ε β} {as : List α} {e : ε} (h : as.mapM f = .error e) :
    ∃ a ∈ as, f a = .error e := by
  obtain ⟨before, a, after, rfl, -, ha⟩ := mapM_eq_error_iff.1 h
  exact ⟨a, List.mem_append_right before List.mem_cons_self, ha⟩

/-- a step that fails wherever a check does: the first item that fails the check decides -/
theorem mapM_ite {c : α → Bool} {f : α → β} {g : α → ε} {as : List α} :
    as.mapM (fun a => if c a then (.ok (f a) : Except ε β) else .error (g a)) =
      match as.find? (fun a => !c a) with
      | some a => .error (g a)
      | none => .ok (as.map f) := by
  induction as with
  | nil => rfl
  | cons a as ih =>
    rw [List.mapM_cons, ih, List.find?_cons]
    cases hc : c a with
    | false => simp
    | true => cases as.find? (fun a => !c a) <;> simp

/-- what holds at the start of a fold and is kept by each step holds at its end; `done` are the items behind -/
theorem foldlM_induction {f : β → α → Except ε β} {as : List α} {b b' : β} (motive : List α → β → Prop)
    (hstart : motive [] b)
    (hstep : ∀ done a x x', a ∈ as → motive done x → f x a = .ok x' → motive (done ++ [a]) x')
    (h : as.foldlM f b = .ok b') : motive as b' := by
  have hrest : ∀ (rest done : List α) (x : β), (∀ a ∈ rest, a ∈ as) → motive done x → rest.foldlM f x = .ok b' →
      motive (done ++ rest) b' := by
    intro rest
    induction rest with
    | nil =>
      intro done x _ hdone hx
      cases hx
      rw [List.append_nil]
      exact hdone
    | cons a rest ih =>
      intro done x hin hdone hx
      rw [List.foldlM_cons] at hx
      obtain ⟨x', hx', hx⟩ := bind_eq_ok_iff.1 hx
      obtain ⟨ha, hin⟩ := List.forall_mem_cons.1 hin
      have hall := ih (done ++ [a]) x' hin (hstep done a x x' ha hdone hx') hx
      rwa [List.append_assoc, List.singleton_append] at hall
  exact hrest as [] b (fun _ ha => ha) hstart h

/-- a fold whose steps succeed or fail by the items alone succeeds iff each of its items passes -/
theorem exists_foldlM_iff {f : β → α → Except ε β} {passes : α → Prop} {as : List α} {b : β}
    (hstep : ∀ a ∈ as, ∀ x, (∃ x', f x a = .ok x') ↔ passes a) :
    (∃ b', as.foldlM f b = .ok b') ↔ ∀ a ∈ as, passes a := by
  induction as generalizing b with
  | nil => exact iff_of_true ⟨b, rfl⟩ (List.forall_mem_nil _)
  | cons a as ih =>
    obtain ⟨hfirst, hrest⟩ := List.forall_mem_cons.1 hstep
    simp only [List.foldlM_cons, bind_eq_ok_iff, List.forall_mem_cons, ← hfirst b]
    constructor
    · rintro ⟨b', x, hx, hb'⟩
      exact ⟨⟨x, hx⟩, (ih hrest).1 ⟨b', hb'⟩⟩
    · rintro ⟨⟨x, hx⟩, hall⟩
      obtain ⟨b', hb'⟩ := (ih hrest (b := x)).2 hall
      exact ⟨b', x, hx, hb'⟩

/-- a fold that succeeds takes every step -/
theorem exists_of_foldlM_eq_ok {f : β → α → Except ε β} {as : List α} {b b' : β} (h : as.foldlM f b = .ok b') {a : α}
    (ha : a ∈ as) : ∃ x x', f x a = .ok x' := by
  induction as generalizing b with
  | nil => cases ha
  | cons first as ih =>
    rw [List.foldlM_cons] at h
    obtain ⟨x, hfirst, hrest⟩ := bind_eq_ok_iff.1 h
    rcases List.mem_cons.1 ha with rfl | ha
    · exact ⟨b, x, hfirst⟩
    · exact ih hrest ha

/-- a fold fails as one of its steps -/
theorem exists_of_foldlM_eq_error {f : β → α → Except ε β} {as : List α} {b : β} {e : ε}
    (h : as.foldlM f b = .error e) : ∃ a ∈ as, ∃ x, f x a = .error e := by
  induction as generalizing b with
  | nil => cases h
  | cons a as ih =>
    rw [List.foldlM_cons] at h
    rcases bind_eq_error_iff.1 h with h | ⟨b', -, h⟩
    · exact ⟨a, List.mem_cons_self, b, h⟩
    · obtain ⟨a', ha', hfail⟩ := ih h
      exact ⟨a', List.mem_cons_of_mem a ha', hfail⟩

end RackMap
