/-
Reading back records that were written.

A record is written as an object with a member for each field that is set; a field that is open is left out. Reading
takes the members one after the other, so what they make of a record is told member by member.
- `Form.Takes` says that members make one record of another, whatever fields were read before them; `Takes.member` is
  one that is always there, `Takes.number?` one for a number that may be open;
- `Form.read_of_takes`: then the object is read as this record;
- `Form.invariant_of_read`: what holds of an empty record and is kept by its fields holds of every record that is read.
-/
import Mathlib.Tactic
import RackMap.Proofs.Outcome
import RackMap.Shape.Form

namespace RackMap.Shape

open RackMap.Decimal (Double)
open RackMap.Json (Excerpt Ending)

variable {σ α : Type} {form : Form σ} {field : Field σ} {given names : List String} {s s₁ s' : σ} {key : String}
  {json : Json} {members : List (String × Json)} {x : Double} {x? : Option Double} {e : Excerpt}

/-! ## Values -/

namespace Reader

theorem double_ofDouble (hx : x.isFinite = true) : Reader.double (.ofJson (.ofDouble x)) = .ok x := by
  rw [Json.ofDouble, if_pos hx]
  rfl

theorem nullable_ofDouble (hx : x.isFinite = true) :
    Reader.nullable Reader.double (.ofJson (.ofDouble x)) = .ok (some x) := by
  rw [Json.ofDouble, if_pos hx]
  rfl

/-- an open number is written as `null` and read as such -/
theorem nullable_ofOption (hx : ∀ x, x? = some x → x.isFinite = true) :
    Reader.nullable Reader.double (.ofJson (.ofOption .ofDouble x?)) = .ok x? := by
  cases x? with
  | none => rfl
  | some x => exact nullable_ofDouble (hx x rfl)

theorem nullable_obj (read : Reader α) (members : List (String × Json)) :
    Reader.nullable read (.ofJson (.obj members)) = (read (.ofJson (.obj members))).map some := rfl

section Integer

variable {low high n : Int} {wanted : String}

theorem integer_int (h : low ≤ n ∧ n < high) : Reader.integer low high wanted (.int n) = .ok n := if_pos h

theorem range_of_integer (h : Reader.integer low high wanted e = .ok n) : low ≤ n ∧ n < high := by
  cases e with
  | int k =>
    rw [Reader.integer] at h
    split at h
    · rename_i hrange
      cases h
      exact hrange
    · cases h
  | _ => cases h

end Integer

/-- members with values that are read back are read back in order -/
theorem entries_ofJson {read : Reader α} {write : α → Json} {wanted : String} {entries : List (String × α)}
    (h : ∀ entry ∈ entries, read.ofTree (write entry.2) = .ok entry.2) :
    Reader.entries wanted read (.ofJson (.obj (entries.map fun entry => (entry.1, write entry.2)))) = .ok entries := by
  have hmembers : (Excerpt.ofMembers (entries.map fun entry => (entry.1, write entry.2))).mapM (Reader.entry read) =
      .ok entries := by
    induction entries with
    | nil => rfl
    | cons entry rest ih =>
      have hentry : read (.ofJson (write entry.2)) = .ok entry.2 := h entry List.mem_cons_self
      rw [List.map_cons, Excerpt.ofMembers, List.mapM_cons, Reader.entry, hentry,
        ih fun later hlater => h later (List.mem_cons_of_mem entry hlater)]
      rfl
  rw [Excerpt.ofJson, Reader.entries, hmembers]
  rfl

/-- the values of an object were read -/
theorem exists_read_of_entries {read : Reader α} {wanted : String} {entries : List (String × α)} {entry : String × α}
    (h : Reader.entries wanted read e = .ok entries) (hentry : entry ∈ entries) : ∃ e', read e' = .ok entry.2 := by
  cases e with
  | obj members ending =>
    obtain ⟨listed, hlisted, h⟩ := bind_eq_ok_iff.1 h
    obtain ⟨-, -, h⟩ := bind_eq_ok_iff.1 h
    cases h
    obtain ⟨member, -, hmember⟩ := (mem_of_mapM_eq_ok hlisted).1 hentry
    obtain ⟨value, hvalue, hmade⟩ := bind_eq_ok_iff.1 hmember
    cases hmade
    exact ⟨member.2, hvalue⟩
  | _ => cases h

/-- a value that may be `null` and is not was read -/
theorem eq_ok_of_nullable {read : Reader α} {a : α} (h : Reader.nullable read e = .ok (some a)) : read e = .ok a := by
  cases e with
  | null => cases h
  | _ =>
    obtain ⟨a', ha', hsome⟩ := map_eq_ok_iff.1 h
    cases hsome
    exact ha'

end Reader

/-! ## Records -/

namespace Form

/-- members that make `s'` of `s` and leave no field missing, if at least the fields `given` and at most the fields
`names` were read before them -/
def Takes (form : Form σ) (given names : List String) (s : σ) (members : List (String × Json)) (s' : σ) : Prop :=
  ∀ seen, given ⊆ seen → seen ⊆ names →
    ∃ seen', form.takeMembers (Excerpt.ofMembers members) seen s = .ok (seen', s') ∧ form.missing? seen' = none

namespace Takes

theorem nil (h : ∀ field ∈ form.fields, field.mayLack = true ∨ field.name ∈ given) : form.Takes given names s [] s := by
  intro seen hgiven _
  refine ⟨seen, rfl, List.find?_eq_none.2 fun field hfield => ?_⟩
  rcases h field hfield with hlack | hin
  · simp [hlack]
  · simp [hgiven hin]

/-- a member that is always there -/
theorem member (hfind : form.fields.find? (·.spellings.contains key) = some field) (hnew : field.name ∉ names)
    (hread : field.read (.ofJson json) s = .ok s₁)
    (hrest : form.Takes (field.name :: given) (field.name :: names) s₁ members s') :
    form.Takes given names s ((key, json) :: members) s' := by
  intro seen hgiven hnames
  have hunseen : seen.contains field.name = false := by
    simpa using fun hseen => hnew (hnames hseen)
  obtain ⟨seen', htake, hmissing⟩ := hrest (field.name :: seen) (List.cons_subset_cons _ hgiven)
    (List.cons_subset_cons _ hnames)
  refine ⟨seen', ?_, hmissing⟩
  rw [Excerpt.ofMembers, takeMembers]
  simp only [hfind, hunseen, hread, Bool.false_eq_true, if_false, ok_bind]
  exact htake

/-- a member that is there if its value is -/
theorem member? {write : α → Json} {a? : Option α}
    (hfind : form.fields.find? (·.spellings.contains key) = some field) (hnew : field.name ∉ names)
    (hread : ∀ a, a? = some a → field.read (.ofJson (write a)) s = .ok s₁) (hopen : a? = none → s₁ = s)
    (hrest : form.Takes given (field.name :: names) s₁ members s') :
    form.Takes given names s (Json.member? key write a? ++ members) s' := by
  intro seen hgiven hnames
  cases a? with
  | none =>
    rw [hopen rfl] at hrest
    exact hrest seen hgiven (List.subset_cons_of_subset _ hnames)
  | some a =>
    refine Takes.member hfind hnew (hread a rfl) ?_ seen hgiven hnames
    intro seen₁ hgiven₁ hnames₁
    exact hrest seen₁ (fun name hname => hgiven₁ (List.mem_cons_of_mem _ hname)) hnames₁

/-- a number that is always there -/
theorem number {put : σ → Double → σ} (hfind : form.fields.find? (·.spellings.contains key) = some field)
    (hnew : field.name ∉ names) (hfield : ∀ e s, field.read e s = (Reader.double e).map (put s))
    (hx : x.isFinite = true)
    (hrest : form.Takes (field.name :: given) (field.name :: names) (put s x) members s') :
    form.Takes given names s ((key, .ofDouble x) :: members) s' := by
  refine member hfind hnew ?_ hrest
  rw [hfield, Reader.double_ofDouble hx]
  rfl

/-- a number that is `null` if it is open -/
theorem nullable {put : σ → Option Double → σ} (hfind : form.fields.find? (·.spellings.contains key) = some field)
    (hnew : field.name ∉ names) (hfield : ∀ e s, field.read e s = (Reader.nullable Reader.double e).map (put s))
    (hx : ∀ x, x? = some x → x.isFinite = true)
    (hrest : form.Takes (field.name :: given) (field.name :: names) (put s x?) members s') :
    form.Takes given names s ((key, .ofOption .ofDouble x?) :: members) s' := by
  refine member hfind hnew ?_ hrest
  rw [hfield, Reader.nullable_ofOption hx]
  rfl

/-- a number that is left out if it is open -/
theorem number? {put : σ → Option Double → σ} (hfind : form.fields.find? (·.spellings.contains key) = some field)
    (hnew : field.name ∉ names) (hfield : ∀ e s, field.read e s = (Reader.nullable Reader.double e).map (put s))
    (hx : ∀ x, x? = some x → x.isFinite = true) (hopen : put s none = s)
    (hrest : form.Takes given (field.name :: names) (put s x?) members s') :
    form.Takes given names s (Json.member? key .ofDouble x? ++ members) s' := by
  refine member? hfind hnew (fun x hsome => ?_) (fun hnone => ?_) hrest
  · rw [hfield, Reader.nullable_ofDouble (hx x hsome), hsome]
    rfl
  · rw [hnone, hopen]

end Takes

/-- **Records that are read back.** -/
theorem read_of_takes (h : form.Takes [] [] form.start members s) : form.read.ofTree (.obj members) = .ok s := by
  obtain ⟨seen, htake, hmissing⟩ := h [] (List.Subset.refl _) (List.Subset.refl _)
  have hread : form.ofMembers (Excerpt.ofMembers members) .whole = .ok s := by
    rw [ofMembers, htake]
    simp only [ok_bind, hmissing]
    rfl
  exact hread

/-! ## Invariants -/

variable {P : σ → Prop}

theorem invariant_of_takeMembers (hothers : ∀ put, form.others ≠ .keep put)
    (hfields : ∀ field ∈ form.fields, ∀ e s s', P s → field.read e s = .ok s' → P s')
    {members : List (String × Excerpt)} {seen seen' : List String} (hs : P s)
    (h : form.takeMembers members seen s = .ok (seen', s')) : P s' := by
  induction members generalizing seen s with
  | nil =>
    cases h
    exact hs
  | cons member rest ih =>
    obtain ⟨key, e⟩ := member
    rw [takeMembers] at h
    cases hfind : form.fields.find? (·.spellings.contains key) with
    | some field =>
      simp only [hfind] at h
      split at h
      · cases h
      · obtain ⟨after, hread, hrest⟩ := bind_eq_ok_iff.1 h
        exact ih (hfields field (List.mem_of_find?_eq_some hfind) e s after hs hread) hrest
    | none =>
      cases hother : form.others with
      | refuse =>
        simp only [hfind, hother] at h
        cases h
      | ignore =>
        simp only [hfind, hother] at h
        obtain ⟨-, -, hrest⟩ := bind_eq_ok_iff.1 h
        exact ih hs hrest
      | keep put => exact absurd hother (hothers put)

theorem invariant_of_takeItems (hfields : ∀ field ∈ form.fields, ∀ e s s', P s → field.read e s = .ok s' → P s')
    {ending : Ending} {fields : List (Field σ)} (hsubset : fields ⊆ form.fields) {index : Nat}
    {items left : List Excerpt} (hs : P s)
    (h : form.takeItems ending fields index items s = .ok (left, s')) : P s' := by
  induction fields generalizing index items s with
  | nil =>
    rw [takeItems] at h
    cases h
    exact hs
  | cons field fields ih =>
    have hlater : fields ⊆ form.fields := fun f hf => hsubset (List.mem_cons_of_mem field hf)
    cases items with
    | nil =>
      rw [takeItems] at h
      obtain ⟨-, -, h⟩ := bind_eq_ok_iff.1 h
      split at h
      · exact ih hlater hs h
      · cases h
    | cons e items =>
      rw [takeItems] at h
      obtain ⟨after, hread, hrest⟩ := bind_eq_ok_iff.1 h
      exact ih hlater (hfields field (hsubset List.mem_cons_self) e s after hs hread) hrest

/-- **What every field keeps.** It holds of the records that are read, as objects or as arrays. -/
theorem invariant_of_read (hstart : P form.start) (hothers : ∀ put, form.others ≠ .keep put)
    (hfields : ∀ field ∈ form.fields, ∀ e s s', P s → field.read e s = .ok s' → P s') (h : form.read e = .ok s) :
    P s := by
  cases e with
  | obj members ending =>
    obtain ⟨⟨seen, made⟩, htake, h⟩ := bind_eq_ok_iff.1 h
    obtain ⟨-, -, h⟩ := bind_eq_ok_iff.1 h
    split at h
    · cases h
    · cases h
      exact invariant_of_takeMembers hothers hfields hstart htake
  | arr items ending =>
    rw [read] at h
    split at h
    · rename_i put hkeep
      exact absurd hkeep (hothers put)
    · obtain ⟨⟨left, made⟩, htake, h⟩ := bind_eq_ok_iff.1 h
      obtain ⟨-, -, h⟩ := bind_eq_ok_iff.1 h
      cases h
      exact invariant_of_takeItems hfields (List.Subset.refl _) hstart htake
  | _ => cases h

end Form

end RackMap.Shape
