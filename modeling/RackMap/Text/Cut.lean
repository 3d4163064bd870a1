/-
Cutting a text at a separator: at its first occurrence, at its last one, at all of them.
-/
namespace RackMap.Text

/-- what stands before and after the first `sep`, if there is one -/
def cutFirst (sep : Char) : List Char → Option (List Char × List Char)
  | [] => none
  | c :: rest => if c = sep then some ([], rest) else (cutFirst sep rest).map fun p => (c :: p.1, p.2)

/-- what stands before and after the last `sep`, if there is one -/
def cutLast (sep : Char) : List Char → Option (List Char × List Char)
  | [] => none
  | c :: rest =>
    match cutLast sep rest with
    | some p => some (c :: p.1, p.2)
    | none => if c = sep then some ([], rest) else none

/-- the pieces between the separators; a text with n separators has n + 1 pieces -/
def pieces (sep : Char) : List Char → List (List Char)
  | [] => [[]]
  | c :: rest =>
    if c = sep then [] :: pieces sep rest
    else
      match pieces sep rest with
      | [] => [[c]]
      | piece :: more => (c :: piece) :: more

/-- the text before and after the first `sep` -/
def cutFirst? (sep : Char) (s : String) : Option (String × String) :=
  (cutFirst sep s.toList).map fun p => (String.ofList p.1, String.ofList p.2)

/-- the text before and after the last `sep` -/
def cutLast? (sep : Char) (s : String) : Option (String × String) :=
  (cutLast sep s.toList).map fun p => (String.ofList p.1, String.ofList p.2)

/-- the pieces of `s` between the separators, at least one -/
def split (sep : Char) (s : String) : List String := (pieces sep s.toList).map String.ofList

/-- the texts one after the other with `sep` between them -/
def join (sep : String) : List String → String
  | [] => ""
  | [s] => s
  | s :: t :: rest => s ++ sep ++ join sep (t :: rest)

/-- `s` without `start`, if it starts so -/
def dropStart? (start s : String) : Option String :=
  if start.toList.isPrefixOf s.toList then some (String.ofList (s.toList.drop start.toList.length)) else none

/-- whether `part` stands at some place of `cs` -/
def occurs (part : List Char) : List Char → Bool
  | [] => part.isEmpty
  | c :: cs => part.isPrefixOf (c :: cs) || occurs part cs

/-- whether `part` stands at some place of `s` -/
def occursIn (part s : String) : Bool := occurs part.toList s.toList

/-- a non-empty run of the digits 0 to 9 -/
def isDigits (s : String) : Bool := !s.toList.isEmpty && s.toList.all Char.isDigit

theorem cutFirst_eq_some_iff {sep : Char} {cs a b : List Char} :
    cutFirst sep cs = some (a, b) ↔ sep ∉ a ∧ cs = a ++ sep :: b := by
  induction cs generalizing a with
  | nil => simp [cutFirst]
  | cons c rest ih =>
    by_cases h : c = sep
    · subst h
      cases a with
      | nil => simp [cutFirst, eq_comm]
      | cons x a => simp only [cutFirst, ↓reduceIte, Option.some.injEq, Prod.mk.injEq]; grind
    · cases a with
      | nil => simp [cutFirst, h]
      | cons x a =>
        simp only [cutFirst, h, ↓reduceIte, Option.map_eq_some_iff, Prod.mk.injEq, Prod.exists]
        grind

theorem cutFirst_eq_none_iff {sep : Char} {cs : List Char} : cutFirst sep cs = none ↔ sep ∉ cs := by
  induction cs with
  | nil => simp [cutFirst]
  | cons c rest ih =>
    by_cases h : c = sep
    · simp [cutFirst, h]
    · simp [cutFirst, h, ih, Ne.symm h]

theorem cutLast_eq_none_iff {sep : Char} {cs : List Char} : cutLast sep cs = none ↔ sep ∉ cs := by
  induction cs with
  | nil => simp [cutLast]
  | cons c rest ih =>
    rw [cutLast]
    cases hr : cutLast sep rest with
    | some p =>
      have hin : sep ∈ rest := by
        apply Classical.byContradiction
        intro hout
        rw [ih.2 hout] at hr
        cases hr
      simp [hin]
    | none =>
      have hout := ih.1 hr
      by_cases h : c = sep
      · simp [h]
      · simp [h, hout, Ne.symm h]

theorem cutLast_append {sep : Char} (a : List Char) {b : List Char} (hb : sep ∉ b) :
    cutLast sep (a ++ sep :: b) = some (a, b) := by
  induction a with
  | nil => simp [cutLast, cutLast_eq_none_iff.2 hb]
  | cons x a ih => simp [cutLast, ih]

theorem cutLast_eq_some_iff {sep : Char} {cs a b : List Char} :
    cutLast sep cs = some (a, b) ↔ sep ∉ b ∧ cs = a ++ sep :: b := by
  refine ⟨fun h => ?_, fun h => h.2 ▸ cutLast_append a h.1⟩
  induction cs generalizing a with
  | nil => cases h
  | cons c rest ih =>
    rw [cutLast] at h
    cases hr : cutLast sep rest with
    | some p =>
      rw [hr] at h
      cases h
      obtain ⟨hb, hrest⟩ := ih hr
      exact ⟨hb, by rw [hrest, List.cons_append]⟩
    | none =>
      rw [hr] at h
      by_cases hc : c = sep
      · simp only [hc, ↓reduceIte, Option.some.injEq, Prod.mk.injEq] at h
        obtain ⟨rfl, rfl⟩ := h
        exact ⟨cutLast_eq_none_iff.1 hr, by rw [hc, List.nil_append]⟩
      · simp [hc] at h

/-- what stands before and after the last separator is told by the text -/
theorem append_cons_inj {sep : Char} {a b a' b' : List Char} (hb : sep ∉ b) (hb' : sep ∉ b')
    (h : a ++ sep :: b = a' ++ sep :: b') : a = a' ∧ b = b' := by
  have hcut := cutLast_append a hb
  rw [h, cutLast_append a' hb'] at hcut
  simpa [eq_comm] using hcut

theorem dropStart?_eq_some_iff {start s rest : String} : dropStart? start s = some rest ↔ s = start ++ rest := by
  rw [dropStart?]
  constructor
  · intro h
    split at h
    · rename_i hp
      obtain ⟨cs, hcs⟩ := List.isPrefixOf_iff_prefix.1 hp
      cases h
      rw [← String.toList_inj, String.toList_append, ← hcs]
      simp
    · cases h
  · rintro rfl
    simp

theorem isDigits_iff {s : String} : isDigits s = true ↔ s.toList ≠ [] ∧ ∀ c ∈ s.toList, c.isDigit = true := by
  simp [isDigits]

end RackMap.Text
