/-
What a record that is read says of the members it is read from.

- `exists_field_of_takeMembers`: where other keys are refused, every member is a field whose value could be read;
- `Owns` is the case of a field that alone decides a part of the record. `part_of_takeMembers` says that this part comes
  from the first member with a key of the field, and that there is no second one.
-/
import Mathlib.Tactic
import RackMap.Proofs.Outcome
import RackMap.Shape.Form

namespace RackMap.Shape

open RackMap.Json (Excerpt Ending)

variable {σ β : Type} {form : Form σ} {field : Field σ} {part : σ → β} {members : List (String × Excerpt)}
  {items : List Excerpt} {ending : Ending} {seen seen' : List String} {s s' : σ} {e : Excerpt} {key : String}

namespace Form

/-- where other keys are refused, every member is a field that could be read -/
theorem exists_field_of_takeMembers (hrefuse : form.others = .refuse)
    (h : form.takeMembers members seen s = .ok (seen', s')) (hmember : (key, e) ∈ members) :
    ∃ field ∈ form.fields, key ∈ field.spellings ∧ ∃ before after, field.read e before = .ok after := by
  induction members generalizing seen s with
  | nil => cases hmember
  | cons member rest ih =>
    obtain ⟨other, value⟩ := member
    rw [takeMembers] at h
    cases hfind : form.fields.find? (·.spellings.contains other) with
    | none =>
      simp only [hfind, hrefuse] at h
      cases h
    | some field =>
      simp only [hfind] at h
      split at h
      · cases h
      · obtain ⟨after, hread, hrest⟩ := bind_eq_ok_iff.1 h
        rcases List.mem_cons.1 hmember with heq | hlater
        · cases heq
          have hspelled : key ∈ field.spellings := by simpa using List.find?_some hfind
          exact ⟨field, List.mem_of_find?_eq_some hfind, hspelled, s, after, hread⟩
        · exact ih hrest hlater

/-- a field that alone decides a part of the record; members that are no fields are not kept in it -/
structure Owns (form : Form σ) (field : Field σ) (part : σ → β) : Prop where
  unkept : ∀ put, form.others ≠ .keep put
  /-- its keys are those of no other field -/
  found : ∀ key ∈ field.spellings, form.fields.find? (·.spellings.contains key) = some field
  /-- every other field has another name and leaves the part as it is -/
  kept : ∀ other ∈ form.fields, other ≠ field →
    other.name ≠ field.name ∧ ∀ e s s', other.read e s = .ok s' → part s' = part s

/-- a member that is none of the field leaves the part as it is, whether it is another field or none -/
theorem takeMembers_of_other (own : form.Owns field part) (hkey : key ∉ field.spellings)
    (h : form.takeMembers ((key, e) :: members) seen s = .ok (seen', s')) :
    ∃ seen₁ s₁, form.takeMembers members seen₁ s₁ = .ok (seen', s') ∧ part s₁ = part s ∧
      (field.name ∈ seen₁ ↔ field.name ∈ seen) := by
  rw [takeMembers] at h
  cases hfind : form.fields.find? (·.spellings.contains key) with
  | none =>
    cases hothers : form.others with
    | refuse =>
      simp only [hfind, hothers] at h
      cases h
    | ignore =>
      simp only [hfind, hothers] at h
      obtain ⟨-, -, hrest⟩ := bind_eq_ok_iff.1 h
      exact ⟨seen, s, hrest, rfl, Iff.rfl⟩
    | keep put => exact absurd hothers (own.unkept put)
  | some other =>
    simp only [hfind] at h
    split at h
    · cases h
    · obtain ⟨after, hread, hrest⟩ := bind_eq_ok_iff.1 h
      have hne : other ≠ field := by
        rintro rfl
        exact hkey (by simpa using List.find?_some hfind)
      obtain ⟨hname, hkept⟩ := own.kept other (List.mem_of_find?_eq_some hfind) hne
      exact ⟨other.name :: seen, after, hrest, hkept e s after hread, by simp [Ne.symm hname]⟩

/-- **The members of a record decide its parts.** A part that one field owns comes from the only member with a key of
that field; without such a member it stays as it was. -/
theorem part_of_takeMembers (own : form.Owns field part) (h : form.takeMembers members seen s = .ok (seen', s')) :
    (field.name ∈ seen → ∀ p ∈ members, p.1 ∉ field.spellings) ∧
      match members.find? (·.1 ∈ field.spellings) with
      | some p => ∃ before after, field.read p.2 before = .ok after ∧ part s' = part after
      | none => part s' = part s ∧ (field.name ∈ seen' ↔ field.name ∈ seen) := by
  induction members generalizing seen s with
  | nil =>
    cases h
    exact ⟨by simp, rfl, Iff.rfl⟩
  | cons member rest ih =>
    obtain ⟨key, value⟩ := member
    by_cases hkey : key ∈ field.spellings
    · rw [takeMembers] at h
      simp only [own.found key hkey] at h
      split at h
      · cases h
      · rename_i hnew
        obtain ⟨after, hread, hrest⟩ := bind_eq_ok_iff.1 h
        obtain ⟨hlater, hpart⟩ := ih hrest
        have hnone : rest.find? (·.1 ∈ field.spellings) = none := by
          simpa using fun p hp => hlater List.mem_cons_self p hp
        rw [hnone] at hpart
        rw [List.find?_cons_of_pos (by simpa using hkey)]
        exact ⟨fun hin => absurd (by simpa using hin) hnew, s, after, hread, hpart.1⟩
    · obtain ⟨seen₁, s₁, hrest, hpart₁, hseen₁⟩ := takeMembers_of_other own hkey h
      obtain ⟨hlater, hpart⟩ := ih hrest
      rw [hseen₁] at hlater
      rw [hseen₁, hpart₁] at hpart
      rw [List.find?_cons_of_neg (by simpa using hkey)]
      refine ⟨fun hin p hp => ?_, hpart⟩
      rcases List.mem_cons.1 hp with rfl | hp
      · exact hkey
      · exact hlater hin p hp

/-- the part that a field owns, of a record that is written as an object -/
theorem part_of_ofMembers (own : form.Owns field part) (hfield : field ∈ form.fields) (hneeded : field.mayLack = false)
    (h : form.ofMembers members ending = .ok s) :
    ∃ p, members.find? (·.1 ∈ field.spellings) = some p ∧
      ∃ before after, field.read p.2 before = .ok after ∧ part s = part after := by
  unfold ofMembers at h
  obtain ⟨⟨seen, s₁⟩, htake, h⟩ := bind_eq_ok_iff.1 h
  obtain ⟨-, -, h⟩ := bind_eq_ok_iff.1 h
  cases hmissing : form.missing? seen with
  | some missing =>
    simp only [hmissing] at h
    cases h
  | none =>
    simp only [hmissing] at h
    cases h
    obtain ⟨-, hpart⟩ := part_of_takeMembers own htake
    cases hfind : members.find? (·.1 ∈ field.spellings) with
    | some p =>
      rw [hfind] at hpart
      exact ⟨p, rfl, hpart⟩
    | none =>
      rw [hfind] at hpart
      have hgiven := List.find?_eq_none.1 hmissing field hfield
      simp [hneeded, hpart.2] at hgiven

end Form

end RackMap.Shape
