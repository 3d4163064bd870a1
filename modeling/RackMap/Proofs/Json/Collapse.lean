/-
What is left of a tree that is read as maps.

Of the members with one key the last one counts, so reading keeps the last members (`ofPairs_collapseMembers_perm`), and
a tree in which no object repeats a key stays as it is (`collapse_eq_self`). What is left is such a tree
(`isUnrepeated_collapse`).
-/
import Mathlib.Tactic
import RackMap.Json.Value
import RackMap.Proofs.Table

namespace RackMap.Json

theorem collapseMembers_eq_map (members : List (String × Json)) :
    collapseMembers members = members.map fun p => (p.1, p.2.collapse) := by
  induction members with
  | nil => rfl
  | cons member rest ih => rw [collapseMembers, ih, List.map_cons]

theorem keys_collapseMembers (members : List (String × Json)) :
    Table.keys (collapseMembers members) = Table.keys members := by
  rw [collapseMembers_eq_map, Table.keys, Table.keys, List.map_map]
  rfl

theorem latest_collapseMembers (members : List (String × Json)) :
    Table.latest (collapseMembers members) = collapseMembers (Table.latest members) := by
  induction members with
  | nil => rfl
  | cons member rest ih =>
    rw [collapseMembers, Table.latest, Table.latest, keys_collapseMembers]
    split
    · exact ih
    · rw [collapseMembers, ih]

/-- an object read as a map has the last member with each key, its value read in the same way -/
theorem ofPairs_collapseMembers_perm (members : List (String × Json)) :
    (Table.ofPairs (collapseMembers members)).Perm ((Table.latest members).map fun p => (p.1, p.2.collapse)) := by
  rw [← collapseMembers_eq_map, ← latest_collapseMembers]
  exact Table.ofPairs_perm (collapseMembers members)

/-! ## Trees without repeated keys -/

mutual

/-- whether no object in the tree repeats a key -/
def isUnrepeated : Json → Bool
  | arr items => areUnrepeated items
  | obj members => decide (Table.keys members).Nodup && membersUnrepeated members
  | _ => true

def areUnrepeated : List Json → Bool
  | [] => true
  | item :: rest => isUnrepeated item && areUnrepeated rest

def membersUnrepeated : List (String × Json) → Bool
  | [] => true
  | (_, value) :: rest => isUnrepeated value && membersUnrepeated rest

end

theorem isUnrepeated_of_mem {members : List (String × Json)} (h : membersUnrepeated members = true) :
    ∀ p ∈ members, p.2.isUnrepeated = true := by
  induction members with
  | nil => simp
  | cons member rest ih =>
    rw [membersUnrepeated, Bool.and_eq_true] at h
    intro p hp
    rcases List.mem_cons.1 hp with rfl | hp
    · exact h.1
    · exact ih h.2 p hp

mutual

/-- a tree in which no object repeats a key is read as it is written -/
theorem collapse_eq_self : (json : Json) → json.isUnrepeated = true → json.collapse = json
  | null, _ | bool _, _ | int _, _ | float _, _ | str _, _ => rfl
  | arr items, h => by
    rw [isUnrepeated] at h
    rw [collapse, collapseItems_eq_self items h]
  | obj members, h => by
    rw [isUnrepeated, Bool.and_eq_true, decide_eq_true_eq] at h
    rw [collapse, collapseMembers_eq_self members h.2, Table.ofPairs_eq_self h.1]

theorem collapseItems_eq_self : (items : List Json) → areUnrepeated items = true → collapseItems items = items
  | [], _ => rfl
  | item :: rest, h => by
    rw [areUnrepeated, Bool.and_eq_true] at h
    rw [collapseItems, collapse_eq_self item h.1, collapseItems_eq_self rest h.2]

theorem collapseMembers_eq_self :
    (members : List (String × Json)) → membersUnrepeated members = true → collapseMembers members = members
  | [], _ => rfl
  | (key, value) :: rest, h => by
    rw [membersUnrepeated, Bool.and_eq_true] at h
    rw [collapseMembers, collapse_eq_self value h.1, collapseMembers_eq_self rest h.2]

end

/-! ## What is left -/

theorem membersUnrepeated_of_forall {members : List (String × Json)} (h : ∀ p ∈ members, p.2.isUnrepeated = true) :
    membersUnrepeated members = true := by
  induction members with
  | nil => rfl
  | cons member rest ih =>
    rw [membersUnrepeated, Bool.and_eq_true]
    exact ⟨h member List.mem_cons_self, ih fun p hp => h p (List.mem_cons_of_mem member hp)⟩

/-- members entered as a map repeat no key, if their values do not -/
theorem isUnrepeated_ofPairs {members : List (String × Json)} (h : ∀ p ∈ members, p.2.isUnrepeated = true) :
    (obj (Table.ofPairs members)).isUnrepeated = true := by
  have hnil : (Table.keys ([] : Table String Json)).Nodup := List.nodup_nil
  rw [isUnrepeated, Bool.and_eq_true, decide_eq_true_eq]
  refine ⟨Table.nodup_keys_foldl_put hnil, membersUnrepeated_of_forall fun p hp => h p ?_⟩
  exact (Table.latest_sublist members).subset ((Table.ofPairs_perm members).mem_iff.1 hp)

mutual

/-- **A tree read as maps** repeats no key. -/
theorem isUnrepeated_collapse : (json : Json) → json.collapse.isUnrepeated = true
  | null | bool _ | int _ | float _ | str _ => rfl
  | arr items => by
    rw [collapse, isUnrepeated]
    exact areUnrepeated_collapseItems items
  | obj members => isUnrepeated_ofPairs (forall_collapseMembers members)

theorem areUnrepeated_collapseItems : (items : List Json) → areUnrepeated (collapseItems items) = true
  | [] => rfl
  | item :: rest => by
    rw [collapseItems, areUnrepeated, Bool.and_eq_true]
    exact ⟨isUnrepeated_collapse item, areUnrepeated_collapseItems rest⟩

theorem forall_collapseMembers : (members : List (String × Json)) →
    ∀ p ∈ collapseMembers members, p.2.isUnrepeated = true
  | [] => List.forall_mem_nil _
  | (_, value) :: rest => List.forall_mem_cons.2 ⟨isUnrepeated_collapse value, forall_collapseMembers rest⟩

end

end RackMap.Json
