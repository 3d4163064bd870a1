/-
The leaves that a document writes, and those that are read from it.

A member whose key comes up again behind it in the same object is overwritten: its leaves are written, but not kept.
- `leaves_collapse`: the leaves that are read are the kept ones, up to their order;
- `keptOfRoot_sublist`: the kept ones are among those that are written, and `keptOfRoot_eq_leavesOfRoot` that they are
  all of them where no object repeats a key.
-/
import Mathlib.Tactic
import RackMap.Proofs.Json.Collapse
import RackMap.Proofs.Wiring.Leaves

namespace RackMap.Wiring

variable {members : List (String × Json)} {path : String}

/-- a leaf as it is read, with its objects taken for maps -/
def Leaf.collapse (leaf : Leaf) : Leaf := ⟨leaf.path, leaf.value.collapse⟩

mutual

/-- the leaves below a path that no later member overwrites -/
def keptLeaves (path : String) : Json → List Leaf
  | .obj members => if members.any (·.1 = leafKey) then [⟨⟨path⟩, .obj members⟩] else keptOfMembers path members
  | json => [⟨⟨path⟩, json⟩]

def keptOfMembers (path : String) : List (String × Json) → List Leaf
  | [] => []
  | (key, child) :: rest =>
    if key ∈ Table.keys rest then keptOfMembers path rest
    else keptLeaves (path ++ "." ++ key) child ++ keptOfMembers path rest

end

/-- the leaves of a whole document that no later member overwrites -/
def keptOfRoot (members : List (String × Json)) : List Leaf :=
  (Table.latest members).flatMap fun p => keptLeaves p.1 p.2

/-! ## Members as lists -/

theorem leavesOfMembers_eq_flatMap (path : String) (members : List (String × Json)) :
    leavesOfMembers path members = members.flatMap fun p => leaves (path ++ "." ++ p.1) p.2 := by
  induction members with
  | nil => rfl
  | cons member rest ih => rw [leavesOfMembers, ih, List.flatMap_cons]

theorem keptOfMembers_eq_flatMap (path : String) (members : List (String × Json)) :
    keptOfMembers path members = (Table.latest members).flatMap fun p => keptLeaves (path ++ "." ++ p.1) p.2 := by
  induction members with
  | nil => rfl
  | cons member rest ih =>
    rw [keptOfMembers, Table.latest, ih]
    split
    · rfl
    · rw [List.flatMap_cons]

theorem any_leafKey_iff : members.any (·.1 = leafKey) = true ↔ leafKey ∈ Table.keys members := by
  simp [Table.keys]

/-- reading members as a map changes no key -/
theorem any_leafKey_ofPairs (members : List (String × Json)) :
    (Table.ofPairs (Json.collapseMembers members)).any (·.1 = leafKey) = members.any (·.1 = leafKey) := by
  have hkeys := (Table.ofPairs_perm (Json.collapseMembers members)).map Prod.fst
  rw [Bool.eq_iff_iff, any_leafKey_iff, any_leafKey_iff, Table.keys, hkeys.mem_iff]
  exact Table.mem_keys_latest.trans (by rw [Json.keys_collapseMembers])

/-! ## Reading keeps the last members -/

/-- if the values of members have the leaves that are kept of them, so have the members read as a map -/
theorem flatMap_ofPairs_perm (place : String → String)
    (h : ∀ p ∈ members, ∀ path, (leaves path p.2.collapse).Perm ((keptLeaves path p.2).map Leaf.collapse)) :
    (List.flatMap (fun p => leaves (place p.1) p.2) (Table.ofPairs (Json.collapseMembers members))).Perm
      (((Table.latest members).flatMap fun p => keptLeaves (place p.1) p.2).map Leaf.collapse) := by
  refine ((Json.ofPairs_collapseMembers_perm members).flatMap_right _).trans ?_
  rw [List.flatMap_map, List.map_flatMap]
  refine List.Perm.flatMap_left _ fun p hp => ?_
  exact h p ((Table.latest_sublist members).subset hp) (place p.1)

mutual

/-- **The leaves that are read.** Below a value read as maps stand the leaves that are kept. -/
theorem leaves_collapse :
    (json : Json) → ∀ path, (leaves path json.collapse).Perm ((keptLeaves path json).map Leaf.collapse)
  | .null, _ | .bool _, _ | .int _, _ | .float _, _ | .str _, _ | .arr _, _ => List.Perm.refl _
  | .obj members, path => by
    rw [Json.collapse, leaves, keptLeaves, any_leafKey_ofPairs]
    split
    · rw [List.map_singleton, Leaf.collapse, Json.collapse]
    · rw [leavesOfMembers_eq_flatMap, keptOfMembers_eq_flatMap]
      exact flatMap_ofPairs_perm (fun key => path ++ "." ++ key) (leaves_collapse_of_mem members)

theorem leaves_collapse_of_mem : (members : List (String × Json)) → ∀ p ∈ members, ∀ path,
    (leaves path p.2.collapse).Perm ((keptLeaves path p.2).map Leaf.collapse)
  | [], p, hp, _ => absurd hp List.not_mem_nil
  | (key, value) :: rest, p, hp, path => by
    rcases List.mem_cons.1 hp with rfl | hp
    · exact leaves_collapse value path
    · exact leaves_collapse_of_mem rest p hp path

end

theorem leavesOfRoot_perm (members : List (String × Json)) :
    (leavesOfRoot (Table.ofPairs (Json.collapseMembers members))).Perm ((keptOfRoot members).map Leaf.collapse) :=
  flatMap_ofPairs_perm id (leaves_collapse_of_mem members)

/-! ## Written leaves -/

mutual

/-- what is kept is written -/
theorem keptLeaves_sublist : (json : Json) → ∀ path, (keptLeaves path json).Sublist (leaves path json)
  | .null, _ | .bool _, _ | .int _, _ | .float _, _ | .str _, _ | .arr _, _ => List.Sublist.refl _
  | .obj members, path => by
    rw [leaves, keptLeaves]
    split
    · exact List.Sublist.refl _
    · exact keptOfMembers_sublist members path

theorem keptOfMembers_sublist :
    (members : List (String × Json)) → ∀ path, (keptOfMembers path members).Sublist (leavesOfMembers path members)
  | [], _ => List.Sublist.refl _
  | (key, child) :: rest, path => by
    rw [leavesOfMembers, keptOfMembers]
    split
    · exact (keptOfMembers_sublist rest path).trans (List.sublist_append_right _ _)
    · exact (keptLeaves_sublist child _).append (keptOfMembers_sublist rest path)

end

theorem keptOfRoot_sublist (members : List (String × Json)) : (keptOfRoot members).Sublist (leavesOfRoot members) := by
  induction members with
  | nil => exact List.Sublist.refl _
  | cons member rest ih =>
    rw [keptOfRoot, Table.latest, leavesOfRoot, List.flatMap_cons]
    split
    · exact ih.trans (List.sublist_append_right _ _)
    · rw [List.flatMap_cons]
      exact (keptLeaves_sublist member.2 member.1).append ih

mutual

/-- where no object repeats a key, no leaf is overwritten -/
theorem keptLeaves_eq_leaves :
    (json : Json) → json.isUnrepeated = true → ∀ path, keptLeaves path json = leaves path json
  | .null, _, _ | .bool _, _, _ | .int _, _, _ | .float _, _, _ | .str _, _, _ | .arr _, _, _ => rfl
  | .obj members, h, path => by
    rw [Json.isUnrepeated, Bool.and_eq_true, decide_eq_true_eq] at h
    rw [leaves, keptLeaves, keptOfMembers_eq_leavesOfMembers members h.1 h.2 path]

theorem keptOfMembers_eq_leavesOfMembers : (members : List (String × Json)) → (Table.keys members).Nodup →
    Json.membersUnrepeated members = true → ∀ path, keptOfMembers path members = leavesOfMembers path members
  | [], _, _, _ => rfl
  | (key, child) :: rest, hkeys, h, path => by
    obtain ⟨hkey, hrest⟩ : key ∉ Table.keys rest ∧ (Table.keys rest).Nodup := List.nodup_cons.1 hkeys
    rw [Json.membersUnrepeated, Bool.and_eq_true] at h
    rw [keptOfMembers, leavesOfMembers, if_neg hkey, keptLeaves_eq_leaves child h.1,
      keptOfMembers_eq_leavesOfMembers rest hrest h.2]

end

theorem keptOfRoot_eq_leavesOfRoot (h : (Json.obj members).isUnrepeated = true) :
    keptOfRoot members = leavesOfRoot members := by
  rw [Json.isUnrepeated, Bool.and_eq_true, decide_eq_true_eq] at h
  rw [keptOfRoot, leavesOfRoot, Table.latest_eq_self h.1]
  refine List.flatMap_congr fun p hp => ?_
  exact keptLeaves_eq_leaves p.2 (Json.isUnrepeated_of_mem h.2 p hp) p.1

mutual

/-- the leaves of a tree without repeated keys have none in them -/
theorem isUnrepeated_of_mem_leaves : (json : Json) → json.isUnrepeated = true → ∀ path, ∀ leaf ∈ leaves path json,
    leaf.value.isUnrepeated = true
  | .null, h, _, leaf, hleaf | .bool _, h, _, leaf, hleaf | .int _, h, _, leaf, hleaf | .float _, h, _, leaf, hleaf
  | .str _, h, _, leaf, hleaf | .arr _, h, _, leaf, hleaf => by
    obtain rfl := List.mem_singleton.1 hleaf
    exact h
  | .obj members, h, path, leaf, hleaf => by
    rw [leaves] at hleaf
    split at hleaf
    · obtain rfl := List.mem_singleton.1 hleaf
      exact h
    · rw [Json.isUnrepeated, Bool.and_eq_true] at h
      exact isUnrepeated_of_mem_leavesOfMembers members h.2 path leaf hleaf

theorem isUnrepeated_of_mem_leavesOfMembers : (members : List (String × Json)) →
    Json.membersUnrepeated members = true → ∀ path, ∀ leaf ∈ leavesOfMembers path members,
      leaf.value.isUnrepeated = true
  | [], _, _, _, hleaf => absurd hleaf List.not_mem_nil
  | (key, child) :: rest, h, path, leaf, hleaf => by
    rw [Json.membersUnrepeated, Bool.and_eq_true] at h
    rcases List.mem_append.1 hleaf with hleaf | hleaf
    · exact isUnrepeated_of_mem_leaves child h.1 _ leaf hleaf
    · exact isUnrepeated_of_mem_leavesOfMembers rest h.2 path leaf hleaf

end

/-- the leaves of a document without repeated keys are read as they are written -/
theorem collapse_of_mem_leavesOfRoot (h : (Json.obj members).isUnrepeated = true) {leaf : Leaf}
    (hleaf : leaf ∈ leavesOfRoot members) : leaf.collapse = leaf := by
  rw [Json.isUnrepeated, Bool.and_eq_true] at h
  obtain ⟨p, hp, hleaf⟩ := List.mem_flatMap.1 hleaf
  have hvalue := isUnrepeated_of_mem_leaves p.2 (Json.isUnrepeated_of_mem h.2 p hp) p.1 leaf hleaf
  rw [Leaf.collapse, Json.collapse_eq_self _ hvalue]

end RackMap.Wiring
