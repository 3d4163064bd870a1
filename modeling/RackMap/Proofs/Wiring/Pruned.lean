/-
A nested connectivity with some of its leaves only.

`pruneRoot` takes leaves out of a document, wherever they stand in it; the objects around them stay, though they may be
empty then. `leavesOfRoot_pruneRoot` says that the other leaves are left as they were, in their order.
-/
import Mathlib.Tactic
import RackMap.Proofs.Wiring.Walk

namespace RackMap.Wiring

mutual

/-- a value without its unwanted leaves; of a leaf that is not wanted nothing is left -/
def prune? (wanted : ChannelPath → Bool) (path : String) : Json → Option Json
  | .obj members =>
    if members.any (·.1 = leafKey) then (if wanted ⟨path⟩ then some (.obj members) else none)
    else some (.obj (pruneMembers wanted path members))
  | json => if wanted ⟨path⟩ then some json else none

def pruneMembers (wanted : ChannelPath → Bool) (path : String) : List (String × Json) → List (String × Json)
  | [] => []
  | (key, child) :: rest =>
    match prune? wanted (path ++ "." ++ key) child with
    | some left => (key, left) :: pruneMembers wanted path rest
    | none => pruneMembers wanted path rest

end

/-- a document without its unwanted leaves -/
def pruneRoot (wanted : ChannelPath → Bool) (root : Table String Json) : Table String Json :=
  List.filterMap (fun p => (prune? wanted p.1 p.2).map fun left => (p.1, left)) root

variable {wanted : ChannelPath → Bool} {members : List (String × Json)} {key : String}

/-- pruning brings up no keys -/
theorem mem_keys_of_pruneMembers {path : String} (h : key ∈ Table.keys (pruneMembers wanted path members)) :
    key ∈ Table.keys members := by
  induction members with
  | nil => exact h
  | cons member rest ih =>
    rw [pruneMembers] at h
    split at h
    · rcases List.mem_cons.1 h with rfl | h
      · exact List.mem_cons_self
      · exact List.mem_cons_of_mem _ (ih h)
    · exact List.mem_cons_of_mem _ (ih h)

/-- an object above leaves does not become a leaf -/
theorem any_leafKey_pruneMembers (path : String) (h : ¬members.any (·.1 = leafKey) = true) :
    ¬(pruneMembers wanted path members).any (·.1 = leafKey) = true := by
  have hkey : ∀ members : List (String × Json), members.any (·.1 = leafKey) = true ↔ leafKey ∈ Table.keys members := by
    intro members
    simp [Table.keys]
  rw [hkey] at h ⊢
  exact fun hin => h (mem_keys_of_pruneMembers hin)

mutual

/-- what is left of a value has the wanted leaves of it -/
theorem leaves_prune? : (json : Json) → ∀ path : String,
    ((prune? wanted path json).elim [] fun left => leaves path left) =
      (leaves path json).filter fun leaf => wanted leaf.path
  | .obj members, path => by
    rw [prune?, leaves]
    split
    · rename_i hleaf
      by_cases hwanted : wanted ⟨path⟩
      · simp [hwanted, leaves, hleaf]
      · simp [hwanted]
    · rename_i hinner
      rw [Option.elim_some, leaves, if_neg (any_leafKey_pruneMembers path hinner)]
      exact leavesOfMembers_pruneMembers members path
  | .null, path | .bool _, path | .int _, path | .float _, path | .str _, path | .arr _, path => by
    by_cases hwanted : wanted ⟨path⟩ <;> simp [prune?, leaves, hwanted]

theorem leavesOfMembers_pruneMembers : (members : List (String × Json)) → ∀ path : String,
    leavesOfMembers path (pruneMembers wanted path members) =
      (leavesOfMembers path members).filter fun leaf => wanted leaf.path
  | [], _ => rfl
  | (key, child) :: rest, path => by
    have hchild := leaves_prune? child (path ++ "." ++ key)
    have hrest := leavesOfMembers_pruneMembers rest path
    rw [pruneMembers, leavesOfMembers, List.filter_append, ← hchild, ← hrest]
    cases prune? wanted (path ++ "." ++ key) child with
    | some left => rfl
    | none => rfl

end

/-- **The leaves that are left.** They are the wanted ones, in their order. -/
theorem leavesOfRoot_pruneRoot (wanted : ChannelPath → Bool) (root : Table String Json) :
    leavesOfRoot (pruneRoot wanted root) = (leavesOfRoot root).filter fun leaf => wanted leaf.path := by
  unfold leavesOfRoot
  rw [pruneRoot, List.filter_flatMap, List.filterMap_eq_flatMap_toList, List.flatMap_assoc]
  refine List.flatMap_congr fun p _ => ?_
  rw [← leaves_prune? p.2 p.1]
  cases prune? wanted p.1 p.2 with
  | some left => simp
  | none => rfl

end RackMap.Wiring
