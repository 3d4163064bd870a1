/-
The leaves of a nested connectivity, told by the keys that lead to them.

`Below` goes down a document object by object. In a document that is read without a problem the leaves are all the
objects that hold `portclock_configs` (`mem_leaves_of_below`): a leaf that is read holds no further objects
(`ChannelWiring.notMem_of_ofJson`), so none is hidden inside another one.
-/
import Mathlib.Tactic
import RackMap.Proofs.Shape.Form
import RackMap.Proofs.Wiring.Document

namespace RackMap

open RackMap.Json (Excerpt)
open RackMap.Shape

/-! ## Reading a leaf -/

theorem Json.Excerpt.mem_ofMembers {members : List (String × Json)} {p : String × Json} (h : p ∈ members) :
    (p.1, ofJson p.2) ∈ ofMembers members := by
  induction members with
  | nil => cases h
  | cons member rest ih =>
    rw [ofMembers]
    rcases List.mem_cons.1 h with rfl | h
    · exact List.mem_cons_self
    · exact List.mem_cons_of_mem _ (ih h)

/-- the members of a leaf are a list and a text, so no object stands right below a leaf -/
theorem ChannelWiring.notMem_of_ofJson {members inner : List (String × Json)} {key : String} {wiring : ChannelWiring}
    (h : ofJson (.obj members) = .ok wiring) : (key, Json.obj inner) ∉ members := by
  intro hmember
  have hread : form.ofMembers (Excerpt.ofMembers members) .whole = .ok wiring := h
  obtain ⟨⟨seen, s⟩, htake, -⟩ := bind_eq_ok_iff.1 hread
  obtain ⟨field, hfield, -, before, after, hvalue⟩ :=
    Form.exists_field_of_takeMembers rfl htake (Excerpt.mem_ofMembers hmember)
  simp only [form, List.mem_cons, List.not_mem_nil, or_false] at hfield
  rcases hfield with rfl | rfl <;> cases hvalue

namespace Wiring

variable {root : Table String Json} {members : List (String × Json)} {path start key : String} {json : Json}
  {leaf : Leaf} {wiring : ChannelWiring}

/-! ## Going down a document -/

/-- the values that keys lead to from a value at `start`, with their paths: there are dots between the keys -/
inductive Below : String → Json → String → Json → Prop
  | here (path : String) (json : Json) : Below path json path json
  | down {start key path : String} {members : List (String × Json)} {child json : Json} :
      (key, child) ∈ members → Below (start ++ "." ++ key) child path json → Below start (.obj members) path json

/-- the values of a document with their paths -/
def Reached (root : Table String Json) (path : String) (json : Json) : Prop := ∃ p ∈ root, Below p.1 p.2 path json

theorem Below.exists_obj (h : Below start json path (.obj members)) : ∃ inner, json = .obj inner := by
  cases h with
  | here => exact ⟨members, rfl⟩
  | @down _ _ _ inner => exact ⟨inner, rfl⟩

theorem mem_leavesOfMembers :
    leaf ∈ leavesOfMembers path members ↔ ∃ p ∈ members, leaf ∈ leaves (path ++ "." ++ p.1) p.2 := by
  induction members with
  | nil => simp [leavesOfMembers]
  | cons member rest ih => simp [leavesOfMembers, ih]

/-- what holds `portclock_configs` is a leaf, unless it stands inside a leaf that cannot be read -/
theorem mem_leaves_of_below (hread : ∀ leaf ∈ leaves start json, ∃ wiring, ChannelWiring.ofJson leaf.value = .ok wiring)
    (hbelow : Below start json path (.obj members)) (hleaf : members.any (·.1 = leafKey) = true) :
    ⟨⟨path⟩, .obj members⟩ ∈ leaves start json := by
  generalize hvalue : Json.obj members = value at hbelow
  induction hbelow with
  | here path json =>
    subst hvalue
    rw [leaves, if_pos hleaf]
    exact List.mem_singleton_self _
  | @down start key path outer child json hmember hbelow ih =>
    rw [leaves] at hread ⊢
    split at hread
    · -- the object above is a leaf itself: it could not be read with an object in it
      subst hvalue
      obtain ⟨wiring, hwiring⟩ := hread _ (List.mem_singleton_self _)
      obtain ⟨inner, rfl⟩ := hbelow.exists_obj
      exact absurd hmember (ChannelWiring.notMem_of_ofJson hwiring)
    · rename_i houter
      rw [if_neg houter, mem_leavesOfMembers]
      refine ⟨(key, child), hmember, ih (fun leaf hin => ?_) hvalue⟩
      exact hread leaf (mem_leavesOfMembers.2 ⟨(key, child), hmember, hin⟩)

/-! ## Leaves of a document without problems -/

namespace Draft

theorem exists_wiring_of_addLeaf {d : Draft} (h : (d.addLeaf leaf).report = []) :
    ∃ wiring, ChannelWiring.ofJson leaf.value = .ok wiring := by
  obtain ⟨path, value⟩ := leaf
  cases value with
  | obj members =>
    cases hw : ChannelWiring.ofJson (.obj members) with
    | error fault => simp [addLeaf, hw] at h
    | ok wiring => exact ⟨wiring, rfl⟩
  | _ => simp [addLeaf] at h

theorem exists_wiring_of_clean {leaves : List Leaf} {d : Draft} (h : (leaves.foldl addLeaf d).report = []) :
    ∀ leaf ∈ leaves, ∃ wiring, ChannelWiring.ofJson leaf.value = .ok wiring := by
  induction leaves generalizing d with
  | nil => simp
  | cons first leaves ih =>
    rw [List.foldl_cons] at h
    intro leaf hleaf
    rcases List.mem_cons.1 hleaf with rfl | hleaf
    · exact exists_wiring_of_addLeaf (foldl_addLeaf_clean h).1
    · exact ih h leaf hleaf

end Draft

theorem exists_wiring_of_build {w : Wiring} (h : build (.paths root) = .ok w) :
    ∀ leaf ∈ leavesOfRoot root, ∃ wiring, ChannelWiring.ofJson leaf.value = .ok wiring := by
  have hclean := (build_eq_ok_iff.1 h).1
  rw [draft_paths] at hclean
  exact Draft.exists_wiring_of_clean hclean

/-- **The leaves of a document that is read.** Every object that holds `portclock_configs` is one of them. -/
theorem mem_leavesOfRoot_of_reached {w : Wiring} (h : build (.paths root) = .ok w)
    (hreached : Reached root path (.obj members)) (hleaf : members.any (·.1 = leafKey) = true) :
    ⟨⟨path⟩, .obj members⟩ ∈ leavesOfRoot root := by
  obtain ⟨p, hp, hbelow⟩ := hreached
  have hread := exists_wiring_of_build h
  have hin : ∀ leaf ∈ leaves p.1 p.2, leaf ∈ leavesOfRoot root := fun leaf hl => List.mem_flatMap.2 ⟨p, hp, hl⟩
  exact hin _ (mem_leaves_of_below (fun leaf hl => hread leaf (hin leaf hl)) hbelow hleaf)

/-- the edges of a leaf that is read, one for each port-clock that it lists -/
theorem leafEdges_of_ofJson (h : ChannelWiring.ofJson (.obj members) = .ok wiring) :
    leafEdges ⟨⟨path⟩, .obj members⟩ = wiring.portClocks.map fun entry =>
      ⟨⟨entry.port, entry.clock⟩, ⟨path⟩, wiring.lo?, none, Leaf.location ⟨⟨path⟩, .obj members⟩⟩ := by
  simp only [leafEdges, h]

end Wiring

end RackMap
