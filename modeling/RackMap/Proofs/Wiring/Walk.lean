/-
The walk through a nested connectivity, told by the leaves that it comes to.

`leavesOfRoot` lists the leaves of a document with their paths, and `draft_paths` says that to walk through a document is to
read these leaves one after the other, into one draft. The walk takes keys apart at their dots; `join_split` puts them
together again, so the paths are the keys with dots between them.
-/
import Mathlib.Tactic
import RackMap.Wiring

namespace RackMap

namespace Text

theorem pieces_ne_nil (sep : Char) (cs : List Char) : pieces sep cs ≠ [] := by
  cases cs with
  | nil => exact List.cons_ne_nil _ _
  | cons c rest =>
    rw [pieces]
    split
    · exact List.cons_ne_nil _ _
    · split <;> exact List.cons_ne_nil _ _

theorem split_ne_nil (sep : Char) (s : String) : split sep s ≠ [] :=
  mt List.map_eq_nil_iff.1 (pieces_ne_nil sep s.toList)

theorem join_cons_of_ne_nil {sep s : String} {rest : List String} (h : rest ≠ []) :
    join sep (s :: rest) = s ++ sep ++ join sep rest := by
  cases rest with
  | nil => exact absurd rfl h
  | cons t rest => rfl

theorem join_append {sep : String} {texts others : List String} (h : texts ≠ []) (hothers : others ≠ []) :
    join sep (texts ++ others) = join sep texts ++ sep ++ join sep others := by
  induction texts with
  | nil => exact absurd rfl h
  | cons s texts ih =>
    cases texts with
    | nil => exact join_cons_of_ne_nil hothers
    | cons t texts =>
      have hmore := List.cons_ne_nil t texts
      rw [List.cons_append, join_cons_of_ne_nil (List.append_ne_nil_of_left_ne_nil hmore others), ih hmore,
        join_cons_of_ne_nil hmore]
      simp only [String.append_assoc]

/-- what the first text begins with, the whole begins with -/
theorem join_append_cons (sep start s : String) (rest : List String) :
    join sep ((start ++ s) :: rest) = start ++ join sep (s :: rest) := by
  cases rest with
  | nil => rfl
  | cons t rest => simp only [join, String.append_assoc]

theorem join_pieces (sep : Char) (cs : List Char) :
    join (String.singleton sep) ((pieces sep cs).map String.ofList) = String.ofList cs := by
  induction cs with
  | nil => rfl
  | cons c rest ih =>
    obtain ⟨piece, more, hpieces⟩ := List.exists_cons_of_ne_nil (pieces_ne_nil sep rest)
    rw [pieces]
    split
    · rename_i hsep
      subst hsep
      rw [List.map_cons, join_cons_of_ne_nil (mt List.map_eq_nil_iff.1 (pieces_ne_nil c rest)), ih]
      simp
    · rw [hpieces, List.map_cons] at ih
      have hfirst : String.ofList (c :: piece) = String.ofList [c] ++ String.ofList piece := by
        rw [← String.ofList_append, List.singleton_append]
      rw [hpieces, List.map_cons, hfirst, join_append_cons, ih, ← String.ofList_append, List.singleton_append]

/-- the pieces of a text, put together again -/
theorem join_split (sep : Char) (s : String) : join (String.singleton sep) (split sep s) = s := by
  rw [split, join_pieces, String.ofList_toList]

end Text

namespace Wiring

mutual

/-- the leaves below a path, in document order; keys are joined by dots, so a key may hold several segments -/
def leaves (path : String) : Json → List Leaf
  | .obj members =>
    if members.any (·.1 = leafKey) then [⟨⟨path⟩, .obj members⟩] else leavesOfMembers path members
  | json => [⟨⟨path⟩, json⟩]

def leavesOfMembers (path : String) : List (String × Json) → List Leaf
  | [] => []
  | (key, child) :: rest => leaves (path ++ "." ++ key) child ++ leavesOfMembers path rest

end

/-- the leaves of a whole document -/
def leavesOfRoot (root : Table String Json) : List Leaf := List.flatMap (fun p => leaves p.1 p.2) root

namespace Draft

mutual

/-- to walk on from a value is to read the leaves below it -/
theorem walk_eq : (value : Json) → ∀ {segments} (d : Draft), segments ≠ [] →
    d.walk segments value = (leaves (Text.join "." segments) value).foldl addLeaf d
  | .obj members, segments, d, hsegments => by
    rw [walk, leaves]
    split
    · rfl
    · exact walkMembers_eq members d hsegments
  | .null, _, _, _ | .bool _, _, _, _ | .int _, _, _, _ | .float _, _, _, _ | .str _, _, _, _ | .arr _, _, _, _ => rfl

theorem walkMembers_eq : (members : List (String × Json)) → ∀ {segments} (d : Draft), segments ≠ [] →
    d.walkMembers segments members = (leavesOfMembers (Text.join "." segments) members).foldl addLeaf d
  | [], _, _, _ => rfl
  | (key, child) :: rest, segments, d, hsegments => by
    have hpath : Text.join "." (segments ++ Text.split '.' key) = Text.join "." segments ++ "." ++ key := by
      rw [Text.join_append hsegments (Text.split_ne_nil '.' key)]
      exact congrArg _ (Text.join_split '.' key)
    rw [walkMembers, leavesOfMembers, List.foldl_append, walkMembers_eq rest _ hsegments,
      walk_eq child d (List.append_ne_nil_of_left_ne_nil hsegments _), hpath]

end

end Draft

/-- **Walking through a document.** Its leaves are read one after the other. -/
theorem draft_paths (root : Table String Json) :
    draft (.paths root) = (leavesOfRoot root).foldl Draft.addLeaf ⟨[], [], []⟩ := by
  rw [draft, leavesOfRoot, List.foldl_flatMap]
  simp only [Draft.walk_eq _ _ (List.cons_ne_nil _ []), Text.join]

end Wiring

end RackMap
