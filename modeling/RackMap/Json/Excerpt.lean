/-
Excerpts: JSON trees as far as a text gives them.

A text that is no JSON still has a beginning that is. Its excerpt is the tree of that beginning, with the fault at the
place where the text breaks off. So a document can be read in the order of its text: whatever is wrong before that place
shows first.

- `ofJson` is the excerpt of a whole tree; `tree` gives the tree of an excerpt, or the fault in it.
-/
import RackMap.Json.Fault
import RackMap.Json.Value

namespace RackMap.Json

open RackMap.Decimal (Double)

/-- how the items or members of an excerpt end -/
inductive Ending where
  /-- they are those of a tree that no text is behind -/
  | whole
  /-- with a closing bracket -/
  | closed
  | broken (fault : Fault)
deriving DecidableEq, Repr

/-- a JSON tree as far as a text gives it -/
inductive Excerpt where
  | null
  | bool (b : Bool)
  | int (n : Int)
  | float (x : Double)
  | str (s : String)
  | arr (items : List Excerpt) (ending : Ending)
  /-- what stands in the place of a key but is none breaks the members off -/
  | obj (members : List (String × Excerpt)) (ending : Ending)
  /-- the text breaks off here -/
  | broken (fault : Fault)

namespace Ending

def check : Ending → Except Fault Unit
  | broken fault => .error fault
  | _ => .ok ()

end Ending

namespace Excerpt

mutual

/-- the excerpt of a whole tree -/
def ofJson : Json → Excerpt
  | .null => null
  | .bool b => bool b
  | .int n => int n
  | .float x => float x
  | .str s => str s
  | .arr items => arr (ofItems items) .whole
  | .obj members => obj (ofMembers members) .whole

def ofItems : List Json → List Excerpt
  | [] => []
  | item :: rest => ofJson item :: ofItems rest

def ofMembers : List (String × Json) → List (String × Excerpt)
  | [] => []
  | (key, value) :: rest => (key, ofJson value) :: ofMembers rest

end

mutual

/-- the tree, or the first fault in it -/
def tree : Excerpt → Except Fault Json
  | null => .ok .null
  | bool b => .ok (.bool b)
  | int n => .ok (.int n)
  | float x => .ok (.float x)
  | str s => .ok (.str s)
  | arr items ending => do
    let items ← treesOfItems items
    ending.check
    return .arr items
  | obj members ending => do
    let members ← treesOfMembers members
    ending.check
    return .obj members
  | broken fault => .error fault

def treesOfItems : List Excerpt → Except Fault (List Json)
  | [] => .ok []
  | item :: rest => do
    let item ← tree item
    return item :: (← treesOfItems rest)

def treesOfMembers : List (String × Excerpt) → Except Fault (List (String × Json))
  | [] => .ok []
  | (key, value) :: rest => do
    let value ← tree value
    return (key, value) :: (← treesOfMembers rest)

end

mutual

theorem tree_ofJson : (json : Json) → tree (ofJson json) = .ok json
  | .null | .bool _ | .int _ | .float _ | .str _ => by rfl
  | .arr items => by rw [ofJson, tree, treesOfItems_ofItems items]; rfl
  | .obj members => by rw [ofJson, tree, treesOfMembers_ofMembers members]; rfl

theorem treesOfItems_ofItems : (items : List Json) → treesOfItems (ofItems items) = .ok items
  | [] => rfl
  | item :: rest => by rw [ofItems, treesOfItems, tree_ofJson item, treesOfItems_ofItems rest]; rfl

theorem treesOfMembers_ofMembers : (members : List (String × Json)) → treesOfMembers (ofMembers members) = .ok members
  | [] => rfl
  | (_, value) :: rest => by rw [ofMembers, treesOfMembers, tree_ofJson value, treesOfMembers_ofMembers rest]; rfl

end

end Excerpt

end RackMap.Json
