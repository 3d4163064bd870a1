/-
JSON trees as written: integers apart from floating numbers, and members in order, repeated keys included.

`collapse` is the reading of an object as a map: a repeated key keeps its first place and takes its last value.
-/
import RackMap.Decimal.Double
import RackMap.Table

namespace RackMap

open RackMap.Decimal (Double)

/-- a JSON tree -/
inductive Json where
  | null
  | bool (b : Bool)
  | int (n : Int)
  | float (x : Double)
  | str (s : String)
  | arr (items : List Json)
  | obj (members : List (String × Json))
deriving Inhabited, Repr, BEq

namespace Json

mutual

/-- the tree with every object read as a map -/
def collapse : Json → Json
  | arr items => arr (collapseItems items)
  | obj members => obj (Table.ofPairs (collapseMembers members))
  | json => json

def collapseItems : List Json → List Json
  | [] => []
  | item :: rest => collapse item :: collapseItems rest

def collapseMembers : List (String × Json) → List (String × Json)
  | [] => []
  | (key, value) :: rest => (key, collapse value) :: collapseMembers rest

end

/-- a number; what is not finite has no written form and becomes `null` -/
def ofDouble (x : Double) : Json := if x.isFinite then float x else null

/-- a value or `null` -/
def ofOption {α : Type} (f : α → Json) : Option α → Json
  | some a => f a
  | none => null

/-- a member for a value that is there, none otherwise -/
def member? {α : Type} (key : String) (f : α → Json) : Option α → List (String × Json)
  | some a => [(key, f a)]
  | none => []

def ofNat (n : Nat) : Json := int n

def ofStrings (ss : List String) : Json := arr (ss.map str)

end Json

end RackMap
