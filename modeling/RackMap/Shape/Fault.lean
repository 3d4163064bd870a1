/-
What can be wrong with the shape of a document, and how it is said.

A message names what was found and what was wanted. Names are put between backticks; two names are joined by "or",
more are listed.
-/
import RackMap.Json.Excerpt
import RackMap.Json.Printer
import RackMap.Text.Quoted

namespace RackMap.Shape

open RackMap.Decimal (Double)

/-- what was found where something else was wanted -/
inductive Found where
  | integer (n : Int)
  | float (x : Double)
  | boolean (b : Bool)
  | text (s : String)
  | null
  | sequence
  | map

namespace Found

/-- what an excerpt starts with -/
def ofExcerpt : Json.Excerpt → Except Json.Fault Found
  | .null => .ok null
  | .bool b => .ok (boolean b)
  | .int n => .ok (integer n)
  | .float x => .ok (float x)
  | .str s => .ok (text s)
  | .arr _ _ => .ok sequence
  | .obj _ _ => .ok map
  | .broken fault => .error fault

def message : Found → String
  | integer n => "integer `" ++ toString n ++ "`"
  | float x => "floating point `" ++ Json.numberLayout.text x ++ "`"
  | boolean b => "boolean `" ++ toString b ++ "`"
  | text s => "string " ++ Text.quoted s
  | null => "null"
  | sequence => "sequence"
  | map => "map"

end Found

/-- a fault of shape, or one that shows only in the text of the document -/
inductive Fault where
  | text (fault : Json.Fault)
  | missingField (name : String)
  | duplicateField (name : String)
  | unknownField (name : String) (known : List String)
  | unknownVariant (name : String) (known : List String)
  | invalidType (found : Found) (wanted : String)
  | invalidValue (found : Found) (wanted : String)
  | invalidLength (length : Nat) (wanted : String)
  | noVariant (type : String)

namespace Fault

def ticked (name : String) : String := "`" ++ name ++ "`"

/-- the names that would have been right -/
def alternatives : List String → String
  | [a] => s!"expected {ticked a}"
  | [a, b] => s!"expected {ticked a} or {ticked b}"
  | names => "expected one of " ++ Text.join ", " (names.map ticked)

def message : Fault → String
  | text fault => fault.message
  | missingField name => s!"missing field {ticked name}"
  | duplicateField name => s!"duplicate field {ticked name}"
  | unknownField name known => s!"unknown field {ticked name}, {alternatives known}"
  | unknownVariant name known => s!"unknown variant {ticked name}, {alternatives known}"
  | invalidType found wanted => s!"invalid type: {found.message}, expected {wanted}"
  | invalidValue found wanted => s!"invalid value: {found.message}, expected {wanted}"
  | invalidLength length wanted => s!"invalid length {length}, expected {wanted}"
  | noVariant type => s!"data did not match any variant of untagged enum {type}"

end Fault

end RackMap.Shape
