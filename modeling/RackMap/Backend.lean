/-
Backends: the vendors whose settings a compiled map is turned into.
-/
import RackMap.Catalogue

namespace RackMap

/-- a vendor -/
inductive Backend where
  | qblox
  | zhinst
deriving DecidableEq, Repr, Inhabited

namespace Backend

def text : Backend → String
  | qblox => "qblox"
  | zhinst => "zhinst"

def toJson (backend : Backend) : Json := .str backend.text

def ofSegment? : String → Option Backend
  | "qblox_backend" | "qblox" => some qblox
  | "zhinst_backend" | "zhinst" => some zhinst
  | _ => none

/-- the backend that the first telling segment of a dotted identifier names -/
def ofIdentifier? (identifier : String) : Option Backend := (Text.split '.' identifier).findSome? ofSegment?

/-- the types of instruments and modules it knows -/
def unitTypes : Backend → List UnitType
  | qblox => Catalogue.qblox
  | zhinst => Catalogue.zhinst

def unitType? (backend : Backend) (name : String) : Option UnitType := backend.unitTypes.find? (·.name == name)

/-- whether units of this type live in the slots of a composite instrument -/
def isModuleType (backend : Backend) (name : String) : Bool :=
  backend.unitTypes.any fun t => t.moduleTypes.contains name

end Backend

end RackMap
