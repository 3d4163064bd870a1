/-
References to local oscillators: to one that is an instrument of its own, or to one built into a module.
-/
import RackMap.Json.Value

namespace RackMap

/-- the local oscillator that feeds a channel -/
inductive OscillatorRef where
  | external (name : String)
  /-- the oscillator `index` of the module at a path -/
  | integrated (module : String) (index : Nat)
deriving DecidableEq, Repr, Inhabited

namespace OscillatorRef

def text : OscillatorRef → String
  | external name => name
  | integrated module index => s!"{module}.lo{index}"

/-- the members of the JSON form, which other members may follow -/
def members : OscillatorRef → List (String × Json)
  | external name => [("source", .str "external"), ("name", .str name)]
  | integrated module index =>
    [("source", .str "integrated"), ("module", .str module), ("index", .ofNat index)]

def toJson (lo : OscillatorRef) : Json := .obj lo.members

/-- external ones by name, then integrated ones by module and index -/
def le : OscillatorRef → OscillatorRef → Bool
  | external a, external b => a ≤ b
  | external _, integrated _ _ => true
  | integrated _ _, external _ => false
  | integrated a i, integrated b j => a < b || (a == b && i ≤ j)

end OscillatorRef

end RackMap
