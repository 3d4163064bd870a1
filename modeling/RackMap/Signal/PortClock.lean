/-
Port-clocks: logical signal paths, the pairing of a port `element:line` with a clock `element.transition`.

A port-clock is written `port-clock`. Reading splits at the first dash behind the first colon: an element name may
hold dashes of its own, a line may not.
-/
import RackMap.Json.Value
import RackMap.Text.Blank
import RackMap.Text.Cut

namespace RackMap

/-- a logical signal path -/
structure PortClock where
  port : String
  clock : String
deriving DecidableEq, Repr, Inhabited

namespace PortClock

/-- the written form `port-clock` -/
def text (pc : PortClock) : String := pc.port ++ "-" ++ pc.clock

def toJson (pc : PortClock) : Json := .str pc.text

/-- port first, then clock -/
def le (a b : PortClock) : Bool := a.port < b.port || (a.port == b.port && a.clock ≤ b.clock)

/-- why a text is no port-clock; the text is shown without the blanks around it -/
inductive Fault where
  | missingPort (text : String)
  | missingClock (text : String)
deriving DecidableEq, Repr

def Fault.message : Fault → String
  | missingPort text => s!"'{text}' has no port; expected 'element:line-element.transition'"
  | missingClock text => s!"'{text}' has no clock; expected 'element:line-element.transition'"

/-- the port-clock that a text without blanks around it denotes -/
def parseTrimmed (s : String) : Except Fault PortClock :=
  match Text.cutFirst ':' s.toList with
  | none => .error (.missingPort s)
  | some (element, rest) =>
    if element.isEmpty then .error (.missingPort s)
    else
      match Text.cutFirst '-' rest with
      | none => .error (.missingClock s)
      | some (line, clock) =>
        if line.isEmpty then .error (.missingPort s)
        else if clock.isEmpty then .error (.missingClock s)
        else .ok ⟨String.ofList (element ++ ':' :: line), String.ofList clock⟩

/-- the port-clock that a text denotes, whatever blanks are around it -/
def parse (s : String) : Except Fault PortClock := parseTrimmed (Text.trim s)

end PortClock

end RackMap
