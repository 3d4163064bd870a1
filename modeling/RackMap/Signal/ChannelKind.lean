/-
Kinds and directions of physical channels. The kind says how many port-clocks a channel can carry and whether they
have frequencies.
-/
import RackMap.Json.Value

namespace RackMap

/-- the kind of signal on a channel -/
inductive ChannelKind where
  | complex
  | real
  | digital
deriving DecidableEq, Repr, Inhabited

namespace ChannelKind

/-- the most port-clocks a channel of this kind carries, `none` for any number -/
def capacity? : ChannelKind → Option Nat
  | complex => none
  | real | digital => some 1

/-- marker channels have neither a modulation nor an oscillator -/
def carriesFrequencies : ChannelKind → Bool
  | complex | real => true
  | digital => false

def text : ChannelKind → String
  | complex => "complex"
  | real => "real"
  | digital => "digital"

def toJson (kind : ChannelKind) : Json := .str kind.text

def ofText? : String → Option ChannelKind
  | "complex" => some complex
  | "real" => some real
  | "digital" => some digital
  | _ => none

/-- the kind a description may declare as a mode: digital channels are never declared -/
def ofMode? (mode : String) : Option ChannelKind :=
  match ofText? mode with
  | some digital => none
  | kind? => kind?

/-- what is said of a text that names no kind -/
def unknownMessage (s : String) : String := s!"unknown channel mode '{s}', expected 'complex' or 'real'"

theorem ofText?_text (kind : ChannelKind) : ofText? kind.text = some kind := by cases kind <;> rfl

end ChannelKind

/-- which way the signal of a channel goes -/
inductive Direction where
  | input
  | output
deriving DecidableEq, Repr, Inhabited

namespace Direction

def text : Direction → String
  | input => "input"
  | output => "output"

def toJson (direction : Direction) : Json := .str direction.text

end Direction

end RackMap
