/-
The complete input of a compilation: the backend, the hardware description, the options and the connectivity.

Members with other keys are passed over, down to the text: of their values only the grammar is checked.
-/
import RackMap.Document.Connectivity
import RackMap.Document.Description
import RackMap.Document.Options
import RackMap.Document.Settings
import RackMap.Json.Reader

namespace RackMap

open RackMap.Shape

/-- the input of one compilation -/
structure Config where
  /-- a dotted identifier -/
  backend : String
  description : HardwareDescription
  options? : Option HardwareOptions
  connectivity : Connectivity
deriving Repr, Inhabited

namespace Config

def form : Form Config where
  typeName := "HardwareCompilationConfig"
  fields := [
    .required "backend" Reader.text fun c v => { c with backend := v },
    .withDefault "hardware_description" HardwareDescription.read fun c v => { c with description := v },
    .optional "hardware_options" HardwareOptions.read fun c v => { c with options? := v },
    .required "connectivity" Connectivity.read fun c v => { c with connectivity := v }]
  start := ⟨"", [], none, .paths []⟩
  others := .ignore

def read : Reader Config := form.read

end Config

/-! ## Documents as texts -/

variable {α : Type}

/-- the document that a text holds, of whose outermost object only the wanted members are looked at -/
def Document.ofMembersOfText (wanted : String → Bool) (read : Reader α) (s : String) : Except Fault α := do
  let (e, rest) := Json.excerpt wanted s
  let document ← read e
  rest.finish.mapError .text
  return document

/-- the document that a text holds -/
def Document.ofText (read : Reader α) (s : String) : Except Fault α := Document.ofMembersOfText (fun _ => true) read s

/-- the document in a text that is read as a tree of maps before its shape is looked at -/
def Document.ofMaps (ofJson : Json → Except Fault α) (s : String) : Except Fault α := do
  let json ← (Json.parse s).mapError .text
  ofJson json.collapse

/-- the config that a text holds -/
def Config.ofText (s : String) : Except Fault Config :=
  Document.ofMembersOfText (fun key => form.spellings.contains key) read s

end RackMap
