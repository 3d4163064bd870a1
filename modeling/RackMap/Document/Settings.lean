/-
Settings of a compilation: what becomes of options that no connected port-clock uses, whether the port-clocks of one
channel need distinct intermediate frequencies, and whether each stage reports on itself.
-/
import RackMap.Shape.Form

namespace RackMap

open RackMap.Shape

/-- what to do with hardware options of port-clocks that are not connected -/
inductive UnusedPolicy where
  | ignore
  | warn
  | error
deriving DecidableEq, Repr, Inhabited

namespace UnusedPolicy

def text : UnusedPolicy → String
  | ignore => "ignore"
  | warn => "warn"
  | error => "error"

def ofText? : String → Option UnusedPolicy
  | "ignore" => some ignore
  | "warn" => some warn
  | "error" => some error
  | _ => none

def ofName (name : String) : Except Fault UnusedPolicy :=
  match ofText? name with
  | some policy => .ok policy
  | none => .error (.unknownVariant name ["ignore", "warn", "error"])

def readPayload : Reader Unit
  | .null => .ok ()
  | e => Reader.mismatch "unit" e

/-- the name of a policy, alone or as the only key of an object with the value `null`; anything else is no value here -/
def read : Reader UnusedPolicy
  | .str name => ofName name
  | .obj [] (.broken .endInObject) => .error (.text .endInValue)
  | .obj [] (.broken fault) => .error (.text fault)
  | .obj ((key, payload) :: rest) ending => do
    let policy ← ofName key
    readPayload payload
    match rest, ending with
    | [], .closed | [], .whole => return policy
    | [], .broken .endInObject => .error (.text .endInObject)
    | _, _ => .error (.text .expectedValue)
  | .broken fault => .error (.text (if fault.isInWord then .expectedValue else fault))
  | _ => .error (.text .expectedValue)

end UnusedPolicy

/-- the settings of a compilation -/
structure Settings where
  unusedOptions : UnusedPolicy := .warn
  /-- refuse port-clocks on one channel that ask for the same intermediate frequency -/
  distinctIntermediate : Bool := true
  diagnostics : Bool := false
deriving DecidableEq, Repr, Inhabited

/-- a setting that contradicted another one, before and after it was put right -/
structure SettingChange where
  field : String
  before : String
  after : String
  reason : String
deriving DecidableEq, Repr

namespace Settings

def form : Form Settings where
  typeName := "CompilerSettings"
  fields := [
    .withDefault "unused_options" UnusedPolicy.read fun s v => { s with unusedOptions := v },
    .withDefault "require_distinct_intermediate_frequencies" Reader.boolean
      fun s v => { s with distinctIntermediate := v },
    .withDefault "diagnostics" Reader.boolean fun s v => { s with diagnostics := v }]
  start := {}
  others := .refuse

def read : Reader Settings := form.read

/-- with diagnostics, unused options are at least reported -/
def sanitize (s : Settings) : List SettingChange × Settings :=
  if s.diagnostics && s.unusedOptions = .ignore then
    ([⟨"unused_options", "ignore", "warn", "Diagnostics requested."⟩], { s with unusedOptions := .warn })
  else ([], s)

end Settings

end RackMap
