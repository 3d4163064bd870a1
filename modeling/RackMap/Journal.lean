/-
Journal records: what the stages have to say besides their results.

Warnings are always written, information only while diagnostics are on. Each record names the area that wrote it.
-/
namespace RackMap

/-- how much a record matters -/
inductive Level where
  | info
  | warn
deriving DecidableEq, Repr

def Level.text : Level → String
  | .info => "INFO"
  | .warn => "WARN"

/-- who writes a record -/
inductive Area where
  | description
  | options
  | connectivity
  | compilation
  | crosscheck
  | frequencies
  | compiledMap
  | qblox
  | commandLine
deriving DecidableEq, Repr

/-- the target that records of an area are written to -/
def Area.target : Area → String
  | .description => "hwconfig.rust::hwconfig_resolver::description_graph"
  | .options => "hwconfig.rust::hwconfig_resolver::options_table"
  | .connectivity => "hwconfig.rust::hwconfig_resolver::connectivity_graph"
  | .compilation => "hwconfig.rust::hwconfig_resolver::compilation"
  | .crosscheck => "hwconfig.rust::hwconfig_resolver::validation"
  | .frequencies => "hwconfig.rust::hwconfig_resolver::frequency_resolver"
  | .compiledMap => "hwconfig.rust::hwconfig_resolver::compiled_map"
  | .qblox => "hwconfig.rust::hwconfig_backends::qblox"
  | .commandLine => "hwconfig.rust::hwconfig"

/-- one record -/
structure Record where
  level : Level
  area : Area
  text : String
deriving DecidableEq, Repr

/-- records in the order they are written -/
abbrev Journal := List Record

namespace Journal

def warning (area : Area) (text : String) : Journal := [⟨.warn, area, text⟩]

/-- a record that is only written while diagnostics are on -/
def diagnostic (diagnostics : Bool) (area : Area) (text : String) : Journal :=
  if diagnostics then [⟨.info, area, text⟩] else []

/-- what a result writes; a fault writes nothing -/
def ofResult {ε α : Type} (write : α → Journal) : Except ε α → Journal
  | .ok a => write a
  | .error _ => []

end Journal

end RackMap
