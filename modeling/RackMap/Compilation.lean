/-
Compilation: from the documents to the compiled map, stage by stage.

`Parsed`, `Validated` and `Resolved` are the states between the documents and the map; every transition uses up the
state before it, and a transition that fails leaves none. `compile` runs them all. What the stages write while they
run is told by the functions named `journal`, apart from the results.
-/
import RackMap.CompiledMap
import RackMap.Document.Config

namespace RackMap

/-- the documents, each read on its own -/
structure Parsed where
  settings : Settings
  inventory : Inventory
  options : OptionTable
  wiring : Wiring
deriving Repr

/-- documents that fit together -/
structure Validated extends Parsed where
  warnings : List String
deriving Repr

/-- documents whose frequencies are resolved -/
structure Resolved extends Validated where
  frequencies : Resolution
deriving Repr

namespace Parsed

/-- the backend that an identifier names -/
def selectBackend (identifier : String) : Except Failure Backend :=
  match Backend.ofIdentifier? identifier with
  | some backend => .ok backend
  | none => .error (.schema [⟨"backend", .unknownBackend identifier⟩])

/-- a result, with the schema problems so far; while there are some, violations count among them -/
def gather {α : Type} (report : Report) : Except Failure α → Except Failure (Option α × Report)
  | .ok a => .ok (some a, report)
  | .error (.schema more) => .ok (none, report ++ more)
  | .error (.duplicates violations) =>
    if report.isEmpty then .error (.duplicates violations)
    else .ok (none, report ++ violations.map Issue.ofViolation)
  | .error failure => .error failure

/-- the options of a config, which has none if it does not give them -/
def optionsOf (config : Config) : HardwareOptions := config.options?.getD {}

/-- the documents of a config; the schema problems of all of them are reported together -/
def ofConfig (config : Config) (settings : Settings) : Except Failure Parsed := do
  let (backend?, report) ← gather [] (selectBackend config.backend)
  let (inventory?, report) ←
    match backend? with
    | some backend => gather report (Inventory.build config.description backend)
    | none => .ok (none, report)
  let (options?, report) ← gather report (OptionTable.build (optionsOf config))
  let (wiring?, report) ← gather report (Wiring.build config.connectivity)
  match inventory?, options?, wiring? with
  | some inventory, some options, some wiring =>
    if report.isEmpty then .ok ⟨settings, inventory, options, wiring⟩ else .error (.schema report)
  | _, _, _ => .error (.schema report)

/-- the documents checked against each other -/
def validate (p : Parsed) : Except Failure Validated :=
  (Crosscheck.validate p.inventory p.options p.wiring p.settings).map fun warnings => ⟨p, warnings⟩

/-- what is written while the documents are read -/
def journal (diagnostics : Bool) (config : Config) : Journal :=
  Journal.ofResult (fun backend =>
      Journal.ofResult (Inventory.journal diagnostics) (Inventory.build config.description backend))
    (selectBackend config.backend) ++
  Journal.ofResult (OptionTable.journal diagnostics) (OptionTable.build (optionsOf config)) ++
  Journal.ofResult (Wiring.journal diagnostics) (Wiring.build config.connectivity)

/-- what is written while the documents are checked -/
def validateJournal (diagnostics : Bool) (p : Parsed) : Journal :=
  Crosscheck.journal diagnostics p.inventory p.options p.wiring p.settings

end Parsed

namespace Validated

/-- the documents with their frequencies -/
def resolve (v : Validated) : Except Failure Resolved :=
  (Frequencies.resolve v.inventory v.options v.wiring).map fun frequencies => ⟨v, frequencies⟩

end Validated

namespace Resolved

/-- the compiled map -/
def build (r : Resolved) : Except Failure CompiledMap :=
  Compile.map r.inventory r.options r.wiring r.settings r.frequencies r.warnings

/-- what is written once the frequencies are resolved -/
def journal (diagnostics : Bool) (r : Resolved) : Journal := Frequencies.journal diagnostics r.frequencies

end Resolved

/-- the compiled map of a config -/
def compile (config : Config) (settings : Settings) : Except Failure CompiledMap := do
  let parsed ← Parsed.ofConfig config settings.sanitize.2
  let validated ← parsed.validate
  let resolved ← validated.resolve
  resolved.build

namespace SettingChange

def message (c : SettingChange) : String :=
  "Compiler setting `" ++ c.field.toUpper ++ s!"` is sanitized from {c.before} to {c.after}. Reason: {c.reason}"

end SettingChange

/-- what is written during a compilation; the settings may turn diagnostics on, never off -/
def compileJournal (diagnostics : Bool) (config : Config) (settings : Settings) : Journal :=
  let (changes, settings) := settings.sanitize
  let diagnostics := diagnostics || settings.diagnostics
  changes.flatMap (fun c => Journal.warning .compilation c.message) ++
  Parsed.journal diagnostics config ++
  Journal.ofResult (fun parsed =>
      parsed.validateJournal diagnostics ++
      Journal.ofResult (fun validated : Validated =>
          Journal.ofResult (fun resolved : Resolved =>
              resolved.journal diagnostics ++ Journal.ofResult (Compile.journal diagnostics) resolved.build)
            validated.resolve)
        parsed.validate)
    (Parsed.ofConfig config settings)

end RackMap
