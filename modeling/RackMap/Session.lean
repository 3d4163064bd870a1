/-
Sessions: documents entered one at a time, and compilations run one stage at a time.

A session keeps what its steps built last. A step that builds something forgets the old one first, so that a fault
leaves nothing behind that belongs to other documents. While a compilation runs, its documents are the ones that are
asked and checked; the documents entered step by step come into play again when it ends.
-/
import RackMap.Instrument.Settings

namespace RackMap

/-- the state of a running compilation -/
inductive Stage where
  | parsed (documents : Parsed)
  | validated (documents : Validated)
  | resolved (documents : Resolved)
deriving Repr

/-- the documents of a running compilation -/
def Stage.documents : Stage → Parsed
  | parsed documents => documents
  | validated documents => documents.toParsed
  | resolved documents => documents.toParsed

/-- what the steps of a session built so far -/
structure Session where
  settings : Settings := {}
  /-- whether the stages report on themselves -/
  diagnostics : Bool := false
  enteredInventory? : Option Inventory := none
  enteredOptions : OptionTable := .empty
  enteredWiring? : Option Wiring := none
  enteredFrequencies? : Option Resolution := none
  map? : Option CompiledMap := none
  stage? : Option Stage := none
deriving Repr

namespace Session

/-- what a step needs and the session lacks -/
inductive Missing where
  | description
  | connectivity
  | frequencies
  | map
  | parsed
  | validated
  | resolved
deriving DecidableEq, Repr

def Missing.message : Missing → String
  | .description => "no description"
  | .connectivity => "no connectivity"
  | .frequencies => "no frequencies"
  | .map => "no map"
  | .parsed => "no parsed compilation"
  | .validated => "no validated compilation"
  | .resolved => "no resolved compilation"

/-- why a step fails -/
inductive Fault where
  | missing (what : Missing)
  /-- the document cannot be read -/
  | shape (fault : Shape.Fault)
  | compilation (failure : Failure)
  | instrument (fault : Instrument.Fault)

/-- what a step comes to: its result, the session after it, and what it wrote -/
structure Outcome (α : Type) where
  result : Except Fault α
  session : Session
  journal : Journal

/-- a document as it was read -/
abbrev Document (α : Type) := Except Shape.Fault α

/-! ## What the session has -/

/-- the part of the documents in play: of the running compilation, or else as entered -/
def inPlay {α : Type} (s : Session) (running : Parsed → α) (entered : α) : α :=
  match s.stage? with
  | some stage => running stage.documents
  | none => entered

/-- a thing the session should have -/
def need {α : Type} (what : Missing) : Option α → Except Fault α
  | some a => .ok a
  | none => .error (.missing what)

def inventory (s : Session) : Except Fault Inventory :=
  need .description (s.inPlay (fun documents => some documents.inventory) s.enteredInventory?)

def options (s : Session) : OptionTable := s.inPlay Parsed.options s.enteredOptions

def wiring (s : Session) : Except Fault Wiring :=
  need .connectivity (s.inPlay (fun documents => some documents.wiring) s.enteredWiring?)

/-- the frequencies of a running compilation that has come so far, or else those resolved before -/
def frequencies (s : Session) : Except Fault Resolution :=
  need .frequencies <|
    match s.stage? with
    | some (.resolved documents) => some documents.frequencies
    | _ => s.enteredFrequencies?

def map (s : Session) : Except Fault CompiledMap := need .map s.map?

/-! ## Steps -/

variable {α : Type}

/-- the outcome of a step that keeps its result -/
def conclude (s : Session) (result : Except Fault α) (keep : α → Session) (journal : Journal) : Outcome α :=
  { result := result
    session :=
      match result with
      | .ok a => keep a
      | .error _ => s
    journal := journal }

/-- new settings; a document that cannot be read leaves the old ones -/
def setSettings (s : Session) (document : Document Settings) : Outcome Settings :=
  s.conclude (document.mapError .shape) (fun settings => { s with settings := settings }) []

/-- the settings put right, and what was changed -/
def sanitize (s : Session) : Outcome (List SettingChange) :=
  let (changes, settings) := s.settings.sanitize
  ⟨.ok changes, { s with settings := settings }, []⟩

def setDiagnostics (s : Session) (on : Bool) : Outcome Bool := ⟨.ok on, { s with diagnostics := on }, []⟩

/-- a new hardware description for the backend that an identifier names -/
def describe (s : Session) (identifier : String) (document : Document HardwareDescription) : Outcome Inventory :=
  let s := { s with enteredInventory? := none }
  let result := do
    let backend ← (Parsed.selectBackend identifier).mapError .compilation
    let description ← document.mapError .shape
    (Inventory.build description backend).mapError .compilation
  s.conclude result (fun inventory => { s with enteredInventory? := some inventory })
    (Journal.ofResult (Inventory.journal s.diagnostics) result)

/-- new hardware options -/
def enterOptions (s : Session) (document : Document HardwareOptions) : Outcome OptionTable :=
  let s := { s with enteredOptions := .empty }
  let result := do
    let options ← document.mapError .shape
    (OptionTable.build options).mapError .compilation
  s.conclude result (fun options => { s with enteredOptions := options })
    (Journal.ofResult (OptionTable.journal s.diagnostics) result)

/-- a new connectivity -/
def connect (s : Session) (document : Document Connectivity) : Outcome Wiring :=
  let s := { s with enteredWiring? := none }
  let result := do
    let connectivity ← document.mapError .shape
    (Wiring.build connectivity).mapError .compilation
  s.conclude result (fun wiring => { s with enteredWiring? := some wiring })
    (Journal.ofResult (Wiring.journal s.diagnostics) result)

/-- new edges in place of a connectivity -/
def connectEdges (s : Session) (edges : List Edge) : Outcome Wiring :=
  let s := { s with enteredWiring? := none }
  s.conclude ((Wiring.ofEdges edges).mapError .compilation) (fun wiring => { s with enteredWiring? := some wiring }) []

/-- the documents in play checked against each other -/
def validate (s : Session) : Outcome (List String) :=
  match (do return (← s.inventory, ← s.wiring) : Except Fault (Inventory × Wiring)) with
  | .error fault => ⟨.error fault, s, []⟩
  | .ok (inventory, wiring) =>
    ⟨(Crosscheck.validate inventory s.options wiring s.settings).mapError .compilation, s,
      Crosscheck.journal s.diagnostics inventory s.options wiring s.settings⟩

/-- the frequencies of the documents in play -/
def resolve (s : Session) : Outcome Resolution :=
  let s := { s with enteredFrequencies? := none }
  let result := do
    let inventory ← s.inventory
    let wiring ← s.wiring
    (Frequencies.resolve inventory s.options wiring).mapError .compilation
  s.conclude result (fun frequencies => { s with enteredFrequencies? := some frequencies })
    (Journal.ofResult (Frequencies.journal s.diagnostics) result)

/-- the map of the documents in play; it uses up the frequencies resolved before -/
def build (s : Session) (warnings : List String) : Outcome CompiledMap :=
  let frequencies? := s.enteredFrequencies?
  let s := { s with map? := none, enteredFrequencies? := none }
  let result := do
    let frequencies ← need .frequencies frequencies?
    let inventory ← s.inventory
    let wiring ← s.wiring
    (Compile.map inventory s.options wiring s.settings frequencies warnings).mapError .compilation
  s.conclude result (fun m => { s with map? := some m }) (Journal.ofResult (Compile.journal s.diagnostics) result)

/-! ## Running a compilation -/

/-- a compilation started on a config, under the settings as they are -/
def parse (s : Session) (document : Document Config) : Outcome Parsed :=
  let s := { s with stage? := none }
  match document with
  | .error fault => ⟨.error (.shape fault), s, []⟩
  | .ok config =>
    s.conclude ((Parsed.ofConfig config s.settings).mapError .compilation)
      (fun parsed => { s with stage? := some (.parsed parsed) }) (Parsed.journal s.diagnostics config)

/-- the running compilation, once its documents are checked -/
def advanceToValidated (s : Session) : Outcome Validated :=
  match s.stage? with
  | some (.parsed parsed) =>
    let s := { s with stage? := none }
    s.conclude (parsed.validate.mapError .compilation)
      (fun validated => { s with stage? := some (.validated validated) }) (parsed.validateJournal s.diagnostics)
  | _ => ⟨.error (.missing .parsed), s, []⟩

/-- the running compilation, once its frequencies are resolved -/
def advanceToResolved (s : Session) : Outcome Resolved :=
  match s.stage? with
  | some (.validated validated) =>
    let s := { s with stage? := none }
    s.conclude (validated.resolve.mapError .compilation)
      (fun resolved => { s with stage? := some (.resolved resolved) })
      (Journal.ofResult (Resolved.journal s.diagnostics) validated.resolve)
  | _ => ⟨.error (.missing .validated), s, []⟩

/-- the end of the running compilation; only a new map replaces the old one -/
def finish (s : Session) : Outcome CompiledMap :=
  match s.stage? with
  | some (.resolved resolved) =>
    let s := { s with stage? := none }
    s.conclude (resolved.build.mapError .compilation) (fun m => { s with map? := some m })
      (Journal.ofResult (Compile.journal s.diagnostics) resolved.build)
  | _ => ⟨.error (.missing .resolved), s, []⟩

/-- a whole compilation at once; settings that ask for diagnostics turn them on for good -/
def compile (s : Session) (document : Document Config) : Outcome CompiledMap :=
  let s := { s with map? := none }
  match document with
  | .error fault => ⟨.error (.shape fault), s, []⟩
  | .ok config =>
    let s := { s with diagnostics := s.diagnostics || s.settings.diagnostics }
    s.conclude ((RackMap.compile config s.settings).mapError .compilation) (fun m => { s with map? := some m })
      (compileJournal s.diagnostics config s.settings)

/-- the instrument settings of the map, by the generator of its backend or by the one asked for -/
def generate (s : Session) (backend? : Option Backend) : Outcome Instrument.InstrumentSettings :=
  match s.map with
  | .error fault => ⟨.error fault, s, []⟩
  | .ok m =>
    let backend := backend?.getD m.backend
    ⟨(Instrument.generateFor backend m).mapError .instrument, s, Instrument.generateJournal backend m⟩

end Session

end RackMap
