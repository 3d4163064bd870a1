/-
The command line: `compile CONFIG [--output settings|map] [--strict-options] [--allow-equal-if] [--diagnostics]`.

- `Arguments.parse?` reads the arguments; `--` ends the options, and each option may be given once.
- `Arguments.answer` says what is printed for the content of the config file. Records go to the error stream, and so
  does the one error that ends a run.
-/
import RackMap.Instrument.Settings
import RackMap.Text.Terminal

namespace RackMap.CommandLine

/-- what to print -/
inductive OutputKind where
  | settings
  | map
deriving DecidableEq, Repr

def OutputKind.ofText? : String → Option OutputKind
  | "settings" => some .settings
  | "map" => some .map
  | _ => none

/-- the arguments of a run -/
structure Arguments where
  /-- the file that holds the config -/
  config : String
  output : OutputKind
  /-- options of port-clocks that are not connected are an error -/
  strict : Bool
  /-- port-clocks of one channel may ask for the same intermediate frequency -/
  allowEqual : Bool
  diagnostics : Bool
deriving DecidableEq, Repr

namespace Arguments

/-! ## Reading the arguments -/

/-- the arguments read so far -/
structure Draft where
  config? : Option String := none
  output? : Option OutputKind := none
  strict : Bool := false
  allowEqual : Bool := false
  diagnostics : Bool := false
deriving DecidableEq, Repr

namespace Draft

/-- the name of the config file: one, and not empty -/
def setConfig? (d : Draft) (name : String) : Option Draft :=
  if d.config?.isSome ∨ name = "" then none else some { d with config? := some name }

def setOutput? (d : Draft) (value : String) : Option Draft :=
  if d.output?.isSome then none else (OutputKind.ofText? value).map fun kind => { d with output? := some kind }

/-- an option without a value -/
def setFlag? (d : Draft) : String → Option Draft
  | "--strict-options" => if d.strict then none else some { d with strict := true }
  | "--allow-equal-if" => if d.allowEqual then none else some { d with allowEqual := true }
  | "--diagnostics" => if d.diagnostics then none else some { d with diagnostics := true }
  | _ => none

/-- whether an argument is written like an option; a lone dash is a name -/
def isOption (argument : String) : Bool :=
  match argument.toList with
  | '-' :: _ :: _ => true
  | _ => false

/-- the arguments after `--`, all of them names -/
def takeNames? : Draft → List String → Option Draft
  | d, [] => some d
  | d, name :: rest => do takeNames? (← d.setConfig? name) rest

/-- the arguments after the command -/
def take? : Draft → List String → Option Draft
  | d, [] => some d
  | d, "--" :: rest => d.takeNames? rest
  | _, ["--output"] => none
  | d, "--output" :: value :: rest => do take? (← d.setOutput? value) rest
  | d, argument :: rest => do
    let d ←
      match Text.dropStart? "--output=" argument with
      | some value => d.setOutput? value
      | none => if isOption argument then d.setFlag? argument else d.setConfig? argument
    take? d rest

/-- the arguments, once all are read -/
def finish? (d : Draft) : Option Arguments :=
  d.config?.map fun config => ⟨config, d.output?.getD .settings, d.strict, d.allowEqual, d.diagnostics⟩

end Draft

/-- the arguments of a run, or nothing if they are not understood -/
def parse? : List String → Option Arguments
  | "compile" :: rest => (({} : Draft).take? rest).bind Draft.finish?
  | _ => none

/-- the settings that the arguments ask for -/
def settings (a : Arguments) : Settings :=
  { unusedOptions := if a.strict then .error else .warn
    distinctIntermediate := !a.allowEqual
    diagnostics := a.diagnostics }

end Arguments

/-! ## Answering -/

/-- why a file cannot be read -/
inductive FileFault where
  | system (text : String) (code : Nat)
  | notText
deriving DecidableEq, Repr

namespace FileFault

def noSuchFile : FileFault := .system "No such file or directory" 2

def notADirectory : FileFault := .system "Not a directory" 20

def isADirectory : FileFault := .system "Is a directory" 21

def nameTooLong : FileFault := .system "File name too long" 36

def message : FileFault → String
  | system text code => s!"{text} (os error {code})"
  | notText => "stream did not contain valid UTF-8"

end FileFault

/-- why a run ends without a result -/
inductive Fault where
  | file (name : String) (fault : FileFault)
  | shape (name : String) (fault : Shape.Fault)
  | instrument (fault : Instrument.Fault)

/-- what is said of a fault, and below it why it came about -/
def Fault.message : Fault → String
  | .file name fault => s!"Failed to read '{name}'\nCaused by:\n  {fault.message}"
  | .shape name fault => s!"'{name}' is not a hardware compilation config\nCaused by:\n  {fault.message}"
  | .instrument fault => fault.message

/-- what a run prints, and how it ends -/
structure Answer where
  exit : Nat
  stdout : String
  stderr : String
deriving DecidableEq, Repr

/-- how the level of a record is shown, padded to one width -/
def levelText : Level → String
  | .info => "INFO "
  | .warn => "WARN "

/-- a record on one line, and the further lines of its text indented below -/
def recordLines (r : Record) : String :=
  s!"[{levelText r.level} {r.area.target}] " ++ Text.join "\n    " (Text.split '\n' r.text) ++ "\n"

/-- a record as it is printed: nothing in it commands the terminal -/
def recordText (r : Record) : String := Text.Terminal.display (recordLines r)

namespace Arguments

/-- the config that a file holds -/
def readConfig (a : Arguments) (content : Except FileFault String) : Except Fault Config := do
  let text ← content.mapError (.file a.config)
  (Config.ofText text).mapError (.shape a.config)

/-- the text that is printed for a map -/
def outputText (a : Arguments) (m : CompiledMap) : Except Fault String :=
  match a.output with
  | .map => .ok m.text
  | .settings => ((Instrument.generate m).mapError .instrument).map fun settings => settings.toJson.pretty

/-- what is written once a map is compiled -/
def mapJournal (a : Arguments) (m : CompiledMap) : Journal :=
  Journal.diagnostic a.diagnostics .commandLine
      s!"Compiled {m.channels.length} channels for the '{m.backend.text}' backend" ++
    Journal.diagnostic a.diagnostics .commandLine s!"{m.unresolved.length} frequencies left unresolved" ++
    (match a.output with
      | .map => []
      | .settings => Instrument.generateJournal m.backend m)

/-- what is printed for a config -/
def compileText (a : Arguments) (config : Config) : Except Fault String := do
  let m ← (compile config a.settings).mapError fun failure => .instrument (.compilation failure)
  a.outputText m

/-- what is written while a config is compiled -/
def journal (a : Arguments) (config : Config) : Journal :=
  compileJournal a.diagnostics config a.settings ++ Journal.ofResult a.mapJournal (compile config a.settings)

/-- the answer for the content of the config file -/
def answer (a : Arguments) (content : Except FileFault String) : Answer :=
  let config := a.readConfig content
  let records := String.join ((Journal.ofResult a.journal config).map recordText)
  match config.bind a.compileText with
  | .ok text => ⟨0, text ++ "\n", records⟩
  | .error fault => ⟨1, "", records ++ s!"Error: {fault.message}\n"⟩

end Arguments

end RackMap.CommandLine
