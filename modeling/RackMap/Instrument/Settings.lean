/-
Settings of the instruments, whichever backend a map was compiled for.
-/
import RackMap.Compilation
import RackMap.Instrument.Qblox
import RackMap.Instrument.Zhinst

namespace RackMap.Instrument

/-- the settings for one of the backends -/
inductive InstrumentSettings where
  | qblox (settings : QbloxSettings)
  | zhinst (settings : ZhinstSettings)
deriving Repr

namespace InstrumentSettings

def toJson : InstrumentSettings → Json
  | qblox settings => settings.toJson
  | zhinst settings => settings.toJson

end InstrumentSettings

/-- the settings that the generator of a backend makes of a map -/
def generateFor (backend : Backend) (m : CompiledMap) : Except Fault InstrumentSettings :=
  match backend with
  | .qblox => (Qblox.generate m).map .qblox
  | .zhinst => (Zhinst.generate m).map .zhinst

/-- the settings for the backend of the map -/
def generate (m : CompiledMap) : Except Fault InstrumentSettings := generateFor m.backend m

/-- whether a map was compiled for a backend -/
def accepts (backend : Backend) (m : CompiledMap) : Bool := m.backend == backend

/-- what the generator of a backend writes -/
def generateJournal (backend : Backend) (m : CompiledMap) : Journal :=
  match backend with
  | .qblox => Qblox.journal m
  | .zhinst => []

/-- the settings of a config -/
def compileSettings (config : Config) (settings : Settings) : Except Fault InstrumentSettings :=
  match compile config settings with
  | .ok m => generate m
  | .error failure => .error (.compilation failure)

/-- what is written while the settings of a config are made -/
def compileSettingsJournal (diagnostics : Bool) (config : Config) (settings : Settings) : Journal :=
  compileJournal diagnostics config settings ++
    Journal.ofResult (fun m => generateJournal m.backend m) (compile config settings)

end RackMap.Instrument
