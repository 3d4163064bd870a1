/-
The hardware description: the instruments by name, with their modules and oscillator data.

What is no field of an instrument or module is kept as written: channel descriptions, and settings that play no part
here.
-/
import RackMap.Shape.Form

namespace RackMap

open RackMap.Shape
open RackMap.Decimal (Double)

/-- a module in a slot of an instrument -/
structure ModuleDescription where
  type : String
  fields : Table String Json
deriving Repr, Inhabited

/-- an instrument -/
structure InstrumentDescription where
  type : String
  reference? : Option String
  /-- the modules by slot -/
  modules? : Option (Table String ModuleDescription)
  /-- output power of an oscillator in dBm -/
  power? : Option Double
  instrumentName? : Option String
  iccName? : Option String
  frequencyParam? : Option String
  powerParam? : Option String
  fields : Table String Json
deriving Repr, Inhabited

/-- the instruments by name -/
abbrev HardwareDescription := Table String InstrumentDescription

/-- what is said of one channel of a unit -/
structure ChannelDescription where
  /-- `complex` or `real` -/
  mode? : Option String := none
  markerDebug? : Option Bool := none
  mixLo? : Option Bool := none
  downconverter? : Option Double := none
  markers : List String := []
  trigger? : Option Int := none
deriving DecidableEq, Repr, Inhabited

namespace ModuleDescription

def form : Form ModuleDescription where
  typeName := "ModuleDescription"
  fields := [.required "instrument_type" Reader.text fun m v => { m with type := v }]
  start := ⟨"", []⟩
  others := .keep fun m key json => { m with fields := m.fields.put key json.collapse }

def read : Reader ModuleDescription := form.read

end ModuleDescription

namespace InstrumentDescription

def form : Form InstrumentDescription where
  typeName := "InstrumentDescription"
  fields := [
    .required "instrument_type" Reader.text fun i v => { i with type := v },
    .optional "ref" Reader.text fun i v => { i with reference? := v },
    .optional "modules" (Reader.map ModuleDescription.read) fun i v => { i with modules? := v },
    .optional "power" Reader.double fun i v => { i with power? := v },
    .optional "instrument_name" Reader.text fun i v => { i with instrumentName? := v },
    .optional "generic_icc_name" Reader.text fun i v => { i with iccName? := v },
    .optional "frequency_param" Reader.text fun i v => { i with frequencyParam? := v },
    .optional "power_param" Reader.text fun i v => { i with powerParam? := v }]
  start := ⟨"", none, none, none, none, none, none, none, []⟩
  others := .keep fun i key json => { i with fields := i.fields.put key json.collapse }

def read : Reader InstrumentDescription := form.read

end InstrumentDescription

namespace HardwareDescription

def read : Reader HardwareDescription := Reader.map InstrumentDescription.read

end HardwareDescription

namespace ChannelDescription

def form : Form ChannelDescription where
  typeName := "ChannelDescription"
  fields := [
    .optional "mode" Reader.text fun c v => { c with mode? := v },
    .optional "marker_debug_mode_enable" Reader.boolean fun c v => { c with markerDebug? := v },
    .optional "mix_lo" Reader.boolean fun c v => { c with mixLo? := v },
    .optional "downconverter_freq" Reader.double fun c v => { c with downconverter? := v },
    .withDefault "markers" (Reader.list Reader.text) fun c v => { c with markers := v },
    .optional "trigger" Reader.signed fun c v => { c with trigger? := v }]
  start := {}
  others := .refuse

def ofJson : Json → Except Fault ChannelDescription := form.read.ofTree

end ChannelDescription

end RackMap
