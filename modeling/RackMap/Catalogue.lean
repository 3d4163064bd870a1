/-
The catalogue: the instrument and module types of the two vendors with the channels that each type has.
-/
import RackMap.Signal.ChannelKind
import RackMap.Text.Cut

namespace RackMap

/-- a channel that a type provides -/
structure ChannelSlot where
  name : String
  /-- the kind, or `none` if the description chooses it -/
  kind? : Option ChannelKind
  direction : Direction
  /-- the integrated oscillator that feeds the channel -/
  oscillator? : Option Nat := none
deriving DecidableEq, Repr

/-- a type of instrument or module -/
structure UnitType where
  name : String
  /-- the module types its slots take -/
  moduleTypes : List String := []
  channels : List ChannelSlot
  /-- the values of the reference source, none if it has no such setting -/
  referenceSources : List String := []
  sequencers? : Option Nat := none
deriving DecidableEq, Repr

namespace UnitType

def isComposite (t : UnitType) : Bool := !t.moduleTypes.isEmpty

def channel? (t : UnitType) (name : String) : Option ChannelSlot := t.channels.find? (·.name == name)

def hasOscillator (t : UnitType) : Bool := t.channels.any (·.oscillator?.isSome)

end UnitType

namespace Catalogue

/-- the type of instruments that are nothing but an oscillator -/
def oscillatorType : String := "LocalOscillator"

/-- the naming schemes of channels, each followed by a number -/
def channelSchemes : List String :=
  ["complex_output_", "complex_input_", "real_output_", "real_input_", "digital_output_", "channel_"]

/-- whether a name follows one of the naming schemes of channels -/
def isChannelName (name : String) : Bool :=
  channelSchemes.any fun scheme => (Text.dropStart? scheme name).any Text.isDigits

/-! ## Channels -/

def fixed (name : String) (kind : ChannelKind) (direction : Direction) : ChannelSlot :=
  { name := name, kind? := some kind, direction := direction }

/-- a complex channel that an integrated oscillator feeds -/
def mixed (name : String) (direction : Direction) (oscillator : Nat) : ChannelSlot :=
  { name := name, kind? := some .complex, direction := direction, oscillator? := some oscillator }

/-- an output whose kind the description chooses -/
def byMode (name : String) : ChannelSlot := { name := name, kind? := none, direction := .output }

def controlChannels : List ChannelSlot :=
  [fixed "complex_output_0" .complex .output, fixed "complex_output_1" .complex .output,
    fixed "real_output_0" .real .output, fixed "real_output_1" .real .output,
    fixed "real_output_2" .real .output, fixed "real_output_3" .real .output,
    fixed "digital_output_0" .digital .output, fixed "digital_output_1" .digital .output,
    fixed "digital_output_2" .digital .output, fixed "digital_output_3" .digital .output]

def readoutChannels : List ChannelSlot :=
  [fixed "complex_output_0" .complex .output, fixed "complex_input_0" .complex .input,
    fixed "real_output_0" .real .output, fixed "real_output_1" .real .output,
    fixed "real_input_0" .real .input, fixed "real_input_1" .real .input,
    fixed "digital_output_0" .digital .output, fixed "digital_output_1" .digital .output,
    fixed "digital_output_2" .digital .output, fixed "digital_output_3" .digital .output]

def markerChannels : List ChannelSlot :=
  [fixed "digital_output_0" .digital .output, fixed "digital_output_1" .digital .output]

/-! ## Types -/

def qbloxSources : List String := ["internal", "external"]

def zhinstSources : List String := ["int", "ext", "none"]

def cluster : UnitType :=
  { name := "Cluster", moduleTypes := ["QCM", "QRM", "QCM_RF", "QRM_RF"], channels := [],
    referenceSources := qbloxSources }

def pulsarControl : UnitType :=
  { name := "Pulsar_QCM", channels := controlChannels, referenceSources := qbloxSources, sequencers? := some 6 }

def pulsarReadout : UnitType :=
  { name := "Pulsar_QRM", channels := readoutChannels, referenceSources := qbloxSources, sequencers? := some 6 }

def controlModule : UnitType := { name := "QCM", channels := controlChannels, sequencers? := some 6 }

def readoutModule : UnitType := { name := "QRM", channels := readoutChannels, sequencers? := some 6 }

/-- each output has an oscillator of its own -/
def rfControlModule : UnitType :=
  { name := "QCM_RF",
    channels := [mixed "complex_output_0" .output 0, mixed "complex_output_1" .output 1] ++ markerChannels,
    sequencers? := some 6 }

/-- the output and the input share one oscillator -/
def rfReadoutModule : UnitType :=
  { name := "QRM_RF",
    channels := [mixed "complex_output_0" .output 0, mixed "complex_input_0" .input 0] ++ markerChannels,
    sequencers? := some 6 }

def generator4 : UnitType :=
  { name := "HDAWG4", channels := [byMode "channel_0", byMode "channel_1"], referenceSources := zhinstSources }

def generator8 : UnitType :=
  { name := "HDAWG8", channels := [byMode "channel_0", byMode "channel_1", byMode "channel_2", byMode "channel_3"],
    referenceSources := zhinstSources }

def analyser : UnitType :=
  { name := "UHFQA", channels := [byMode "channel_0"], referenceSources := zhinstSources }

def qblox : List UnitType :=
  [cluster, pulsarControl, pulsarReadout, controlModule, readoutModule, rfControlModule, rfReadoutModule]

def zhinst : List UnitType := [generator4, generator8, analyser]

end Catalogue

end RackMap
