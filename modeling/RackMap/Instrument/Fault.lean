/-
Why the settings of the instruments cannot be made.
-/
import RackMap.Correction
import RackMap.Failure

namespace RackMap.Instrument

open RackMap.Decimal (Double Layout)

/-- how the values of a conflict are written: always with a point or an exponent -/
def valueLayout : Layout := ⟨some (-4, 16), true, false, .up⟩

/-- a value that port-clocks of one channel have to agree on -/
inductive Shared where
  | attenuation (value : Nat)
  | gain (value : InputGain)
  | offset (value : Double)
deriving DecidableEq, Repr

def Shared.text : Shared → String
  | attenuation value => toString value
  | gain (.real g) => s!"Real({g})"
  | gain (.complex gainI gainQ) =>
    "Complex \x7b gain_i: " ++ toString gainI ++ ", gain_q: " ++ toString gainQ ++ " \x7d"
  | offset value => valueLayout.text value

/-- a fault of settings, or a failure of the compilation before -/
inductive Fault where
  | compilation (failure : Failure)
  /-- the map was compiled for another backend -/
  | backendMismatch (expected found : Backend)
  | outOfRange (setting : String) (portClock : PortClock) (value low high : Double)
  | tooManySequencers (module : String) (required available : Nat)
  /-- the values that the port-clocks of a channel ask for, in document order -/
  | conflicting (channel : ChannelPath) (setting : String) (values : List (PortClock × Shared))
  | noModule (channel : ChannelPath)
  | badChannelName (name : String)
  | noAttenuator (channel : ChannelPath)
  | notOnePortClock (channel : ChannelPath) (count : Nat)
  | builtInOscillator (lo : OscillatorRef)

namespace Fault

def message : Fault → String
  | compilation failure => failure.message
  | backendMismatch expected found =>
    s!"Compiled hardware map targets the '{found.text}' backend, expected '{expected.text}'"
  | outOfRange setting pc value low high =>
    s!"Invalid value for '{setting}' of port-clock '{pc.text}': {value.plain} is outside " ++
      s!"[{low.plain}, {high.plain}]"
  | tooManySequencers module required available =>
    s!"'{module}' needs {required} sequencers, but has only {available}"
  | conflicting channel setting values =>
    s!"Port-clocks on '{channel.text}' request different values for '{setting}': " ++
      Text.join ", " (values.map fun v => s!"'{v.1.text}': {v.2.text}")
  | noModule channel => s!"Channel '{channel.text}' has no module"
  | badChannelName name => s!"Invalid channel name '{name}'"
  | noAttenuator channel => s!"'{channel.text}' has no attenuator"
  | notOnePortClock channel count =>
    s!"Channel '{channel.text}' carries {count} port-clocks, Zurich Instruments channels carry one"
  | builtInOscillator lo =>
    s!"Zurich Instruments channels have no integrated local oscillator, got '{lo.text}'"

end Fault

end RackMap.Instrument
