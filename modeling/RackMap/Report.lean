/-
Reports: all problems that one stage finds, each with the place in the documents where it lies.
-/
import RackMap.Backend
import RackMap.Decimal.Layout
import RackMap.Shape.Fault
import RackMap.Signal.OscillatorRef
import RackMap.Violation

namespace RackMap

open RackMap.Decimal (Double)

/-- what is wrong at one place -/
inductive Cause where
  /-- said in free words -/
  | note (text : String)
  | shape (fault : Shape.Fault)
  | duplicate (violation : Violation)
  -- the backend and the hardware description
  | unknownBackend (identifier : String)
  | unknownType (type : String) (backend : Backend)
  | moduleOutsideSlot (type : String)
  | referenceNotApplicable
  | unknownReference (reference : String) (known : List String)
  | powerNotApplicable
  | channelOutsideModule (type : String)
  | badSlot
  | unknownModuleType (type composite : String) (known : List String)
  | slotTaken (moduleName : String)
  | noSlots (type : String)
  | powerNotFinite (power : Double)
  | notForOscillators
  | unknownOscillatorField (key : String)
  | noSuchChannel (type channel : String) (available : List String)
  | invalidMode (mode : String)
  | fixedKind (fixed mode : ChannelKind)
  | modeMissing
  | complexOnly
  | downconverterNotFinite (frequency : Double)
  -- the hardware options
  | badPortClock (fault : PortClock.Fault)
  | notFinite (field : String) (value : Double)
  | outOfBounds (field : String) (value : Double)
  | givenTwice
  -- the connectivity
  | deviceTwice (name : String)
  | noObject
  | channelTwice
  | badPort (port : String)
  | emptyClock (port : String)
  -- the documents against each other
  | notConnected
  | modeDisagrees (mode : ChannelKind) (portClock : PortClock) (kind : ChannelKind)
  | oscillatorBuiltIn (builtIn : OscillatorRef) (name : String)
  | oscillatorOnDigital (name : String)
  | notAnOscillator (name type : String)
  | unknownOscillator (name : String)
  | noChannelOnUnit (unit type channel : String)
  | channelNotDescribed (channel : ChannelPath)
  | instrumentNotDescribed (name : String)

namespace Cause

/-- what is said of options of a port-clock that is not connected -/
def notConnectedMessage : String := "Port-clock has hardware options but is not connected"

def message : Cause → String
  | note text => text
  | shape fault => fault.message
  | duplicate violation => violation.message
  | unknownBackend identifier => s!"'{identifier}' does not name a supported backend (qblox, zhinst)"
  | unknownType type backend => s!"Unknown instrument type '{type}' for backend '{backend.text}'"
  | moduleOutsideSlot type =>
    s!"'{type}' is a module type and must be placed in a slot of a composite instrument"
  | referenceNotApplicable => "Field 'ref' is not applicable to this instrument"
  | unknownReference reference known =>
    s!"Invalid reference source '{reference}', expected one of: " ++ Text.join ", " known
  | powerNotApplicable => "Field 'power' only applies to local oscillators"
  | channelOutsideModule type => s!"Channels of '{type}' must be described on its modules"
  | badSlot => "Module slots must be integers, e.g. '1', or 'module<slot>'"
  | unknownModuleType type composite known =>
    s!"Unrecognized module type '{type}' for '{composite}', expected one of: " ++ Text.join ", " known
  | slotTaken moduleName => s!"Slot '{moduleName}' is used twice"
  | noSlots type => s!"'{type}' does not have module slots"
  | powerNotFinite power => s!"Power must be finite, got {power.plain}"
  | notForOscillators => "Fields 'modules' and 'ref' are not applicable to local oscillators"
  | unknownOscillatorField key => s!"Unknown field '{key}' for a local oscillator"
  | noSuchChannel type channel available =>
    s!"'{type}' has no channel '{channel}', available: " ++ Text.join ", " available
  | invalidMode mode => s!"Invalid mode '{mode}', expected 'complex' or 'real'"
  | fixedKind fixed mode => s!"Channel is of kind '{fixed.text}', but mode '{mode.text}' was given"
  | modeMissing => "Channel must declare its 'mode'"
  | complexOnly => "Fields 'mix_lo' and 'downconverter_freq' only apply to complex channels"
  | downconverterNotFinite frequency => s!"Downconverter frequency must be finite, got {frequency.plain}"
  | badPortClock fault => fault.message
  | notFinite field value => s!"'{field}' must be finite, got {value.plain}"
  | outOfBounds field value => s!"'{field}' must lie in [-1, 1], got {value.plain}"
  | givenTwice => "Port-clock is given more than once in this category"
  | deviceTwice name => s!"Device '{name}' is listed more than once"
  | noObject => "Expected an object"
  | channelTwice => "Channel is listed more than once"
  | badPort port => s!"Port '{port}' must have the form 'element:line'"
  | emptyClock port => s!"Port '{port}' has an empty clock"
  | notConnected => notConnectedMessage
  | modeDisagrees mode pc kind =>
    s!"Mode '{mode.text}' of '{pc.text}' disagrees with the described kind '{kind.text}'"
  | oscillatorBuiltIn builtIn name =>
    s!"Channel is fed by the integrated local oscillator '{builtIn.text}', external local oscillator '{name}' " ++
      "cannot be connected"
  | oscillatorOnDigital name => s!"Digital channels cannot be fed by local oscillator '{name}'"
  | notAnOscillator name type => s!"'{name}' is a '{type}', not a local oscillator"
  | unknownOscillator name => s!"Local oscillator '{name}' is not in the hardware description"
  | noChannelOnUnit unit type channel => s!"'{unit}' of type '{type}' has no channel '{channel}'"
  | channelNotDescribed channel => s!"Channel '{channel.text}' is not in the hardware description"
  | instrumentNotDescribed name => s!"Instrument '{name}' is not in the hardware description"

end Cause

/-- a problem and its place, such as `connectivity.cluster0.module1.complex_output_0` -/
structure Issue where
  location : String
  cause : Cause

namespace Issue

def message (issue : Issue) : String := issue.cause.message

/-- the line of the issue in a report -/
def text (issue : Issue) : String := s!"  - {issue.location}: {issue.message}"

/-- a violation as an issue -/
def ofViolation (violation : Violation) : Issue := ⟨violation.location, .duplicate violation⟩

end Issue

/-- all problems of one stage, in the order they were found -/
abbrev Report := List Issue

namespace Report

/-- one line for each issue -/
def text (report : Report) : String := Text.join "\n" (report.map Issue.text)

/-- the causes at one place, in order -/
def located (location : String) (causes : List Cause) : Report := causes.map fun cause => ⟨location, cause⟩

end Report

end RackMap
