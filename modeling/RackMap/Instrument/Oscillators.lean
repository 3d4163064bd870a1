/-
Settings of the standalone oscillators that feed a channel.
-/
import RackMap.CompiledMap

namespace RackMap.Instrument

open RackMap.Decimal (Double)

/-- the settings of an oscillator; the power is in dBm -/
structure OscillatorSettings where
  power? : Option Double
  frequency? : Option Double
deriving DecidableEq, Repr

namespace OscillatorSettings

def toJson (s : OscillatorSettings) : Json :=
  .obj [("power", .ofOption .ofDouble s.power?), ("frequency", .ofOption .ofDouble s.frequency?)]

/-- the settings of the oscillator of a channel, if it is an external one -/
def ofChannel? (channel : CompiledChannel) : Option (String × OscillatorSettings) :=
  match channel.oscillator? with
  | some ⟨.external name, frequency?, power?⟩ => some (name, ⟨power?, frequency?⟩)
  | _ => none

/-- the settings of all external oscillators of a map, by name -/
def ofMap (m : CompiledMap) : Table String OscillatorSettings :=
  Table.sortedOfPairs (m.channels.values.filterMap ofChannel?)

/-- the JSON form of settings by name -/
def tableJson (t : Table String OscillatorSettings) : Json := .obj (List.map (fun p => (p.1, p.2.toJson)) t)

end OscillatorSettings

end RackMap.Instrument
