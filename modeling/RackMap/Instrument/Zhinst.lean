/-
Settings of Zurich Instruments devices: one port-clock for each channel.
-/
import RackMap.Instrument.Fault
import RackMap.Instrument.Oscillators

namespace RackMap.Instrument

open RackMap.Decimal (Double)

/-- the settings of a channel -/
structure OutputSettings where
  port : String
  clock : String
  mode : ChannelKind
  /-- the frequency that the instrument modulates with, `none` if it does not -/
  modulation? : Option Double
  lo? : Option String
  gain1? : Option Double
  gain2? : Option Double
  latency? : Option Double
  mixer? : Option MixerCorrection
deriving DecidableEq, Repr

/-- the settings of all channels, by device and channel name, and of the oscillators, by name -/
structure ZhinstSettings where
  devices : Table String (Table String OutputSettings)
  oscillators : Table String OscillatorSettings
deriving Repr

namespace OutputSettings

def modulationJson : Option Double → Json
  | some frequency => .obj [("type", .str "modulate"), ("interm_freq", .ofDouble frequency)]
  | none => .obj [("type", .str "none")]

def toJson (s : OutputSettings) : Json :=
  .obj ([("port", .str s.port), ("clock", .str s.clock), ("mode", s.mode.toJson),
    ("modulation", modulationJson s.modulation?)] ++
    Json.member? "local_oscillator" .str s.lo? ++ Json.member? "gain1" .ofDouble s.gain1? ++
    Json.member? "gain2" .ofDouble s.gain2? ++ Json.member? "latency" .ofDouble s.latency? ++
    Json.member? "mixer_corrections" MixerCorrection.toJson s.mixer?)

end OutputSettings

namespace ZhinstSettings

def toJson (s : ZhinstSettings) : Json :=
  .obj [("devices", .obj (List.map (fun device =>
      (device.1, .obj (List.map (fun p => (p.1, p.2.toJson)) device.2))) s.devices)),
    ("local_oscillators", OscillatorSettings.tableJson s.oscillators)]

end ZhinstSettings

namespace Zhinst

/-- the settings of a channel -/
def output (path : ChannelPath) (channel : CompiledChannel) : Except Fault OutputSettings :=
  match channel.portClocks with
  | [entry] =>
    let settings (lo? : Option String) : OutputSettings := {
      port := entry.portClock.port
      clock := entry.portClock.clock
      mode := channel.kind
      modulation? := entry.frequencies.interm?
      lo? := lo?
      gain1? := entry.corrections.outputGain?.map OutputGain.gainI
      gain2? := entry.corrections.outputGain?.map OutputGain.gainQ
      latency? := entry.corrections.latency?
      mixer? := entry.corrections.mixer? }
    match channel.oscillator?.map CompiledOscillator.lo with
    | none => .ok (settings none)
    | some (.external name) => .ok (settings (some name))
    | some (.integrated module index) => .error (.builtInOscillator (.integrated module index))
  | entries => .error (.notOnePortClock path entries.length)

/-- the settings of all devices with those of one channel -/
def addChannel (devices : Table String (Table String OutputSettings)) (entry : ChannelPath × CompiledChannel) :
    Except Fault (Table String (Table String OutputSettings)) := do
  let (path, channel) := entry
  let settings ← output path channel
  let outputs := (devices.lookup? path.instrument).getD []
  return devices.putSorted path.instrument (outputs.putSorted path.name settings)

/-- the settings of a map that was compiled for this backend -/
def generate (m : CompiledMap) : Except Fault ZhinstSettings := do
  if m.backend ≠ .zhinst then .error (.backendMismatch .zhinst m.backend)
  else
    let devices ← m.channels.foldlM addChannel []
    return ⟨devices, OscillatorSettings.ofMap m⟩

end Zhinst

end RackMap.Instrument
