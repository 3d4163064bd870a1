/-
Settings of Qblox clusters and pulsars: for each module what holds for all of it, and a sequencer for each port-clock.

The channels are taken in the order of their paths, so the sequencers of a module are numbered along its channels. A
setting that nobody asks for is left out and stays as it is on the instrument.
-/
import RackMap.Decimal.Numeral
import RackMap.Instrument.Fault
import RackMap.Instrument.Oscillators
import RackMap.Journal

namespace RackMap.Instrument

open RackMap.Decimal (Double)

/-- the settings of the sequencer of a port-clock -/
structure SequencerSettings where
  index : Nat
  portClock : PortClock
  /-- the name of the channel that it drives or reads -/
  ioName : String
  /-- whether the oscillator of the sequencer runs -/
  ncoEnabled : Bool
  modulation? : Option Double
  gainRatio : Double
  phaseOffset : Double
  offset0 : Double
  offset1 : Double
  gain0 : Double
  gain1 : Double
  threshold? : Option Double
deriving DecidableEq, Repr

/-- the settings of a module -/
structure ModuleSettings where
  unitType : String
  lo0? : Option Double := none
  lo1? : Option Double := none
  out0Att? : Option Nat := none
  out1Att? : Option Nat := none
  in0Att? : Option Nat := none
  in0Gain? : Option Int := none
  in1Gain? : Option Int := none
  offset00? : Option Double := none
  offset01? : Option Double := none
  offset10? : Option Double := none
  offset11? : Option Double := none
  sequencers : List SequencerSettings := []
deriving DecidableEq, Repr

/-- the settings of all modules, by path, and of the external oscillators, by name -/
structure QbloxSettings where
  modules : Table String ModuleSettings
  oscillators : Table String OscillatorSettings
deriving Repr

/-! ## JSON form -/

namespace SequencerSettings

def toJson (s : SequencerSettings) : Json :=
  .obj ([("index", .ofNat s.index), ("port_clock", s.portClock.toJson), ("io_name", .str s.ioName),
    ("nco_en", .bool s.ncoEnabled), ("modulation_freq", .ofOption .ofDouble s.modulation?),
    ("mixer_corr_gain_ratio", .ofDouble s.gainRatio),
    ("mixer_corr_phase_offset_degree", .ofDouble s.phaseOffset),
    ("init_offset_awg_path_0", .ofDouble s.offset0), ("init_offset_awg_path_1", .ofDouble s.offset1),
    ("init_gain_awg_path_0", .ofDouble s.gain0), ("init_gain_awg_path_1", .ofDouble s.gain1)] ++
    Json.member? "ttl_acq_threshold" .ofDouble s.threshold?)

end SequencerSettings

namespace ModuleSettings

def toJson (m : ModuleSettings) : Json :=
  .obj ([("instrument_type", .str m.unitType)] ++
    Json.member? "lo0_freq" .ofDouble m.lo0? ++ Json.member? "lo1_freq" .ofDouble m.lo1? ++
    Json.member? "out0_att" .ofNat m.out0Att? ++ Json.member? "out1_att" .ofNat m.out1Att? ++
    Json.member? "in0_att" .ofNat m.in0Att? ++
    Json.member? "in0_gain" .int m.in0Gain? ++ Json.member? "in1_gain" .int m.in1Gain? ++
    Json.member? "offset_ch0_path0" .ofDouble m.offset00? ++ Json.member? "offset_ch0_path1" .ofDouble m.offset01? ++
    Json.member? "offset_ch1_path0" .ofDouble m.offset10? ++ Json.member? "offset_ch1_path1" .ofDouble m.offset11? ++
    [("sequencers", .arr (m.sequencers.map SequencerSettings.toJson))])

end ModuleSettings

namespace QbloxSettings

def toJson (s : QbloxSettings) : Json :=
  .obj [("modules", .obj (List.map (fun p => (p.1, p.2.toJson)) s.modules)),
    ("local_oscillators", OscillatorSettings.tableJson s.oscillators)]

end QbloxSettings

/-! ## Making the settings -/

namespace Qblox

/-- a value that lies in a range -/
def inRange (setting : String) (pc : PortClock) (low high value : Double) : Except Fault Double :=
  if value.within low high then .ok value else .error (.outOfRange setting pc value low high)

/-- the number one half -/
def half : Double := Double.ofRatio false 1 2

/-- the sequencer of a port-clock; its oscillator runs at any given frequency but 0 -/
def sequencer (index : Nat) (ioName : String) (entry : CompiledPortClock) : Except Fault SequencerSettings := do
  let mixer := entry.corrections.mixer?.getD .none
  let options := entry.corrections.sequencer?.getD .none
  let gainRatio ← inRange "mixer_corr_gain_ratio" entry.portClock half (Double.ofInt 2)
    (mixer.ampRatio?.getD (Double.ofInt 1))
  let phaseOffset ← inRange "mixer_corr_phase_offset_degree" entry.portClock (Double.ofInt (-45)) (Double.ofInt 45)
    (mixer.phaseError?.getD .zero)
  return {
    index := index
    portClock := entry.portClock
    ioName := ioName
    ncoEnabled := entry.frequencies.interm?.any fun f => !f.same .zero
    modulation? := entry.frequencies.interm?
    gainRatio := gainRatio
    phaseOffset := phaseOffset
    offset0 := options.offset0?.getD .zero
    offset1 := options.offset1?.getD .zero
    gain0 := options.gain0?.getD (Double.ofInt 1)
    gain1 := options.gain1?.getD (Double.ofInt 1)
    threshold? := options.threshold? }

/-- the one value that all port-clocks asking for a setting agree on -/
def agreed {α : Type} (path : ChannelPath) (setting : String) (same : α → α → Bool) (shared : α → Shared)
    (value? : CompiledPortClock → Option α) (entries : List CompiledPortClock) : Except Fault (Option α) :=
  match entries.filterMap fun entry => (value? entry).map fun v => (entry.portClock, v) with
  | [] => .ok none
  | (pc, first) :: rest =>
    if ((pc, first) :: rest).all fun v => same v.2 first then .ok (some first)
    else .error (.conflicting path setting (((pc, first) :: rest).map fun v => (v.1, shared v.2)))

/-- the number at the end of a channel name, if it fits into a byte; a plus sign may stand before it -/
def ioIndex? (name : String) : Option Nat :=
  match Text.cutLast '_' name.toList with
  | none => none
  | some (_, index) =>
    let digits :=
      match index with
      | '+' :: rest => rest
      | _ => index
    if digits.isEmpty || !digits.all Char.isDigit then none
    else
      let n := Decimal.natOfDigits digits
      if n < 256 then some n else none

/-- whether a channel name speaks of an output -/
def isOutput (name : String) : Bool := Text.occursIn "output" name

/-- the frequency of the integrated oscillator of a channel -/
def applyOscillator (channel : CompiledChannel) (m : ModuleSettings) : ModuleSettings :=
  match channel.oscillator? with
  | some ⟨.integrated _ index, frequency?, _⟩ =>
    if index = 0 then { m with lo0? := frequency? } else { m with lo1? := frequency? }
  | _ => m

/-- the attenuation that the port-clocks of a channel ask for; only channels of RF modules have an attenuator -/
def applyAttenuation (path : ChannelPath) (index : Nat) (channel : CompiledChannel) (m : ModuleSettings) :
    Except Fault ModuleSettings := do
  let output := isOutput path.name
  let attenuation? ← agreed path "attenuation" (· == ·) .attenuation
    (fun entry => if output then entry.corrections.outputAtt? else entry.corrections.inputAtt?) channel.portClocks
  if attenuation?.isNone then return m
  else
    let isRf := (Backend.qblox.unitType? channel.unitType).any UnitType.hasOscillator
    match isRf, output, index with
    | true, true, 0 => return { m with out0Att? := attenuation? }
    | true, true, 1 => return { m with out1Att? := attenuation? }
    | true, false, 0 => return { m with in0Att? := attenuation? }
    | _, _, _ => .error (.noAttenuator path)

/-- the gain that the port-clocks of an input ask for -/
def applyGain (path : ChannelPath) (index : Nat) (channel : CompiledChannel) (m : ModuleSettings) :
    Except Fault ModuleSettings := do
  if isOutput path.name then return m
  else
    match ← agreed path "input_gain" (· == ·) .gain (fun entry => entry.corrections.inputGain?) channel.portClocks with
    | none => return m
    | some (.complex gainI gainQ) => return { m with in0Gain? := some gainI, in1Gain? := some gainQ }
    | some (.real gain) =>
      if index = 0 then return { m with in0Gain? := some gain } else return { m with in1Gain? := some gain }

/-- the mixer offsets that the port-clocks of a complex output ask for -/
def applyOffsets (path : ChannelPath) (index : Nat) (channel : CompiledChannel) (m : ModuleSettings) :
    Except Fault ModuleSettings := do
  if isOutput path.name && (Text.dropStart? "complex" path.name).isSome then
    let offsetI? ← agreed path "dc_offset_i" Double.same .offset
      (fun entry => entry.corrections.mixer?.bind MixerCorrection.offsetI?) channel.portClocks
    let offsetQ? ← agreed path "dc_offset_q" Double.same .offset
      (fun entry => entry.corrections.mixer?.bind MixerCorrection.offsetQ?) channel.portClocks
    if index = 0 then return { m with offset00? := offsetI?, offset01? := offsetQ? }
    else return { m with offset10? := offsetI?, offset11? := offsetQ? }
  else return m

/-- a sequencer more -/
def addSequencer (ioName : String) (m : ModuleSettings) (entry : CompiledPortClock) : Except Fault ModuleSettings := do
  let s ← sequencer m.sequencers.length ioName entry
  return { m with sequencers := m.sequencers ++ [s] }

/-- the settings of a module with those of one of its channels -/
def applyChannel (path : ChannelPath) (channel : CompiledChannel) (m : ModuleSettings) :
    Except Fault ModuleSettings := do
  match ioIndex? path.name with
  | none => .error (.badChannelName path.name)
  | some index =>
    let m := applyOscillator channel m
    let m ← applyAttenuation path index channel m
    let m ← applyGain path index channel m
    let m ← applyOffsets path index channel m
    channel.portClocks.foldlM (addSequencer path.name) m

/-- the settings of all modules with those of one channel -/
def addChannel (modules : Table String ModuleSettings) (entry : ChannelPath × CompiledChannel) :
    Except Fault (Table String ModuleSettings) := do
  let (path, channel) := entry
  match path.parent? with
  | none => .error (.noModule path)
  | some module =>
    let m := (modules.lookup? module).getD { unitType := channel.unitType }
    return modules.putSorted module (← applyChannel path channel m)

/-- how many sequencers a type has -/
def sequencerCount (unitType : String) : Nat := ((Backend.qblox.unitType? unitType).bind UnitType.sequencers?).getD 0

/-- a module with no more sequencers than its type has -/
def checkSequencers (entry : String × ModuleSettings) : Except Fault Unit :=
  let available := sequencerCount entry.2.unitType
  if entry.2.sequencers.length ≤ available then .ok ()
  else .error (.tooManySequencers entry.1 entry.2.sequencers.length available)

/-- the settings of a map that was compiled for this backend -/
def generate (m : CompiledMap) : Except Fault QbloxSettings := do
  if m.backend ≠ .qblox then .error (.backendMismatch .qblox m.backend)
  else
    let modules ← m.channels.foldlM addChannel []
    let _ ← modules.mapM checkSequencers
    return ⟨modules, OscillatorSettings.ofMap m⟩

/-- what is written while the settings are made: a warning for each frequency that stays open -/
def journal (m : CompiledMap) : Journal :=
  if m.backend ≠ .qblox then []
  else m.unresolved.flatMap fun u => Journal.warning .qblox s!"{u.text}, the setting is left untouched"

end Qblox

end RackMap.Instrument
