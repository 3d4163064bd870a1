/-
Hardware options: what may be set for a port-clock, and all that is set for one.
-/
import RackMap.Json.Value

namespace RackMap

open RackMap.Decimal (Double)

/-- a distortion filter with its arguments -/
structure Distortion where
  filter : String
  inputName : String
  kwargs : Table String Json
  clipping? : Option (Double × Double)
deriving Repr, Inhabited

/-- the frequencies asked for, in Hz -/
structure Modulation where
  interm? : Option Double
  lo? : Option Double
deriving DecidableEq, Repr, Inhabited

/-- the corrections of an IQ mixer; the phase error is in degrees -/
structure MixerCorrection where
  ampRatio? : Option Double
  phaseError? : Option Double
  offsetI? : Option Double
  offsetQ? : Option Double
deriving DecidableEq, Repr, Inhabited

/-- the gains of the two output paths -/
structure OutputGain where
  gainI : Double
  gainQ : Double
deriving DecidableEq, Repr, Inhabited

/-- the gain of one input path or of both -/
inductive InputGain where
  | real (gain : Int)
  | complex (gainI gainQ : Int)
deriving DecidableEq, Repr, Inhabited

/-- the initial values of a sequencer -/
structure SequencerOptions where
  offset0? : Option Double
  offset1? : Option Double
  gain0? : Option Double
  gain1? : Option Double
  threshold? : Option Double
deriving DecidableEq, Repr, Inhabited

/-- all that is set for one port-clock -/
structure CorrectionSet where
  /-- in seconds -/
  latency? : Option Double
  distortion? : Option Distortion
  modulation? : Option Modulation
  mixer? : Option MixerCorrection
  outputAtt? : Option Nat
  inputAtt? : Option Nat
  outputGain? : Option OutputGain
  inputGain? : Option InputGain
  sequencer? : Option SequencerOptions
deriving Repr, Inhabited

/-! ## Empty values -/

def Modulation.none : Modulation := ⟨.none, .none⟩

def MixerCorrection.none : MixerCorrection := ⟨.none, .none, .none, .none⟩

def SequencerOptions.none : SequencerOptions := ⟨.none, .none, .none, .none, .none⟩

def CorrectionSet.empty : CorrectionSet := ⟨none, none, none, none, none, none, none, none, none⟩

/-- whether nothing is set -/
def CorrectionSet.isEmpty (c : CorrectionSet) : Bool :=
  c.latency?.isNone && c.distortion?.isNone && c.modulation?.isNone && c.mixer?.isNone && c.outputAtt?.isNone &&
    c.inputAtt?.isNone && c.outputGain?.isNone && c.inputGain?.isNone && c.sequencer?.isNone

/-- the initial values that must lie in [-1, 1], by name -/
def SequencerOptions.bounded (o : SequencerOptions) : List (String × Option Double) :=
  [("init_offset_awg_path_0", o.offset0?), ("init_offset_awg_path_1", o.offset1?),
    ("init_gain_awg_path_0", o.gain0?), ("init_gain_awg_path_1", o.gain1?)]

/-! ## JSON forms: what is not set is left out -/

namespace Distortion

def toJson (d : Distortion) : Json :=
  .obj ([("filter_func", .str d.filter), ("input_var_name", .str d.inputName), ("kwargs", .obj d.kwargs)] ++
    Json.member? "clipping_values" (fun c => .arr [.ofDouble c.1, .ofDouble c.2]) d.clipping?)

end Distortion

namespace Modulation

/-- here what is not set shows as `null` -/
def toJson (m : Modulation) : Json :=
  .obj [("interm_freq", .ofOption .ofDouble m.interm?), ("lo_freq", .ofOption .ofDouble m.lo?)]

end Modulation

namespace MixerCorrection

def toJson (m : MixerCorrection) : Json :=
  .obj (Json.member? "amp_ratio" .ofDouble m.ampRatio? ++ Json.member? "phase_error" .ofDouble m.phaseError? ++
    Json.member? "dc_offset_i" .ofDouble m.offsetI? ++ Json.member? "dc_offset_q" .ofDouble m.offsetQ?)

end MixerCorrection

namespace OutputGain

def toJson (g : OutputGain) : Json := .obj [("gain_I", .ofDouble g.gainI), ("gain_Q", .ofDouble g.gainQ)]

end OutputGain

namespace InputGain

def toJson : InputGain → Json
  | real gain => .int gain
  | complex gainI gainQ => .obj [("gain_I", .int gainI), ("gain_Q", .int gainQ)]

end InputGain

namespace SequencerOptions

def toJson (o : SequencerOptions) : Json :=
  .obj (o.bounded.flatMap (fun p => Json.member? p.1 .ofDouble p.2) ++
    Json.member? "ttl_acq_threshold" .ofDouble o.threshold?)

end SequencerOptions

namespace CorrectionSet

def toJson (c : CorrectionSet) : Json :=
  .obj (Json.member? "latency_correction" .ofDouble c.latency? ++
    Json.member? "distortion_correction" Distortion.toJson c.distortion? ++
    Json.member? "modulation_frequencies" Modulation.toJson c.modulation? ++
    Json.member? "mixer_corrections" MixerCorrection.toJson c.mixer? ++
    Json.member? "output_att" .ofNat c.outputAtt? ++
    Json.member? "input_att" .ofNat c.inputAtt? ++
    Json.member? "output_gain" OutputGain.toJson c.outputGain? ++
    Json.member? "input_gain" InputGain.toJson c.inputGain? ++
    Json.member? "sequencer_options" SequencerOptions.toJson c.sequencer?)

end CorrectionSet

end RackMap
