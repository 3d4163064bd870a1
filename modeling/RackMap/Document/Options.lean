/-
The hardware options: per category a list of values, each under the written port-clock that it is for.

Repeated keys are kept, so that they can be reported.
-/
import RackMap.Correction
import RackMap.Shape.Form

namespace RackMap

open RackMap.Shape
open RackMap.Decimal (Double)

/-- keys with their values in the order of the text -/
abbrev Entries (α : Type) := List (String × α)

/-- the options by category -/
structure HardwareOptions where
  latency? : Option (Entries Double) := none
  distortion? : Option (Entries Distortion) := none
  modulation? : Option (Entries Modulation) := none
  mixer? : Option (Entries MixerCorrection) := none
  outputAtt? : Option (Entries Nat) := none
  inputAtt? : Option (Entries Nat) := none
  outputGain? : Option (Entries OutputGain) := none
  inputGain? : Option (Entries InputGain) := none
  sequencer? : Option (Entries SequencerOptions) := none
deriving Repr, Inhabited

namespace Distortion

/-- an array of two numbers -/
def readClipping : Reader (Double × Double)
  | .arr items ending =>
    match items with
    | [] => do
      Reader.close ending
      .error (.invalidLength 0 "an array of length 2")
    | [low] => do
      let _ ← Reader.double low
      Reader.close ending
      .error (.invalidLength 1 "an array of length 2")
    | low :: high :: left => do
      let low ← Reader.double low
      let high ← Reader.double high
      Reader.endItems items.length left ending
      return (low, high)
  | e => Reader.mismatch "an array of length 2" e

def form : Form Distortion where
  typeName := "DistortionCorrection"
  fields := [
    .required "filter_func" Reader.text fun d v => { d with filter := v },
    .required "input_var_name" Reader.text fun d v => { d with inputName := v },
    .withDefault "kwargs" (Reader.map Reader.any) fun d v => { d with kwargs := v },
    .optional "clipping_values" readClipping fun d v => { d with clipping? := v }]
  start := ⟨"", "", [], none⟩
  others := .refuse

def read : Reader Distortion := form.read

end Distortion

namespace Modulation

def form : Form Modulation where
  typeName := "ModulationFrequencies"
  fields := [
    .optional "interm_freq" Reader.double fun m v => { m with interm? := v },
    .optional "lo_freq" Reader.double fun m v => { m with lo? := v }]
  start := Modulation.none
  others := .refuse

def read : Reader Modulation := form.read

end Modulation

namespace MixerCorrection

def form : Form MixerCorrection where
  typeName := "MixerCorrections"
  fields := [
    .optional "amp_ratio" Reader.double fun m v => { m with ampRatio? := v },
    .optional "phase_error" Reader.double fun m v => { m with phaseError? := v },
    (Shape.Field.optional "dc_offset_i" Reader.double fun m v => { m with offsetI? := v }).spelled
      ["dc_offset_I", "dc_offset_i"],
    (Shape.Field.optional "dc_offset_q" Reader.double fun m v => { m with offsetQ? := v }).spelled
      ["dc_offset_Q", "dc_offset_q"]]
  start := MixerCorrection.none
  others := .refuse

def read : Reader MixerCorrection := form.read

end MixerCorrection

namespace OutputGain

def form : Form OutputGain where
  typeName := "OutputGain"
  fields := [
    .required "gain_I" Reader.double fun g v => { g with gainI := v },
    .required "gain_Q" Reader.double fun g v => { g with gainQ := v }]
  start := ⟨.zero, .zero⟩
  others := .refuse

def read : Reader OutputGain := form.read

end OutputGain

namespace InputGain

/-- the two gains of an object, whatever other keys it has -/
def complexForm : Form (Int × Int) where
  typeName := "InputGain"
  fields := [
    .required "gain_I" Reader.signed fun g v => (v, g.2),
    .required "gain_Q" Reader.signed fun g v => (g.1, v)]
  start := (0, 0)
  others := .ignore

/-- one integer, or an object with the gains of both paths -/
def ofJson (json : Json) : Except Fault InputGain :=
  let gain? : Except Fault InputGain :=
    match json with
    | .obj _ => (complexForm.read.ofTree json).map fun g => complex g.1 g.2
    | json => (Reader.signed.ofTree json).map real
  gain?.mapError fun _ => .noVariant "InputGain"

/-- the text is read to the end of the gain before its shape is looked at -/
def read : Reader InputGain := fun e => do ofJson (← Reader.tree e)

end InputGain

namespace SequencerOptions

def form : Form SequencerOptions where
  typeName := "SequencerOptions"
  fields := [
    .optional "init_offset_awg_path_0" Reader.double fun o v => { o with offset0? := v },
    .optional "init_offset_awg_path_1" Reader.double fun o v => { o with offset1? := v },
    .optional "init_gain_awg_path_0" Reader.double fun o v => { o with gain0? := v },
    .optional "init_gain_awg_path_1" Reader.double fun o v => { o with gain1? := v },
    .optional "ttl_acq_threshold" Reader.double fun o v => { o with threshold? := v }]
  start := SequencerOptions.none
  others := .refuse

def read : Reader SequencerOptions := form.read

end SequencerOptions

namespace HardwareOptions

/-- a category, which may be absent -/
def category {α : Type} (name : String) (read : Reader α)
    (put : HardwareOptions → Option (Entries α) → HardwareOptions) : Shape.Field HardwareOptions :=
  (Shape.Field.optional name (Reader.entries "an object keyed by port-clock" read) put).defaulted

def form : Form HardwareOptions where
  typeName := "HardwareOptions"
  fields := [
    category "latency_corrections" Reader.double fun o v => { o with latency? := v },
    category "distortion_corrections" Distortion.read fun o v => { o with distortion? := v },
    category "modulation_frequencies" Modulation.read fun o v => { o with modulation? := v },
    category "mixer_corrections" MixerCorrection.read fun o v => { o with mixer? := v },
    category "output_att" Reader.unsigned fun o v => { o with outputAtt? := v },
    category "input_att" Reader.unsigned fun o v => { o with inputAtt? := v },
    category "output_gain" OutputGain.read fun o v => { o with outputGain? := v },
    category "input_gain" InputGain.read fun o v => { o with inputGain? := v },
    category "sequencer_options" SequencerOptions.read fun o v => { o with sequencer? := v }]
  start := {}
  others := .refuse

def read : Reader HardwareOptions := form.read

end HardwareOptions

end RackMap
