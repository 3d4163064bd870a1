/-
The option table: the hardware options of each port-clock, over all categories.

Entries are found by the written form of a port-clock. Keys are kept as written, without the blanks around them, in
the order in which the categories bring them up.
-/
import RackMap.Document.Options
import RackMap.Failure
import RackMap.Journal

namespace RackMap

open RackMap.Decimal (Double)

/-- the options by written port-clock -/
structure OptionTable where
  entries : Table String CorrectionSet
deriving Repr, Inhabited

/-- a kind of option: where it stands in a correction set, and what may be wrong with a value -/
structure OptionCategory (α : Type) where
  name : String
  given : HardwareOptions → Option (Entries α)
  get : CorrectionSet → Option α
  put : CorrectionSet → α → CorrectionSet
  causes : α → List Cause

namespace OptionCategory

/-- the cause of a number that is not finite -/
def finiteCauses (field : String) (value? : Option Double) : List Cause :=
  (value?.toList.filter (fun x => !x.isFinite)).map (.notFinite field)

/-- the cause of a number that does not lie in [-1, 1] -/
def boundCauses (field : String) (value? : Option Double) : List Cause :=
  (value?.toList.filter (fun x => !x.within (Double.ofInt (-1)) (Double.ofInt 1))).map (.outOfBounds field)

def latency : OptionCategory Double where
  name := "latency_corrections"
  given := HardwareOptions.latency?
  get := CorrectionSet.latency?
  put := fun c v => { c with latency? := some v }
  causes := fun v => finiteCauses "latency" (some v)

def distortion : OptionCategory Distortion where
  name := "distortion_corrections"
  given := HardwareOptions.distortion?
  get := CorrectionSet.distortion?
  put := fun c v => { c with distortion? := some v }
  causes := fun v =>
    finiteCauses "clipping_values[0]" (v.clipping?.map Prod.fst) ++
      finiteCauses "clipping_values[1]" (v.clipping?.map Prod.snd)

def modulation : OptionCategory Modulation where
  name := "modulation_frequencies"
  given := HardwareOptions.modulation?
  get := CorrectionSet.modulation?
  put := fun c v => { c with modulation? := some v }
  causes := fun v => finiteCauses "interm_freq" v.interm? ++ finiteCauses "lo_freq" v.lo?

def mixer : OptionCategory MixerCorrection where
  name := "mixer_corrections"
  given := HardwareOptions.mixer?
  get := CorrectionSet.mixer?
  put := fun c v => { c with mixer? := some v }
  causes := fun v =>
    finiteCauses "amp_ratio" v.ampRatio? ++ finiteCauses "phase_error" v.phaseError? ++
      finiteCauses "dc_offset_i" v.offsetI? ++ finiteCauses "dc_offset_q" v.offsetQ?

def outputAtt : OptionCategory Nat where
  name := "output_att"
  given := HardwareOptions.outputAtt?
  get := CorrectionSet.outputAtt?
  put := fun c v => { c with outputAtt? := some v }
  causes := fun _ => []

def inputAtt : OptionCategory Nat where
  name := "input_att"
  given := HardwareOptions.inputAtt?
  get := CorrectionSet.inputAtt?
  put := fun c v => { c with inputAtt? := some v }
  causes := fun _ => []

def outputGain : OptionCategory OutputGain where
  name := "output_gain"
  given := HardwareOptions.outputGain?
  get := CorrectionSet.outputGain?
  put := fun c v => { c with outputGain? := some v }
  causes := fun v => finiteCauses "gain_I" (some v.gainI) ++ finiteCauses "gain_Q" (some v.gainQ)

def inputGain : OptionCategory InputGain where
  name := "input_gain"
  given := HardwareOptions.inputGain?
  get := CorrectionSet.inputGain?
  put := fun c v => { c with inputGain? := some v }
  causes := fun _ => []

def sequencer : OptionCategory SequencerOptions where
  name := "sequencer_options"
  given := HardwareOptions.sequencer?
  get := CorrectionSet.sequencer?
  put := fun c v => { c with sequencer? := some v }
  causes := fun v =>
    v.bounded.flatMap (fun p => boundCauses p.1 p.2) ++ finiteCauses "ttl_acq_threshold" v.threshold?

end OptionCategory

namespace OptionTable

/-- a table in the making with the problems found so far -/
structure Draft where
  table : Table String CorrectionSet
  report : Report

variable {α : Type}

/-- one entry of a category; the first fault of key, value and repetition keeps it out of the table -/
def Draft.addEntry (category : OptionCategory α) (d : Draft) (entry : String × α) : Draft :=
  let location := s!"hardware_options.{category.name}.{entry.1}"
  match PortClock.parse entry.1 with
  | .error fault => { d with report := d.report ++ [⟨location, .badPortClock fault⟩] }
  | .ok _ =>
    match category.causes entry.2 with
    | [] =>
      let key := Text.trim entry.1
      let set := (d.table.lookup? key).getD .empty
      if (category.get set).isSome then { d with report := d.report ++ [⟨location, .givenTwice⟩] }
      else { d with table := d.table.put key (category.put set entry.2) }
    | causes => { d with report := d.report ++ Report.located location causes }

/-- all entries of a category -/
def Draft.addCategory (category : OptionCategory α) (options : HardwareOptions) (d : Draft) : Draft :=
  ((category.given options).getD []).foldl (Draft.addEntry category) d

/-- all categories, one after the other -/
def draft (options : HardwareOptions) : Draft :=
  let d : Draft := ⟨[], []⟩
  let d := d.addCategory .latency options
  let d := d.addCategory .distortion options
  let d := d.addCategory .modulation options
  let d := d.addCategory .mixer options
  let d := d.addCategory .outputAtt options
  let d := d.addCategory .inputAtt options
  let d := d.addCategory .outputGain options
  let d := d.addCategory .inputGain options
  d.addCategory .sequencer options

/-- the table of options without problems -/
def build (options : HardwareOptions) : Except Failure OptionTable :=
  let d := draft options
  if d.report.isEmpty then .ok ⟨d.table⟩ else .error (.schema d.report)

def empty : OptionTable := ⟨[]⟩

/-- the written port-clocks that have options -/
def keys (t : OptionTable) : List String := Table.keys t.entries

def size (t : OptionTable) : Nat := t.entries.length

def isEmpty (t : OptionTable) : Bool := t.entries.isEmpty

/-- the options of a port-clock, empty if there are none -/
def corrections (t : OptionTable) (pc : PortClock) : CorrectionSet := (t.entries.lookup? pc.text).getD .empty

/-- the frequencies asked for by a port-clock -/
def modulation (t : OptionTable) (pc : PortClock) : Modulation := (t.corrections pc).modulation?.getD .none

/-- what is written once a table is built -/
def journal (diagnostics : Bool) (t : OptionTable) : Journal :=
  Journal.diagnostic diagnostics .options s!"Hardware options for {t.size} port-clocks"

end OptionTable

end RackMap
