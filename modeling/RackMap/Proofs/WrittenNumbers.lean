/-
The written form of a map with finite numbers.

A `null` on a written map stands for a frequency that is not given, or it is given itself in the arguments of a filter;
`blanks` counts these. If the numbers of the map are finite, then its written form has no other `null`
(`CompiledMap.nulls_toJson`), so no number is written as one.
-/
import Mathlib.Tactic
import RackMap.Proofs.Numbers

namespace RackMap

open RackMap.Decimal (Double)

/-! ## Frequencies -/

def Split.blanks (s : Split) : Nat := absent s.interm? + absent s.lo?

theorem Split.nulls_toJson {s : Split} (h : AllFinite s.numbers) : s.toJson.nulls = s.blanks := by
  obtain ⟨hinterm, hlo⟩ := allFinite_append.1 h
  simp [Split.toJson, Json.nulls_ofOption hinterm, Json.nulls_ofOption hlo, Split.blanks]

theorem OscillatorRef.memberNulls_members (lo : OscillatorRef) : Json.memberNulls lo.members = 0 := by
  cases lo <;> simp [OscillatorRef.members]

def CompiledOscillator.blanks (o : CompiledOscillator) : Nat := absent o.frequency?

theorem CompiledOscillator.nulls_toJson {o : CompiledOscillator} (h : AllFinite o.numbers) :
    o.toJson.nulls = o.blanks := by
  obtain ⟨hfrequency, hpower⟩ := allFinite_append.1 h
  simp [CompiledOscillator.toJson, OscillatorRef.memberNulls_members, Json.nulls_ofOption hfrequency,
    Json.memberNulls_member?_ofDouble hpower, CompiledOscillator.blanks]

theorem OpenFrequency.nulls_toJson (u : OpenFrequency) : u.toJson.nulls = 0 := by
  have hslot : u.slot.toJson.nulls = 0 := by
    cases u.slot <;> rfl
  simp [OpenFrequency.toJson, PortClock.toJson, OscillatorRef.toJson, OscillatorRef.memberNulls_members, hslot]

/-! ## Options -/

def Modulation.blanks (m : Modulation) : Nat := absent m.interm? + absent m.lo?

theorem Modulation.nulls_toJson {m : Modulation} (h : AllFinite m.numbers) : m.toJson.nulls = m.blanks := by
  obtain ⟨hinterm, hlo⟩ := allFinite_append.1 h
  simp [Modulation.toJson, Json.nulls_ofOption hinterm, Json.nulls_ofOption hlo, Modulation.blanks]

theorem MixerCorrection.nulls_toJson {m : MixerCorrection} (h : AllFinite m.numbers) : m.toJson.nulls = 0 := by
  obtain ⟨h, hoffsetQ⟩ := allFinite_append.1 h
  obtain ⟨h, hoffsetI⟩ := allFinite_append.1 h
  obtain ⟨hratio, hphase⟩ := allFinite_append.1 h
  simp [MixerCorrection.toJson, Json.memberNulls_member?_ofDouble hratio, Json.memberNulls_member?_ofDouble hphase,
    Json.memberNulls_member?_ofDouble hoffsetI, Json.memberNulls_member?_ofDouble hoffsetQ]

/-- the clipping values are both there or both left out -/
theorem Distortion.nulls_toJson {d : Distortion} (h : AllFinite d.numbers) :
    d.toJson.nulls = Json.memberNulls d.kwargs := by
  unfold Distortion.toJson
  unfold Distortion.numbers at h
  cases hclipping : d.clipping? with
  | none => simp [Json.member?]
  | some clipping =>
    rw [hclipping] at h
    have hlow : clipping.1.isFinite = true := h _ (by simp)
    have hhigh : clipping.2.isFinite = true := h _ (by simp)
    simp [Json.member?, Json.nulls_ofDouble hlow, Json.nulls_ofDouble hhigh]

theorem OutputGain.nulls_toJson {g : OutputGain} (h : AllFinite [g.gainI, g.gainQ]) : g.toJson.nulls = 0 := by
  have hgainI : g.gainI.isFinite = true := h _ (by simp)
  have hgainQ : g.gainQ.isFinite = true := h _ (by simp)
  simp [OutputGain.toJson, Json.nulls_ofDouble hgainI, Json.nulls_ofDouble hgainQ]

@[simp] theorem InputGain.nulls_toJson (g : InputGain) : g.toJson.nulls = 0 := by
  cases g <;> simp [InputGain.toJson]

theorem SequencerOptions.nulls_toJson {o : SequencerOptions} (h : AllFinite o.numbers) : o.toJson.nulls = 0 := by
  obtain ⟨hbounded, hthreshold⟩ := allFinite_append.1 h
  rw [allFinite_flatMap] at hbounded
  have hmembers : ∀ fields : List (String × Option Double), (∀ p ∈ fields, AllFinite p.2.toList) →
      Json.memberNulls (fields.flatMap fun p => Json.member? p.1 .ofDouble p.2) = 0 := by
    intro fields hfields
    induction fields with
    | nil => rfl
    | cons p rest ih =>
      obtain ⟨hp, hrest⟩ := List.forall_mem_cons.1 hfields
      rw [List.flatMap_cons, Json.memberNulls_append, Json.memberNulls_member?_ofDouble hp, ih hrest]
  simp [SequencerOptions.toJson, hmembers _ hbounded, Json.memberNulls_member?_ofDouble hthreshold]

namespace CorrectionSet

variable {set : CorrectionSet}

/-- the numbers of each value of a set are among those of the set -/
theorem allFinite_of_get (h : AllFinite set.numbers) (kind : OptionKind) {value : kind.Value}
    (hvalue : kind.category.get set = some value) : AllFinite (kind.numbers value) :=
  allFinite_flatMap.1 (allFinite_flatMap.1 h kind kind.mem_all) value (Option.mem_toList.2 hvalue)

def blanks (set : CorrectionSet) : Nat :=
  (set.distortion?.map fun d => Json.memberNulls d.kwargs).getD 0 + (set.modulation?.map Modulation.blanks).getD 0

/-- the frequencies that are asked for are the one value in which something that is left out shows -/
theorem nulls_toJson (h : AllFinite set.numbers) : set.toJson.nulls = set.blanks := by
  have hlatency : AllFinite set.latency?.toList :=
    allFinite_toList.2 fun x hx => allFinite_of_get h .latency hx x (List.mem_singleton_self x)
  have hdistortion : ∀ d, set.distortion? = some d → d.toJson.nulls = Json.memberNulls d.kwargs :=
    fun d hd => Distortion.nulls_toJson (allFinite_of_get h .distortion hd)
  have hmodulation : ∀ m, set.modulation? = some m → m.toJson.nulls = m.blanks :=
    fun m hm => Modulation.nulls_toJson (allFinite_of_get h .modulation hm)
  have hmixer : ∀ m, set.mixer? = some m → m.toJson.nulls = 0 :=
    fun m hm => MixerCorrection.nulls_toJson (allFinite_of_get h .mixer hm)
  have houtputGain : ∀ g, set.outputGain? = some g → g.toJson.nulls = 0 :=
    fun g hg => OutputGain.nulls_toJson (allFinite_of_get h .outputGain hg)
  have hsequencer : ∀ o, set.sequencer? = some o → o.toJson.nulls = 0 :=
    fun o ho => SequencerOptions.nulls_toJson (allFinite_of_get h .sequencer ho)
  simp [CorrectionSet.toJson, Json.memberNulls_member?_ofDouble hlatency, Json.memberNulls_member? hdistortion,
    Json.memberNulls_member? hmodulation, Json.memberNulls_member?_eq_zero hmixer,
    Json.memberNulls_member?_eq_zero houtputGain, Json.memberNulls_member?_eq_zero hsequencer, blanks]

end CorrectionSet

/-! ## Maps -/

def CompiledPortClock.blanks (entry : CompiledPortClock) : Nat := entry.frequencies.blanks + entry.corrections.blanks

theorem CompiledPortClock.nulls_toJson {entry : CompiledPortClock} (h : AllFinite entry.numbers) :
    entry.toJson.nulls = entry.blanks := by
  obtain ⟨hsplit, hcorrections⟩ := allFinite_append.1 h
  unfold CompiledPortClock.toJson
  split
  · rename_i hempty
    have hblanks : entry.corrections.blanks = 0 := by
      simp only [CorrectionSet.isEmpty, Bool.and_eq_true, Option.isNone_iff_eq_none] at hempty
      simp [CorrectionSet.blanks, hempty]
    simp [PortClock.toJson, Split.nulls_toJson hsplit, CompiledPortClock.blanks, hblanks]
  · simp [PortClock.toJson, Split.nulls_toJson hsplit, CorrectionSet.nulls_toJson hcorrections, CompiledPortClock.blanks]

def CompiledChannel.blanks (c : CompiledChannel) : Nat :=
  (c.oscillator?.map CompiledOscillator.blanks).getD 0 + (c.portClocks.map CompiledPortClock.blanks).sum

theorem CompiledChannel.nulls_toJson {c : CompiledChannel} (h : AllFinite c.numbers) : c.toJson.nulls = c.blanks := by
  obtain ⟨h, hentries⟩ := allFinite_append.1 h
  obtain ⟨hoscillator, hdownconverter⟩ := allFinite_append.1 h
  rw [allFinite_flatMap] at hoscillator hentries
  have hlo : ∀ o, c.oscillator? = some o → o.toJson.nulls = o.blanks :=
    fun o ho => CompiledOscillator.nulls_toJson (hoscillator o (Option.mem_toList.2 ho))
  simp [CompiledChannel.toJson, ChannelKind.toJson, Direction.toJson, Json.memberNulls_member? hlo,
    Json.memberNulls_member?_ofDouble hdownconverter,
    Json.itemNulls_map fun entry hentry => CompiledPortClock.nulls_toJson (hentries entry hentry),
    CompiledChannel.blanks]

/-- the frequencies that a map leaves out, and the `null`s in the arguments of its filters -/
def CompiledMap.blanks (m : CompiledMap) : Nat := (m.channels.map fun q => q.2.blanks).sum

/-- **Written maps.** Where the numbers are finite, a `null` is a frequency that is left out, or is given in the arguments
of a filter. -/
theorem CompiledMap.nulls_toJson {m : CompiledMap} (h : AllFinite m.numbers) : m.toJson.nulls = m.blanks := by
  have hchannels : Json.memberNulls (List.map (fun q => (q.1.text, q.2.toJson)) m.channels) = m.blanks :=
    Json.memberNulls_map _ fun q hq => CompiledChannel.nulls_toJson (allFinite_flatMap.1 h q hq)
  have hunresolved : ∀ u ∈ m.unresolved, u.toJson.nulls = 0 := fun u _ => OpenFrequency.nulls_toJson u
  have hwarnings : ∀ text ∈ m.warnings, (Json.str text).nulls = 0 := fun _ _ => rfl
  simp [CompiledMap.toJson, Backend.toJson, hchannels, Json.itemNulls_map hunresolved, Json.ofStrings,
    Json.itemNulls_map hwarnings]

end RackMap
