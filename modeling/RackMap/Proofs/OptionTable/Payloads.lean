/-
The values of options, written and read back.

A compiled map writes the values of a port-clock in the same shapes in which a document gives them, up to spellings:
what is open is left out or `null`, and a spelling that a document may choose is fixed. So a value that is written is read
back as it was, if its numbers are finite and it is one of the machine's (`Fits`); a value that is read is one
(`fits_of_read`).
- `CorrectionSet.toJson_eq`: a set is written kind by kind;
- `OptionKind.read_toJson`: a value of any kind is read back;
- `HardwareOptions.fits_of_read`: all values of a document fit.
-/
import Mathlib.Tactic
import RackMap.Proofs.Document.Written
import RackMap.Proofs.Json.Collapse
import RackMap.Proofs.Numbers
import RackMap.Proofs.Shape.Written

namespace RackMap

open RackMap.Decimal (Double)
open RackMap.Json (Excerpt)
open RackMap.Shape

variable {kind : OptionKind} {e : Excerpt} {options : HardwareOptions}

/-! ## Forms of values -/

namespace OptionKind

/-- the member of a correction set that has the value -/
def fieldName : OptionKind → String
  | latency => "latency_correction"
  | distortion => "distortion_correction"
  | modulation => "modulation_frequencies"
  | mixer => "mixer_corrections"
  | outputAtt => "output_att"
  | inputAtt => "input_att"
  | outputGain => "output_gain"
  | inputGain => "input_gain"
  | sequencer => "sequencer_options"

theorem fieldName_inj : ∀ kind other : OptionKind, kind.fieldName = other.fieldName → kind = other := by
  intro kind other h
  cases kind <;> cases other <;> first | rfl | exact absurd h (by decide)

theorem nodup_all : all.Nodup := by
  decide

theorem name_inj : ∀ kind other : OptionKind, kind.category.name = other.category.name → kind = other := by
  intro kind other h
  cases kind <;> cases other <;> first | rfl | exact absurd h (by decide)

/-- how a value is written -/
def toJson : (kind : OptionKind) → kind.Value → Json
  | latency => Json.ofDouble
  | distortion => Distortion.toJson
  | modulation => Modulation.toJson
  | mixer => MixerCorrection.toJson
  | outputAtt => Json.ofNat
  | inputAtt => Json.ofNat
  | outputGain => OutputGain.toJson
  | inputGain => InputGain.toJson
  | sequencer => SequencerOptions.toJson

/-- how a value is read -/
def read : (kind : OptionKind) → Reader kind.Value
  | latency => Reader.double
  | distortion => Distortion.read
  | modulation => Modulation.read
  | mixer => MixerCorrection.read
  | outputAtt => Reader.unsigned
  | inputAtt => Reader.unsigned
  | outputGain => OutputGain.read
  | inputGain => InputGain.read
  | sequencer => SequencerOptions.read

end OptionKind

/-- a correction set is written kind by kind -/
theorem CorrectionSet.toJson_eq (set : CorrectionSet) :
    set.toJson = .obj (OptionKind.all.flatMap fun kind =>
      Json.member? kind.fieldName kind.toJson (kind.category.get set)) := by
  simp only [OptionKind.all, List.flatMap_cons, List.flatMap_nil, List.append_nil, toJson, List.append_assoc]
  rfl

/-! ## Values of the machine -/

/-- an integer of 64 bits -/
def IsSigned (n : Int) : Prop := -Int.ofNat (Nat.pow 2 63) ≤ n ∧ n < Int.ofNat (Nat.pow 2 63)

namespace Distortion

/-- the arguments of the filter are maps, which repeat no key -/
def Fits (d : Distortion) : Prop := (Json.obj d.kwargs).isUnrepeated = true

end Distortion

namespace InputGain

def Fits : InputGain → Prop
  | real gain => IsSigned gain
  | complex gainI gainQ => IsSigned gainI ∧ IsSigned gainQ

end InputGain

/-- whether a value is one of the machine's: attenuations have 32 bits, gains of inputs 64 and a sign -/
def OptionKind.Fits : (kind : OptionKind) → kind.Value → Prop
  | outputAtt, (value : Nat) => value < Nat.pow 2 32
  | inputAtt, (value : Nat) => value < Nat.pow 2 32
  | inputGain, (value : InputGain) => value.Fits
  | distortion, (value : Distortion) => value.Fits
  | latency, _ | modulation, _ | mixer, _ | outputGain, _ | sequencer, _ => True

/-- all values of the options are the machine's -/
def HardwareOptions.Fits (options : HardwareOptions) : Prop :=
  ∀ kind entries, (kind : OptionKind).category.given options = some entries → ∀ entry ∈ entries, kind.Fits entry.2

/-! ## Values that are read back -/

theorem Modulation.read_toJson {m : Modulation} (h : AllFinite m.numbers) :
    Modulation.read.ofTree m.toJson = .ok m := by
  obtain ⟨hinterm, hlo⟩ := allFinite_append.1 h
  rw [allFinite_toList] at hinterm hlo
  refine Form.read_of_takes (.nullable rfl (by decide) (fun _ _ => rfl) hinterm ?_)
  refine .nullable rfl (by decide) (fun _ _ => rfl) hlo (.nil ?_)
  decide

theorem MixerCorrection.read_toJson {m : MixerCorrection} (h : AllFinite m.numbers) :
    MixerCorrection.read.ofTree m.toJson = .ok m := by
  obtain ⟨h, hoffsetQ⟩ := allFinite_append.1 h
  obtain ⟨h, hoffsetI⟩ := allFinite_append.1 h
  obtain ⟨hratio, hphase⟩ := allFinite_append.1 h
  rw [allFinite_toList] at hratio hphase hoffsetI hoffsetQ
  rw [toJson, List.append_assoc, List.append_assoc, ← List.append_nil (Json.member? "dc_offset_q" _ _)]
  refine Form.read_of_takes (.number? rfl (by decide) (fun _ _ => rfl) hratio rfl ?_)
  refine .number? rfl (by decide) (fun _ _ => rfl) hphase rfl ?_
  refine .number? rfl (by decide) (fun _ _ => rfl) hoffsetI rfl ?_
  refine .number? rfl (by decide) (fun _ _ => rfl) hoffsetQ rfl (.nil ?_)
  decide

theorem OutputGain.read_toJson {g : OutputGain} (h : AllFinite [g.gainI, g.gainQ]) :
    OutputGain.read.ofTree g.toJson = .ok g := by
  obtain ⟨hgainI, hgainQ⟩ : g.gainI.isFinite = true ∧ g.gainQ.isFinite = true := by
    simpa [AllFinite] using h
  refine Form.read_of_takes (.number rfl (by decide) (fun _ _ => rfl) hgainI ?_)
  refine .number rfl (by decide) (fun _ _ => rfl) hgainQ (.nil ?_)
  decide

theorem SequencerOptions.read_toJson {o : SequencerOptions} (h : AllFinite o.numbers) :
    SequencerOptions.read.ofTree o.toJson = .ok o := by
  obtain ⟨hbounded, hthreshold⟩ := allFinite_append.1 h
  simp only [bounded, allFinite_flatMap, List.forall_mem_cons, allFinite_toList]
    at hbounded hthreshold
  obtain ⟨hoffset0, hoffset1, hgain0, hgain1, -⟩ := hbounded
  simp only [toJson, bounded, List.flatMap_cons, List.flatMap_nil, List.append_nil, List.append_assoc]
  rw [← List.append_nil (Json.member? "ttl_acq_threshold" _ _)]
  refine Form.read_of_takes (.number? rfl (by decide) (fun _ _ => rfl) hoffset0 rfl ?_)
  refine .number? rfl (by decide) (fun _ _ => rfl) hoffset1 rfl ?_
  refine .number? rfl (by decide) (fun _ _ => rfl) hgain0 rfl ?_
  refine .number? rfl (by decide) (fun _ _ => rfl) hgain1 rfl ?_
  refine .number? rfl (by decide) (fun _ _ => rfl) hthreshold rfl (.nil ?_)
  decide

theorem Distortion.read_toJson {d : Distortion} (h : AllFinite d.numbers) (hfits : d.Fits) :
    Distortion.read.ofTree d.toJson = .ok d := by
  obtain ⟨hlow, hhigh⟩ := allFinite_append.1 h
  rw [allFinite_toList] at hlow hhigh
  have hkwargs : ∀ before : Distortion, (Reader.map Reader.any (.ofJson (.obj d.kwargs))).map
      (fun v => { before with kwargs := v }) = .ok { before with kwargs := d.kwargs } := by
    intro before
    have hself : Table.ofPairs (Json.collapseMembers d.kwargs) = d.kwargs := by
      have hcollapse := Json.collapse_eq_self _ hfits
      rw [Json.collapse, Json.obj.injEq] at hcollapse
      exact hcollapse
    rw [Excerpt.ofJson, Reader.map, Reader.entries, Connectivity.mapM_entry_ofMembers]
    exact congrArg (fun kwargs => Except.ok { before with kwargs := kwargs }) hself
  have hclipping : ∀ c, d.clipping? = some c → ∀ before : Distortion,
      (Reader.nullable readClipping (.ofJson (.arr [.ofDouble c.1, .ofDouble c.2]))).map
        (fun v => { before with clipping? := v }) = .ok { before with clipping? := d.clipping? } := by
    intro c hc before
    have hlow : c.1.isFinite = true := hlow c.1 (by rw [hc]; rfl)
    have hhigh : c.2.isFinite = true := hhigh c.2 (by rw [hc]; rfl)
    rw [Json.ofDouble, Json.ofDouble, if_pos hlow, if_pos hhigh, hc]
    rfl
  rw [toJson, ← List.append_nil (Json.member? "clipping_values" _ _)]
  refine Form.read_of_takes (.member rfl (by decide) rfl (.member rfl (by decide) rfl ?_))
  refine .member rfl (by decide) (hkwargs _) ?_
  refine .member? rfl (by decide) (fun c hc => hclipping c hc _) (fun hopen => ?_) (.nil ?_)
  · rw [hopen]
    rfl
  · decide

theorem InputGain.read_toJson {g : InputGain} (h : g.Fits) : InputGain.read.ofTree g.toJson = .ok g := by
  have htree : InputGain.read.ofTree g.toJson = ofJson g.toJson := by
    rw [Reader.ofTree, read, Reader.tree, Excerpt.tree_ofJson]
    rfl
  rw [htree]
  cases g with
  | real gain =>
    have hread : Reader.signed.ofTree (.int gain) = .ok gain := Reader.integer_int h
    simp only [toJson, ofJson, hread]
    rfl
  | complex gainI gainQ =>
    have hfirst : ∀ before : Int × Int, (Reader.signed (.int gainI)).map (fun v => (v, before.2)) =
        .ok (gainI, before.2) := by
      intro before
      rw [Reader.signed, Reader.integer_int h.1]
      rfl
    have hsecond : ∀ before : Int × Int, (Reader.signed (.int gainQ)).map (fun v => (before.1, v)) =
        .ok (before.1, gainQ) := by
      intro before
      rw [Reader.signed, Reader.integer_int h.2]
      rfl
    have hread : complexForm.read.ofTree (.obj [("gain_I", .int gainI), ("gain_Q", .int gainQ)]) =
        .ok (gainI, gainQ) := by
      refine Form.read_of_takes (.member rfl (by decide) (hfirst _) ?_)
      refine .member rfl (by decide) (hsecond _) (.nil ?_)
      decide
    simp only [toJson, ofJson, hread]
    rfl

theorem unsigned_ofNat {n : Nat} (h : n < Nat.pow 2 32) : Reader.unsigned.ofTree (.ofNat n) = .ok n := by
  have hread : Reader.integer 0 (Int.ofNat (Nat.pow 2 32)) "u32" (.ofJson (.ofNat n)) = .ok (n : Int) :=
    Reader.integer_int ⟨Int.natCast_nonneg n, Int.ofNat_lt.2 h⟩
  rw [Reader.ofTree, Reader.unsigned, hread]
  rfl

/-- **Values that are read back.** -/
theorem OptionKind.read_toJson {value : kind.Value} (hnumbers : AllFinite (kind.numbers value))
    (hfits : kind.Fits value) : kind.read.ofTree (kind.toJson value) = .ok value := by
  cases kind with
  | latency => exact Reader.double_ofDouble (hnumbers _ List.mem_cons_self)
  | distortion => exact Distortion.read_toJson hnumbers hfits
  | modulation => exact Modulation.read_toJson hnumbers
  | mixer => exact MixerCorrection.read_toJson hnumbers
  | outputAtt => exact unsigned_ofNat hfits
  | inputAtt => exact unsigned_ofNat hfits
  | outputGain => exact OutputGain.read_toJson hnumbers
  | inputGain => exact InputGain.read_toJson hfits
  | sequencer => exact SequencerOptions.read_toJson hnumbers

/-! ## Values that are read -/

theorem lt_of_unsigned {n : Nat} (h : Reader.unsigned e = .ok n) : n < Nat.pow 2 32 := by
  obtain ⟨k, hk, rfl⟩ := map_eq_ok_iff.1 h
  obtain ⟨hlow, hhigh⟩ := Reader.range_of_integer hk
  rw [← Int.toNat_of_nonneg hlow] at hhigh
  exact Int.ofNat_lt.1 hhigh

/-- both gains of an object are the machine's -/
theorem InputGain.isSigned_of_complexForm {g : Int × Int} (h : complexForm.read e = .ok g) :
    IsSigned g.1 ∧ IsSigned g.2 := by
  have hsigned : ∀ {e n}, Reader.signed e = .ok n → IsSigned n := fun hn => Reader.range_of_integer hn
  have hstart : IsSigned complexForm.start.1 ∧ IsSigned complexForm.start.2 := by
    unfold IsSigned
    decide
  have hothers : ∀ put, complexForm.others ≠ .keep put := fun put hkeep => nomatch hkeep
  refine Form.invariant_of_read (P := fun g : Int × Int => IsSigned g.1 ∧ IsSigned g.2) hstart hothers
    (fun field hfield e g g' hg hread => ?_) h
  simp only [complexForm, List.mem_cons, List.not_mem_nil, or_false] at hfield
  rcases hfield with rfl | rfl
  · obtain ⟨n, hn, rfl⟩ := map_eq_ok_iff.1 hread
    exact ⟨hsigned hn, hg.2⟩
  · obtain ⟨n, hn, rfl⟩ := map_eq_ok_iff.1 hread
    exact ⟨hg.1, hsigned hn⟩

theorem InputGain.fits_of_read {g : InputGain} (h : InputGain.read e = .ok g) : g.Fits := by
  obtain ⟨json, -, h⟩ := bind_eq_ok_iff.1 h
  have hmade := mapError_eq_ok_iff.1 h
  split at hmade
  · obtain ⟨gains, hgains, rfl⟩ := map_eq_ok_iff.1 hmade
    exact isSigned_of_complexForm hgains
  · obtain ⟨n, hn, rfl⟩ := map_eq_ok_iff.1 hmade
    exact Reader.range_of_integer hn

/-- arguments that are read as a map repeat no key -/
theorem isUnrepeated_of_map {kwargs : Table String Json} (h : Reader.map Reader.any e = .ok kwargs) :
    (Json.obj kwargs).isUnrepeated = true := by
  obtain ⟨entries, hentries, rfl⟩ := map_eq_ok_iff.1 h
  refine Json.isUnrepeated_ofPairs fun p hp => ?_
  obtain ⟨e', hread⟩ := Reader.exists_read_of_entries hentries hp
  obtain ⟨json, -, hjson⟩ := map_eq_ok_iff.1 hread
  rw [← hjson]
  exact Json.isUnrepeated_collapse json

theorem Distortion.fits_of_read {d : Distortion} (h : Distortion.read e = .ok d) : d.Fits := by
  have hstart : form.start.Fits := rfl
  have hothers : ∀ put, form.others ≠ .keep put := fun put hkeep => nomatch hkeep
  refine Form.invariant_of_read hstart hothers (fun field hfield e d d' hd hread => ?_) h
  simp only [form, List.mem_cons, List.not_mem_nil, or_false] at hfield
  rcases hfield with rfl | rfl | rfl | rfl
  · obtain ⟨v, -, rfl⟩ := map_eq_ok_iff.1 hread
    exact hd
  · obtain ⟨v, -, rfl⟩ := map_eq_ok_iff.1 hread
    exact hd
  · obtain ⟨kwargs, hkwargs, rfl⟩ := map_eq_ok_iff.1 hread
    exact isUnrepeated_of_map hkwargs
  · obtain ⟨v, -, rfl⟩ := map_eq_ok_iff.1 hread
    exact hd

theorem OptionKind.fits_of_read {value : kind.Value} (h : kind.read e = .ok value) : kind.Fits value := by
  cases kind with
  | distortion => exact Distortion.fits_of_read h
  | outputAtt => exact lt_of_unsigned h
  | inputAtt => exact lt_of_unsigned h
  | inputGain => exact InputGain.fits_of_read h
  | latency => trivial
  | modulation => trivial
  | mixer => trivial
  | outputGain => trivial
  | sequencer => trivial

namespace OptionKind

/-- the options with these values of a kind -/
def set : (kind : OptionKind) → HardwareOptions → Option (Entries kind.Value) → HardwareOptions
  | latency, options, entries => { options with latency? := entries }
  | distortion, options, entries => { options with distortion? := entries }
  | modulation, options, entries => { options with modulation? := entries }
  | mixer, options, entries => { options with mixer? := entries }
  | outputAtt, options, entries => { options with outputAtt? := entries }
  | inputAtt, options, entries => { options with inputAtt? := entries }
  | outputGain, options, entries => { options with outputGain? := entries }
  | inputGain, options, entries => { options with inputGain? := entries }
  | sequencer, options, entries => { options with sequencer? := entries }

@[simp] theorem given_set (options : HardwareOptions) (entries : Option (Entries kind.Value)) :
    kind.category.given (kind.set options entries) = entries := by
  cases kind <;> rfl

theorem given_set_of_ne {other : OptionKind} (h : other ≠ kind) (options : HardwareOptions)
    (entries : Option (Entries kind.Value)) :
    other.category.given (kind.set options entries) = other.category.given options := by
  cases kind <;> cases other <;> first | rfl | exact absurd rfl h

end OptionKind

namespace HardwareOptions

/-- the categories of a document are those of the kinds -/
theorem fields_form : form.fields = OptionKind.all.map fun kind => category kind.category.name kind.read kind.set := rfl

/-- **Values of a document.** They are the machine's. -/
theorem fits_of_read (h : HardwareOptions.read e = .ok options) : options.Fits := by
  have hstart : form.start.Fits := by
    intro kind entries hgiven
    have hnone : kind.category.given form.start = none := by cases kind <;> rfl
    rw [hnone] at hgiven
    cases hgiven
  have hothers : ∀ put, form.others ≠ .keep put := fun put hkeep => nomatch hkeep
  refine Form.invariant_of_read hstart hothers (fun field hfield e before after hbefore hread => ?_) h
  rw [fields_form] at hfield
  obtain ⟨kind, -, rfl⟩ := List.mem_map.1 hfield
  obtain ⟨entries?, hentries, rfl⟩ := map_eq_ok_iff.1 hread
  intro other entries hgiven entry hentry
  by_cases hsame : other = kind
  · subst hsame
    rw [OptionKind.given_set] at hgiven
    subst hgiven
    obtain ⟨e', hvalue⟩ := Reader.exists_read_of_entries (Reader.eq_ok_of_nullable hentries) hentry
    exact OptionKind.fits_of_read hvalue
  · rw [OptionKind.given_set_of_ne hsame] at hgiven
    exact hbefore other entries hgiven entry hentry

end HardwareOptions

end RackMap
