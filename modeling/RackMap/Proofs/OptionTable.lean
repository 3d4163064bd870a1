/-
What holds of every option table that is built from a document: each value in it passes the checks of its category.

`Checked` says so of one correction set. A table holds only values that its document gives, and a document is accepted
only if they all pass (`build_checked`). Hence the frequencies that port-clocks ask for are finite.
-/
import Mathlib.Tactic
import RackMap.Proofs.OptionTable.Given

namespace RackMap

open RackMap.Decimal (Double)

namespace OptionCategory

variable {α : Type}

/-- the value of this category in a set, if it is given, passes the checks -/
def Passes (category : OptionCategory α) (set : CorrectionSet) : Prop :=
  ∀ value, category.get set = some value → category.causes value = []

end OptionCategory

namespace CorrectionSet

/-- every value of the set passes the checks of its category -/
structure Checked (set : CorrectionSet) : Prop where
  latency : OptionCategory.latency.Passes set
  distortion : OptionCategory.distortion.Passes set
  modulation : OptionCategory.modulation.Passes set
  mixer : OptionCategory.mixer.Passes set
  outputAtt : OptionCategory.outputAtt.Passes set
  inputAtt : OptionCategory.inputAtt.Passes set
  outputGain : OptionCategory.outputGain.Passes set
  inputGain : OptionCategory.inputGain.Passes set
  sequencer : OptionCategory.sequencer.Passes set

end CorrectionSet

namespace OptionTable

/-- **Every option in a table passes its checks.** -/
theorem build_checked {options : HardwareOptions} {t : OptionTable} (h : build options = .ok t) (pc : PortClock) :
    (t.corrections pc).Checked := by
  have hpasses : ∀ kind : OptionKind, kind.category.Passes (t.corrections pc) := by
    intro kind value hvalue
    obtain ⟨written, hlisted, -⟩ := (get_corrections_iff h).1 hvalue
    exact ((build_eq_ok_iff.1 h).1.sound _ hlisted).passes
  exact ⟨hpasses .latency, hpasses .distortion, hpasses .modulation, hpasses .mixer, hpasses .outputAtt,
    hpasses .inputAtt, hpasses .outputGain, hpasses .inputGain, hpasses .sequencer⟩

theorem isFinite_of_finiteCauses {field : String} {value? : Option Double} {x : Double}
    (h : OptionCategory.finiteCauses field value? = []) (hx : value? = some x) : x.isFinite = true := by
  subst hx
  simpa [OptionCategory.finiteCauses] using h

/-- the frequencies that a port-clock asks for are finite -/
theorem modulation_isFinite {options : HardwareOptions} {t : OptionTable} (h : build options = .ok t) {pc : PortClock}
    {x : Double} (hx : (t.modulation pc).interm? = some x ∨ (t.modulation pc).lo? = some x) : x.isFinite = true := by
  have hpass := (build_checked h pc).modulation
  unfold modulation at hx
  cases hm : (t.corrections pc).modulation? with
  | none => rw [hm] at hx; rcases hx with hx | hx <;> cases hx
  | some m =>
    obtain ⟨hinterm, hlo⟩ := List.append_eq_nil_iff.1 (hpass m hm)
    rw [hm] at hx
    rcases hx with hx | hx
    · exact isFinite_of_finiteCauses hinterm hx
    · exact isFinite_of_finiteCauses hlo hx

/-- the oscillator frequencies that are asked for are finite, so each is the same as itself -/
def AsksFinite (t : OptionTable) : Prop := ∀ pc f, (t.modulation pc).lo? = some f → f.isFinite = true

theorem asksFinite_of_build {options : HardwareOptions} {t : OptionTable} (h : build options = .ok t) : t.AsksFinite :=
  fun _ _ hf => modulation_isFinite h (Or.inr hf)

end OptionTable

end RackMap
