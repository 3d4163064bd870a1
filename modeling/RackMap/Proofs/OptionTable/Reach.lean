/-
Which connected port-clocks can be given options.

The key of an option is read more strictly than the port and the clock of an edge: behind the colon of a key the first
dash ends the line, and an empty line is no line. `option_reaches` says that this is the only obstacle for a port-clock
whose written form has no blanks around it: a document that gives it one more option is accepted, and the table has the
value, iff its line does not start with a dash.
-/
import Mathlib.Tactic
import RackMap.Proofs.OptionTable.Given
import RackMap.Proofs.Outcome
import RackMap.Proofs.PortClock

namespace RackMap.OptionTable

open RackMap.Decimal (Double)

variable {options document : HardwareOptions} {base : OptionTable} {pc : PortClock} {o : GivenOption}

theorem repeats_symm {a b : GivenOption} (h : a.Repeats b) : b.Repeats a := ⟨h.1.symm, h.2.symm⟩

/-- one more option for an accepted document: it must be sound, and for a port-clock without an option of its kind -/
theorem acceptable_of_perm (hoptions : options.Acceptable) (hdocument : document.listed.Perm (o :: options.listed))
    (hsound : o.Sound) (hnew : ∀ other ∈ options.listed, ¬o.Repeats other) : document.Acceptable := by
  constructor
  · intro other hother
    rcases List.mem_cons.1 (hdocument.mem_iff.1 hother) with rfl | hold
    · exact hsound
    · exact hoptions.sound other hold
  · have hsymm : ∀ {a b : GivenOption}, ¬a.Repeats b → ¬b.Repeats a := fun hab hba => hab (repeats_symm hba)
    rw [hdocument.pairwise_iff hsymm, List.pairwise_cons]
    exact ⟨hnew, hoptions.distinct⟩

/-- **Options for a connected port-clock.** They can be given, and are found, unless the line starts with a dash; then
the key is reported, as one without a port. -/
theorem option_reaches (kind : OptionKind) (value : kind.Value)
    (hpc : Wiring.portClockOf ⟨pc.port, pc.clock⟩ = .ok pc) (htrim : Text.trim pc.text = pc.text)
    (hvalue : kind.category.causes value = []) (hoptions : build options = .ok base)
    (hfree : kind.category.get (base.corrections pc) = none)
    (hdocument : document.listed.Perm (⟨kind, pc.text, value⟩ :: options.listed)) :
    (pc.afterColon.head? ≠ some '-' →
      ∃ t, build document = .ok t ∧ kind.category.get (t.corrections pc) = some value) ∧
    (pc.afterColon.head? = some '-' → ∃ report, build document = .error (.schema report) ∧
      ⟨(⟨kind, pc.text, value⟩ : GivenOption).location, .badPortClock (.missingPort pc.text)⟩ ∈ report) := by
  obtain ⟨-, element, line, hconnectable⟩ := Wiring.portClockOf_eq_ok_iff.1 hpc
  have hgiven : (⟨kind, pc.text, value⟩ : GivenOption) ∈ document.listed := hdocument.mem_iff.2 List.mem_cons_self
  rw [hconnectable.afterColon_eq]
  constructor
  · intro hline
    have hread : ∃ read, PortClock.parse pc.text = .ok read := by
      rw [PortClock.parse_of_trim_eq htrim]
      exact (PortClock.exists_parse_text_iff hconnectable).2 hline
    have hnew : ∀ other ∈ options.listed, ¬(⟨kind, pc.text, value⟩ : GivenOption).Repeats other := by
      rintro ⟨_, written, other⟩ hother ⟨rfl, hkey⟩
      have hfound : kind.category.get (base.corrections pc) = some other :=
        (get_corrections_iff hoptions).2 ⟨written, hother, hkey.symm.trans htrim⟩
      rw [hfree] at hfound
      cases hfound
    have haccepted : document.Acceptable :=
      acceptable_of_perm (build_eq_ok_iff.1 hoptions).1 hdocument ⟨hread, hvalue⟩ hnew
    obtain ⟨t, ht⟩ := exists_build_iff.2 haccepted
    exact ⟨t, ht, (get_corrections_iff ht).2 ⟨pc.text, hgiven, htrim⟩⟩
  · intro hline
    have hread : PortClock.parse pc.text = .error (.missingPort pc.text) := by
      rw [PortClock.parse_of_trim_eq htrim]
      exact PortClock.parseTrimmed_text_eq_error hconnectable hline
    have hreport := Draft.reports_of_unread (d := ⟨[], []⟩) hgiven hread
    rw [← draft_eq] at hreport
    exact ⟨(draft document).report, build_eq_error hreport, hreport⟩

/-- latency corrections for some keys -/
def latencies (keys : List String) : HardwareOptions :=
  { latency? := some (keys.map fun key => (key, .finite false 5)) }

/-- next to an option for another port-clock, one for `q0:mw-q0.01` is found, one for `q0:-a-q0.01` is reported -/
theorem latency_reaches :
    (∃ t, build (latencies ["q0:mw-q0.01", "q1:mw-q1.01"]) = .ok t ∧
      (t.corrections ⟨"q0:mw", "q0.01"⟩).latency? = some (.finite false 5)) ∧
    ∃ report, build (latencies ["q0:-a-q0.01", "q1:mw-q1.01"]) = .error (.schema report) ∧
      ⟨"hardware_options.latency_corrections.q0:-a-q0.01", .badPortClock (.missingPort "q0:-a-q0.01")⟩ ∈ report := by
  have hfree : ∀ pc : PortClock, pc = ⟨"q0:mw", "q0.01"⟩ ∨ pc = ⟨"q0:-a", "q0.01"⟩ →
      ∃ base, build (latencies ["q1:mw-q1.01"]) = .ok base ∧ (base.corrections pc).latency? = none := by
    intro pc hpc
    obtain ⟨base, hbase, hnone⟩ := exists_eq_ok (x := build (latencies ["q1:mw-q1.01"]))
      (c := fun base => (base.corrections pc).latency?.isNone) (by rcases hpc with rfl | rfl <;> decide +kernel)
    exact ⟨base, hbase, Option.isNone_iff_eq_none.1 hnone⟩
  constructor
  · obtain ⟨base, hbase, hnone⟩ := hfree ⟨"q0:mw", "q0.01"⟩ (Or.inl rfl)
    exact (option_reaches .latency (.finite false 5) (toOption_eq_some_iff.1 (by decide +kernel)) (by decide +kernel)
      (by decide +kernel) hbase hnone (List.Perm.refl _)).1 (by decide +kernel)
  · obtain ⟨base, hbase, hnone⟩ := hfree ⟨"q0:-a", "q0.01"⟩ (Or.inr rfl)
    exact (option_reaches .latency (.finite false 5) (toOption_eq_some_iff.1 (by decide +kernel)) (by decide +kernel)
      (by decide +kernel) hbase hnone (List.Perm.refl _)).2 (by decide +kernel)

/-- the port-clock can be connected, but a valid latency correction under its written form does not reach it -/
def Unreached (pc : PortClock) : Prop :=
  Wiring.portClockOf ⟨pc.port, pc.clock⟩ = .ok pc ∧ OptionCategory.latency.causes (.finite false 5) = [] ∧
    ¬∃ t, build (latencies [pc.text]) = .ok t ∧ (t.corrections pc).latency? = some (.finite false 5)

theorem unreached_of_eq_none (hconnected : (Wiring.portClockOf ⟨pc.port, pc.clock⟩).toOption = some pc)
    (hnone : ((build (latencies [pc.text])).toOption.bind fun t => (t.corrections pc).latency?) = none) :
    Unreached pc := by
  refine ⟨toOption_eq_some_iff.1 hconnected, by decide, ?_⟩
  rintro ⟨t, ht, hfound⟩
  rw [ht] at hnone
  exact Option.some_ne_none _ (hfound.symm.trans hnone)

/-- a line that starts with a dash, and written forms that start or end with a blank, which the key loses -/
theorem unreached_portClocks :
    Unreached ⟨"q0:-a", "q0.01"⟩ ∧ Unreached ⟨" q0:mw", "q0.01"⟩ ∧ Unreached ⟨"q0:mw", "q0.01 "⟩ := by
  refine ⟨?_, ?_, ?_⟩
  · exact unreached_of_eq_none (by decide +kernel) (by decide +kernel)
  · exact unreached_of_eq_none (by decide +kernel) (by decide +kernel)
  · exact unreached_of_eq_none (by decide +kernel) (by decide +kernel)

end RackMap.OptionTable
