/-
Reading a port-clock is the inverse of writing it.

`Legible` says which port-clocks a text can denote: the port is an element and a line, cut at its first colon, the line
has no dash, and neither of the three parts is empty.
- `parse_eq_ok_iff`: a text denotes a port-clock iff that is legible and the text is its written form with blanks around
  it; no other text is read;
- `parse_inverts_text`: hence the port-clocks whose written form denotes them are the legible ones that are written
  without blanks at the ends, and what is read is written as the text without the blanks around it.
-/
import Mathlib.Tactic
import RackMap.Proofs.PortClock
import RackMap.Proofs.Text.Trimmed

namespace RackMap.PortClock

variable {pc : PortClock} {s : String}

/-- the port is `element:line`, cut at its first colon, the line has no dash, and nothing is empty -/
def Legible (pc : PortClock) : Prop := ∃ element line, pc.Connectable element line ∧ '-' ∉ line

/-- **Reading.** A text denotes a legible port-clock if it is its written form, whatever blanks are around it. -/
theorem parse_eq_ok_iff : parse s = .ok pc ↔ Text.Trimmed s pc.text ∧ pc.Legible := by
  rw [parse, parseTrimmed_eq_ok_iff, Text.trim_eq_iff, Legible]

theorem text_of_parse (h : parse s = .ok pc) : pc.text = Text.trim s :=
  (Text.trim_eq_iff.2 (parse_eq_ok_iff.1 h).1).symm

theorem parse_text_iff : parse pc.text = .ok pc ↔ pc.Legible ∧ Text.Unpadded pc.text := by
  rw [parse_eq_ok_iff, ← Text.trim_eq_iff, Text.trim_eq_self_iff, and_comm]

/-- texts that denote nothing are refused -/
theorem exists_fault_iff :
    (∃ fault, parse s = .error fault) ↔ ¬∃ pc : PortClock, Text.Trimmed s pc.text ∧ pc.Legible := by
  simp only [← parse_eq_ok_iff]
  cases parse s with
  | error fault => simp
  | ok pc => simp

/-- **Reading and writing.** A text denotes the legible port-clock whose written form it is without the blanks around
it, and no other one. Writing and reading gives the same port-clock iff it is legible and written without blanks at the
ends; reading and writing gives the text without the blanks around it. Every other text is refused. -/
theorem parse_inverts_text (s : String) (pc : PortClock) :
    (parse s = .ok pc ↔ Text.Trimmed s pc.text ∧ pc.Legible) ∧
      (parse pc.text = .ok pc ↔ pc.Legible ∧ Text.Unpadded pc.text) ∧
      (parse s = .ok pc → pc.text = Text.trim s) ∧
      ((∃ fault, parse s = .error fault) ↔ ¬∃ other : PortClock, Text.Trimmed s other.text ∧ other.Legible) :=
  ⟨parse_eq_ok_iff, parse_text_iff, text_of_parse, exists_fault_iff⟩

/-- a text with blanks around it and dashes on both sides of the one that it is cut at -/
theorem parse_inverts_text_dashes :
    parse " q-1:mw-q-1.01\t" = .ok ⟨"q-1:mw", "q-1.01"⟩ ∧
      (PortClock.mk "q-1:mw" "q-1.01").text = Text.trim " q-1:mw-q-1.01\t" := by
  have hread : parse " q-1:mw-q-1.01\t" = .ok ⟨"q-1:mw", "q-1.01"⟩ := by decide +kernel
  exact ⟨hread, (parse_inverts_text " q-1:mw-q-1.01\t" ⟨"q-1:mw", "q-1.01"⟩).2.2.1 hread⟩

end RackMap.PortClock
