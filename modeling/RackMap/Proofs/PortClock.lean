/-
Port-clocks and their written forms.

A port-clock is written as its port, a dash and its clock. Ports and clocks may hold dashes of their own, so a written
form does not tell where the port ends.
- `text_eq_text_iff`: port-clocks are written alike iff they are equal or overlap, the port of one going on with what
  the clock of the other starts with;
- `portClockOf_eq_ok_iff`: a port-clock is connectable iff its port is an element and a line and nothing is empty;
- `parseTrimmed_eq_ok_iff`: reading finds the one connectable port-clock with this text whose line has no dash;
- `exists_parse_text_iff`: the text of a connectable port-clock is read iff the line does not start with a dash.
-/
import Mathlib.Tactic
import RackMap.Wiring

namespace RackMap

namespace PortClock

variable {pc a b : PortClock} {element line : List Char} {s : String}

/-! ## Written forms -/

/-- the port of `b` is that of `a` with a dash and `w` behind it, and the clock of `a` is that of `b` with `w` and a
dash before it -/
def Overlaps (a b : PortClock) : Prop := ∃ w, b.port = a.port ++ "-" ++ w ∧ a.clock = w ++ "-" ++ b.clock

theorem toList_text (pc : PortClock) : pc.text.toList = pc.port.toList ++ '-' :: pc.clock.toList := by
  simp [text]

theorem text_eq_of_overlaps (h : a.Overlaps b) : a.text = b.text := by
  obtain ⟨w, hport, hclock⟩ := h
  rw [text, text, hport, hclock]
  simp only [String.append_assoc]

/-- a text with a dash at two places: what stands between them belongs to the port or to the clock -/
theorem eq_or_overlaps_of_append_eq {m : List Char} (hport : b.port.toList = a.port.toList ++ m)
    (hclock : '-' :: a.clock.toList = m ++ '-' :: b.clock.toList) : a = b ∨ a.Overlaps b := by
  cases m with
  | nil =>
    left
    rw [List.append_nil, String.toList_inj] at hport
    rw [List.nil_append, List.cons.injEq, String.toList_inj] at hclock
    cases a; cases b
    rw [PortClock.mk.injEq]
    exact ⟨hport.symm, hclock.2⟩
  | cons c w =>
    right
    rw [List.cons_append, List.cons.injEq] at hclock
    obtain ⟨rfl, hclock⟩ := hclock
    refine ⟨String.ofList w, ?_, ?_⟩
    · rw [← String.toList_inj, hport]
      simp
    · rw [← String.toList_inj, hclock]
      simp

/-- **Port-clocks that are written alike.** -/
theorem text_eq_text_iff : a.text = b.text ↔ a = b ∨ a.Overlaps b ∨ b.Overlaps a := by
  constructor
  · intro h
    rw [← String.toList_inj, toList_text, toList_text] at h
    rcases List.append_eq_append_iff.1 h with ⟨m, hport, hclock⟩ | ⟨m, hport, hclock⟩
    · rcases eq_or_overlaps_of_append_eq hport hclock with heq | hover
      · exact Or.inl heq
      · exact Or.inr (Or.inl hover)
    · rcases eq_or_overlaps_of_append_eq hport hclock with heq | hover
      · exact Or.inl heq.symm
      · exact Or.inr (Or.inr hover)
  · rintro (rfl | hover | hover)
    · rfl
    · exact text_eq_of_overlaps hover
    · exact (text_eq_of_overlaps hover).symm

/-! ## Elements and lines -/

/-- the port is `element:line`, cut at its first colon, and neither its parts nor the clock are empty -/
structure Connectable (pc : PortClock) (element line : List Char) : Prop where
  port : pc.port.toList = element ++ ':' :: line
  colon : ':' ∉ element
  element : element ≠ []
  line : line ≠ []
  clock : pc.clock ≠ ""

/-- what stands behind the first colon of the port -/
def afterColon (pc : PortClock) : List Char := ((Text.cutFirst ':' pc.port.toList).map Prod.snd).getD []

theorem Connectable.afterColon_eq (h : pc.Connectable element line) : pc.afterColon = line := by
  rw [afterColon, Text.cutFirst_eq_some_iff.2 ⟨h.colon, h.port⟩]
  rfl

theorem Connectable.cutFirst_text (h : pc.Connectable element line) :
    Text.cutFirst ':' pc.text.toList = some (element, line ++ '-' :: pc.clock.toList) := by
  rw [Text.cutFirst_eq_some_iff, toList_text, h.port]
  exact ⟨h.colon, by simp⟩

/-- **Reading a port-clock.** The line of what is read has no dash. -/
theorem parseTrimmed_eq_ok_iff :
    parseTrimmed s = .ok pc ↔ s = pc.text ∧ ∃ element line, pc.Connectable element line ∧ '-' ∉ line := by
  unfold parseTrimmed
  constructor
  · intro h
    split at h
    · cases h
    · rename_i element rest hcut
      obtain ⟨hcolon, hs⟩ := Text.cutFirst_eq_some_iff.1 hcut
      split at h
      · cases h
      · rename_i helement
        split at h
        · cases h
        · rename_i line clock hcut'
          obtain ⟨hdash, rfl⟩ := Text.cutFirst_eq_some_iff.1 hcut'
          split at h
          · cases h
          · rename_i hline
            split at h
            · cases h
            · rename_i hclock
              cases h
              rw [List.isEmpty_iff] at helement hline hclock
              refine ⟨?_, element, line, ⟨by simp, hcolon, helement, hline, ?_⟩, hdash⟩
              · rw [← String.toList_inj, hs, toList_text]
                simp
              · rw [Ne, ← String.toList_inj]
                simpa using hclock
  · rintro ⟨rfl, element, line, h, hdash⟩
    have hcut : Text.cutFirst '-' (line ++ '-' :: pc.clock.toList) = some (line, pc.clock.toList) :=
      Text.cutFirst_eq_some_iff.2 ⟨hdash, rfl⟩
    have hclock : pc.clock.toList ≠ [] := by
      rw [Ne, String.toList_eq_nil_iff]
      exact h.clock
    simp only [h.cutFirst_text, hcut, List.isEmpty_iff, h.element, h.line, hclock, if_false, ← h.port,
      String.ofList_toList]

/-- **Reading what was written.** The text is cut at the first dash behind the colon; if the line starts with one,
nothing is left of it. -/
theorem exists_parse_text_iff (h : pc.Connectable element line) :
    (∃ read, parseTrimmed pc.text = .ok read) ↔ line.head? ≠ some '-' := by
  constructor
  · rintro ⟨read, hread⟩ hhead
    obtain ⟨htext, element', line', h', hdash⟩ := parseTrimmed_eq_ok_iff.1 hread
    have hcut := h.cutFirst_text
    rw [htext, h'.cutFirst_text, Option.some.injEq, Prod.mk.injEq] at hcut
    obtain ⟨-, hrest⟩ := hcut
    obtain ⟨c, cs, rfl⟩ := List.exists_cons_of_ne_nil h.line
    obtain ⟨c', cs', rfl⟩ := List.exists_cons_of_ne_nil h'.line
    rw [List.head?_cons, Option.some.injEq] at hhead
    have hfirst : c' = c := (List.cons.inj hrest).1
    rw [hfirst, hhead] at hdash
    exact hdash List.mem_cons_self
  · intro hhead
    cases hcut : Text.cutFirst '-' line with
    | none => exact ⟨pc, parseTrimmed_eq_ok_iff.2 ⟨rfl, element, line, h, Text.cutFirst_eq_none_iff.1 hcut⟩⟩
    | some parts =>
      -- the line goes on behind its first dash: the rest is read as a part of the clock
      obtain ⟨start, rest⟩ := parts
      obtain ⟨hdash, rfl⟩ := Text.cutFirst_eq_some_iff.1 hcut
      have hstart : start ≠ [] := by
        rintro rfl
        exact hhead rfl
      refine ⟨⟨String.ofList (element ++ ':' :: start), String.ofList (rest ++ '-' :: pc.clock.toList)⟩,
        parseTrimmed_eq_ok_iff.2 ⟨?_, element, start, ⟨by simp, h.colon, h.element, hstart, ?_⟩, hdash⟩⟩
      · rw [← String.toList_inj, toList_text, toList_text, h.port]
        simp
      · rw [Ne, ← String.toList_inj]
        simp

theorem parse_of_trim_eq (h : Text.trim s = s) : parse s = parseTrimmed s := by
  rw [parse, h]

/-- what is wrong with the text of a connectable port-clock that is not read -/
theorem parseTrimmed_text_eq_error (h : pc.Connectable element line) (hhead : line.head? = some '-') :
    parseTrimmed pc.text = .error (.missingPort pc.text) := by
  obtain ⟨c, cs, rfl⟩ := List.exists_cons_of_ne_nil h.line
  rw [List.head?_cons, Option.some.injEq] at hhead
  subst hhead
  unfold parseTrimmed
  simp [h.cutFirst_text, List.isEmpty_iff, h.element, Text.cutFirst]

end PortClock

namespace Wiring

variable {entry : PortClockEntry} {pc : PortClock}

/-- **Port-clocks that can be connected.** -/
theorem portClockOf_eq_ok_iff :
    portClockOf entry = .ok pc ↔ pc = ⟨entry.port, entry.clock⟩ ∧ ∃ element line, pc.Connectable element line := by
  unfold portClockOf
  constructor
  · intro h
    split at h
    · rename_i c element d line hcut
      obtain ⟨hcolon, hport⟩ := Text.cutFirst_eq_some_iff.1 hcut
      split at h
      · cases h
      · rename_i hclock
        cases h
        exact ⟨rfl, c :: element, d :: line, hport, hcolon, List.cons_ne_nil _ _, List.cons_ne_nil _ _, hclock⟩
    · cases h
  · rintro ⟨rfl, element, line, h⟩
    have hcut : Text.cutFirst ':' entry.port.toList = some (element, line) :=
      Text.cutFirst_eq_some_iff.2 ⟨h.colon, h.port⟩
    obtain ⟨c, cs, rfl⟩ := List.exists_cons_of_ne_nil h.element
    obtain ⟨d, ds, rfl⟩ := List.exists_cons_of_ne_nil h.line
    rw [hcut]
    exact if_neg h.clock

end Wiring

end RackMap
