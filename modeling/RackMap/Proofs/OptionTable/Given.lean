/-
What an options document gives, and what a table keeps of it.

The nine categories differ in the type of their values only. `OptionKind` names them, so that a document is one list of
options (`HardwareOptions.listed`) and a table is built by one fold over it (`draft_eq`).
- `Draft.add_clean_iff`: an option is added without a problem iff it is sound and nothing of its kind is there yet for
  its port-clock;
- `build_eq_ok_iff`: a document is accepted iff every option is sound and no two of one kind are for one port-clock;
- `get_corrections_iff`: a table has exactly the values given, under the trimmed keys that they are given for;
- `reports_of_unread`: an option whose key is no port-clock is reported.
-/
import Mathlib.Tactic
import RackMap.OptionTable
import RackMap.Proofs.Table

namespace RackMap

open RackMap.Decimal (Double)

/-! ## Kinds of options -/

/-- what may be set for a port-clock -/
inductive OptionKind where
  | latency | distortion | modulation | mixer | outputAtt | inputAtt | outputGain | inputGain | sequencer
deriving DecidableEq, Repr

namespace OptionKind

/-- the values of a kind -/
def Value : OptionKind → Type
  | latency => Double
  | distortion => Distortion
  | modulation => Modulation
  | mixer => MixerCorrection
  | outputAtt => Nat
  | inputAtt => Nat
  | outputGain => OutputGain
  | inputGain => InputGain
  | sequencer => SequencerOptions

/-- the category of a kind -/
def category : (kind : OptionKind) → OptionCategory kind.Value
  | latency => OptionCategory.latency
  | distortion => OptionCategory.distortion
  | modulation => OptionCategory.modulation
  | mixer => OptionCategory.mixer
  | outputAtt => OptionCategory.outputAtt
  | inputAtt => OptionCategory.inputAtt
  | outputGain => OptionCategory.outputGain
  | inputGain => OptionCategory.inputGain
  | sequencer => OptionCategory.sequencer

/-- all kinds, in the order in which a table takes them up -/
def all : List OptionKind :=
  [latency, distortion, modulation, mixer, outputAtt, inputAtt, outputGain, inputGain, sequencer]

theorem mem_all (kind : OptionKind) : kind ∈ all := by
  cases kind <;> decide

variable {kind other : OptionKind}

@[simp] theorem get_empty : kind.category.get .empty = none := by
  cases kind <;> rfl

@[simp] theorem get_put (set : CorrectionSet) (value : kind.Value) :
    kind.category.get (kind.category.put set value) = some value := by
  cases kind <;> rfl

/-- what is put for one kind leaves the others alone -/
theorem get_put_of_ne (h : other ≠ kind) (set : CorrectionSet) (value : kind.Value) :
    other.category.get (kind.category.put set value) = other.category.get set := by
  cases kind <;> cases other <;> first | rfl | exact absurd rfl h

end OptionKind

/-! ## Options as given -/

/-- one value of an options document, with its key as written -/
structure GivenOption where
  kind : OptionKind
  key : String
  value : kind.Value

/-- all options of a document, kind by kind -/
def HardwareOptions.listed (options : HardwareOptions) : List GivenOption :=
  OptionKind.all.flatMap fun kind => ((kind.category.given options).getD []).map fun entry => ⟨kind, entry.1, entry.2⟩

/-- a document lists what stands under the keys of its categories -/
theorem HardwareOptions.mem_listed {options : HardwareOptions} {kind : OptionKind} {key : String} {value : kind.Value} :
    ⟨kind, key, value⟩ ∈ options.listed ↔
      ∃ entries, kind.category.given options = some entries ∧ (key, value) ∈ entries := by
  constructor
  · intro h
    obtain ⟨kind', -, hin⟩ := List.mem_flatMap.1 h
    obtain ⟨entry, hentry, heq⟩ := List.mem_map.1 hin
    cases heq
    cases hgiven : kind.category.given options with
    | none => rw [hgiven] at hentry; cases hentry
    | some entries => rw [hgiven] at hentry; exact ⟨entries, rfl, hentry⟩
  · rintro ⟨entries, hgiven, hentry⟩
    refine List.mem_flatMap.2 ⟨kind, OptionKind.mem_all kind, List.mem_map.2 ⟨(key, value), ?_, rfl⟩⟩
    rw [hgiven]
    exact hentry

namespace GivenOption

/-- the key is a port-clock, and the value passes the checks of its category -/
structure Sound (o : GivenOption) : Prop where
  read : ∃ pc, PortClock.parse o.key = .ok pc
  passes : o.kind.category.causes o.value = []

/-- both are of one kind and for the same port-clock -/
def Repeats (a b : GivenOption) : Prop := a.kind = b.kind ∧ Text.trim a.key = Text.trim b.key

theorem not_sound_of_unread {o : GivenOption} {fault : PortClock.Fault} (h : PortClock.parse o.key = .error fault) :
    ¬o.Sound := by
  rintro ⟨⟨pc, hread⟩, -⟩
  rw [h] at hread
  cases hread

/-- where the option stands in its document -/
def location (o : GivenOption) : String := s!"hardware_options.{o.kind.category.name}.{o.key}"

end GivenOption

/-- a document without faults: every option is sound, and none repeats another -/
structure HardwareOptions.Acceptable (options : HardwareOptions) : Prop where
  sound : ∀ o ∈ options.listed, o.Sound
  distinct : options.listed.Pairwise fun a b => ¬a.Repeats b

namespace OptionTable

variable {options : HardwareOptions} {t : OptionTable} {d : Draft} {o : GivenOption} {listed : List GivenOption}
  {kind : OptionKind} {key : String} {value : kind.Value} {pc : PortClock} {issue : Issue}

namespace Draft

/-- the value of a kind that a draft has under a key -/
def value? (d : Draft) (kind : OptionKind) (key : String) : Option kind.Value :=
  (d.table.lookup? key).bind kind.category.get

/-- one option on top of a draft -/
def add (d : Draft) (o : GivenOption) : Draft := d.addEntry o.kind.category (o.key, o.value)

theorem get_lookup? (d : Draft) (kind : OptionKind) (key : String) :
    kind.category.get ((d.table.lookup? key).getD .empty) = d.value? kind key := by
  rw [value?]
  cases d.table.lookup? key with
  | none => exact OptionKind.get_empty
  | some set => rfl

/-! ## One option -/

/-- what adding an option does: a problem more, or a value more -/
theorem add_cases (d : Draft) (o : GivenOption) :
    (∃ fault, PortClock.parse o.key = .error fault ∧
      d.add o = { d with report := d.report ++ [⟨o.location, .badPortClock fault⟩] }) ∨
    ((∃ pc, PortClock.parse o.key = .ok pc) ∧ o.kind.category.causes o.value ≠ [] ∧
      d.add o = { d with report := d.report ++ Report.located o.location (o.kind.category.causes o.value) }) ∨
    (o.Sound ∧ d.value? o.kind (Text.trim o.key) ≠ none ∧
      d.add o = { d with report := d.report ++ [⟨o.location, .givenTwice⟩] }) ∨
    (o.Sound ∧ d.value? o.kind (Text.trim o.key) = none ∧
      d.add o = { d with
        table := d.table.put (Text.trim o.key)
          (o.kind.category.put ((d.table.lookup? (Text.trim o.key)).getD .empty) o.value) }) := by
  unfold add addEntry
  cases hread : PortClock.parse o.key with
  | error fault => exact Or.inl ⟨fault, rfl, rfl⟩
  | ok pc =>
    right
    cases hcauses : o.kind.category.causes o.value with
    | cons cause causes => exact Or.inl ⟨⟨pc, rfl⟩, List.cons_ne_nil _ _, rfl⟩
    | nil =>
      right
      have hsound : o.Sound := ⟨⟨pc, hread⟩, hcauses⟩
      simp only [get_lookup?]
      split
      · rename_i hsome
        exact Or.inl ⟨hsound, Option.isSome_iff_ne_none.1 hsome, rfl⟩
      · rename_i hnone
        exact Or.inr ⟨hsound, Option.not_isSome_iff_eq_none.1 hnone, rfl⟩

/-- a problem stays in the report -/
theorem mem_report_add (h : issue ∈ d.report) : issue ∈ (d.add o).report := by
  rcases d.add_cases o with ⟨_, _, heq⟩ | ⟨_, _, heq⟩ | ⟨_, _, heq⟩ | ⟨_, _, heq⟩ <;> rw [heq]
  · exact List.mem_append_left _ h
  · exact List.mem_append_left _ h
  · exact List.mem_append_left _ h
  · exact h

theorem add_clean_iff :
    (d.add o).report = [] ↔ d.report = [] ∧ o.Sound ∧ d.value? o.kind (Text.trim o.key) = none := by
  rcases d.add_cases o with ⟨fault, hread, heq⟩ | ⟨-, hcauses, heq⟩ | ⟨hsound, hvalue, heq⟩ | ⟨hsound, hvalue, heq⟩
  · have hunsound : ¬o.Sound := GivenOption.not_sound_of_unread hread
    simp [heq, hunsound]
  · have hunsound : ¬o.Sound := fun hsound => hcauses hsound.passes
    simp [heq, hunsound, Report.located, hcauses]
  · simp [heq, hvalue]
  · simp [heq, hvalue, hsound]

/-- an option that is added without a problem is entered under its trimmed key -/
theorem value?_add (hclean : (d.add o).report = []) :
    (d.add o).value? kind key =
      if key = Text.trim o.key then
        kind.category.get (o.kind.category.put ((d.table.lookup? (Text.trim o.key)).getD .empty) o.value)
      else d.value? kind key := by
  obtain ⟨-, hsound, hfree⟩ := add_clean_iff.1 hclean
  rcases d.add_cases o with ⟨fault, hread, -⟩ | ⟨-, hcauses, -⟩ | ⟨-, hvalue, -⟩ | ⟨-, -, heq⟩
  · exact absurd hsound (GivenOption.not_sound_of_unread hread)
  · exact absurd hsound.passes hcauses
  · exact absurd hfree hvalue
  · rw [heq, value?, Table.lookup?_put]
    split <;> rfl

theorem value?_add_self (hclean : (d.add o).report = []) :
    (d.add o).value? o.kind (Text.trim o.key) = some o.value := by
  rw [value?_add hclean, if_pos rfl, OptionKind.get_put]

theorem value?_add_of_ne (hclean : (d.add o).report = []) (hother : ¬(kind = o.kind ∧ key = Text.trim o.key)) :
    (d.add o).value? kind key = d.value? kind key := by
  rw [value?_add hclean]
  split
  · rename_i hkey
    have hkind : kind ≠ o.kind := fun hkind => hother ⟨hkind, hkey⟩
    rw [OptionKind.get_put_of_ne hkind, get_lookup?, hkey]
  · rfl

/-- a draft has the values that it had and the one that was added -/
theorem value?_add_iff (hclean : (d.add o).report = []) :
    (d.add o).value? kind key = some value ↔
      d.value? kind key = some value ∨ ∃ written, o = ⟨kind, written, value⟩ ∧ Text.trim written = key := by
  obtain ⟨-, -, hfree⟩ := add_clean_iff.1 hclean
  by_cases hsame : kind = o.kind ∧ key = Text.trim o.key
  · obtain ⟨given, written, added⟩ := o
    obtain ⟨rfl, rfl⟩ := hsame
    rw [value?_add_self hclean, hfree]
    constructor
    · intro h
      cases h
      exact Or.inr ⟨written, rfl, rfl⟩
    · rintro (h | ⟨written, h, -⟩)
      · cases h
      · cases h
        rfl
  · rw [value?_add_of_ne hclean hsame]
    constructor
    · exact Or.inl
    · rintro (h | ⟨written, rfl, rfl⟩)
      · exact h
      · exact absurd ⟨rfl, rfl⟩ hsame

theorem value?_add_eq_none_iff (hclean : (d.add o).report = []) :
    (d.add o).value? kind key = none ↔ d.value? kind key = none ∧ ¬(kind = o.kind ∧ key = Text.trim o.key) := by
  by_cases hsame : kind = o.kind ∧ key = Text.trim o.key
  · obtain ⟨rfl, rfl⟩ := hsame
    simp [value?_add_self hclean]
  · simp [value?_add_of_ne hclean hsame, hsame]

/-! ## All options -/

theorem mem_report_foldl (h : issue ∈ d.report) : issue ∈ (listed.foldl add d).report := by
  induction listed generalizing d with
  | nil => exact h
  | cons o listed ih =>
    rw [List.foldl_cons]
    exact ih (mem_report_add h)

/-- **Adding options.** It goes without a problem iff every option is sound and new, and none repeats another. -/
theorem foldl_add_clean_iff :
    (listed.foldl add d).report = [] ↔
      d.report = [] ∧ (∀ o ∈ listed, o.Sound ∧ d.value? o.kind (Text.trim o.key) = none) ∧
        listed.Pairwise fun a b => ¬a.Repeats b := by
  induction listed generalizing d with
  | nil => simp
  | cons o listed ih =>
    rw [List.foldl_cons, ih, add_clean_iff, List.pairwise_cons, List.forall_mem_cons]
    constructor
    · rintro ⟨⟨hreport, hsound, hfree⟩, hrest, hpairs⟩
      have hclean : (d.add o).report = [] := add_clean_iff.2 ⟨hreport, hsound, hfree⟩
      refine ⟨hreport, ⟨⟨hsound, hfree⟩, fun other hother => ?_⟩, fun other hother hrepeats => ?_, hpairs⟩
      · obtain ⟨hsound', hfree'⟩ := hrest other hother
        exact ⟨hsound', ((value?_add_eq_none_iff hclean).1 hfree').1⟩
      · obtain ⟨hkind, hkey⟩ := hrepeats
        exact ((value?_add_eq_none_iff hclean).1 (hrest other hother).2).2 ⟨hkind.symm, hkey.symm⟩
    · rintro ⟨hreport, ⟨⟨hsound, hfree⟩, hrest⟩, hnew, hpairs⟩
      have hclean : (d.add o).report = [] := add_clean_iff.2 ⟨hreport, hsound, hfree⟩
      refine ⟨⟨hreport, hsound, hfree⟩, fun other hother => ?_, hpairs⟩
      obtain ⟨hsound', hfree'⟩ := hrest other hother
      refine ⟨hsound', (value?_add_eq_none_iff hclean).2 ⟨hfree', ?_⟩⟩
      rintro ⟨hkind, hkey⟩
      exact hnew other hother ⟨hkind.symm, hkey.symm⟩

/-- what a draft has in the end: the values that it started with and those that were added -/
theorem value?_foldl_iff (hclean : (listed.foldl add d).report = []) :
    (listed.foldl add d).value? kind key = some value ↔
      d.value? kind key = some value ∨ ∃ written, ⟨kind, written, value⟩ ∈ listed ∧ Text.trim written = key := by
  induction listed generalizing d with
  | nil => simp
  | cons o listed ih =>
    rw [List.foldl_cons] at hclean ⊢
    have hstep : (d.add o).report = [] := (foldl_add_clean_iff.1 hclean).1
    rw [ih hclean, value?_add_iff hstep]
    simp only [List.mem_cons, or_and_right, exists_or, or_assoc, eq_comm]

/-- an option whose key is no port-clock is reported -/
theorem reports_of_unread {fault : PortClock.Fault} (ho : o ∈ listed) (hread : PortClock.parse o.key = .error fault) :
    ⟨o.location, .badPortClock fault⟩ ∈ (listed.foldl add d).report := by
  have hunread : ∀ pc, PortClock.parse o.key ≠ .ok pc := by
    intro pc hok
    rw [hread] at hok
    cases hok
  obtain ⟨before, after, rfl⟩ := List.append_of_mem ho
  rw [List.foldl_append, List.foldl_cons]
  apply mem_report_foldl
  rcases (before.foldl add d).add_cases o with
    ⟨_, hread', heq⟩ | ⟨⟨_, hok⟩, _⟩ | ⟨⟨⟨_, hok⟩, _⟩, _⟩ | ⟨⟨⟨_, hok⟩, _⟩, _⟩
  · rw [hread, Except.error.injEq] at hread'
    rw [heq, hread']
    exact List.mem_append_right _ (List.mem_singleton.2 rfl)
  · exact absurd hok (hunread _)
  · exact absurd hok (hunread _)
  · exact absurd hok (hunread _)

end Draft

/-! ## A whole document -/

theorem addCategory_eq (kind : OptionKind) (options : HardwareOptions) (d : Draft) :
    d.addCategory kind.category options =
      (((kind.category.given options).getD []).map fun entry => (⟨kind, entry.1, entry.2⟩ : GivenOption)).foldl
        Draft.add d := by
  rw [Draft.addCategory, List.foldl_map]
  rfl

/-- a table is built by adding one option after the other -/
theorem draft_eq (options : HardwareOptions) : draft options = options.listed.foldl Draft.add ⟨[], []⟩ := by
  have hkinds : draft options =
      OptionKind.all.foldl (fun d kind => d.addCategory kind.category options) ⟨[], []⟩ := rfl
  rw [hkinds, HardwareOptions.listed, List.foldl_flatMap]
  simp only [addCategory_eq]

theorem draft_clean_iff : (draft options).report = [] ↔ options.Acceptable := by
  have hempty : ∀ (kind : OptionKind) key, (⟨[], []⟩ : Draft).value? kind key = none := fun _ _ => rfl
  rw [draft_eq, Draft.foldl_add_clean_iff]
  simp only [hempty, and_true, true_and]
  exact ⟨fun h => ⟨h.1, h.2⟩, fun h => ⟨h.sound, h.distinct⟩⟩

/-- **Accepted options.** -/
theorem build_eq_ok_iff : build options = .ok t ↔ options.Acceptable ∧ t = ⟨(draft options).table⟩ := by
  rw [← draft_clean_iff, build]
  simp only [List.isEmpty_iff]
  constructor
  · intro h
    split at h
    · rename_i hclean
      cases h
      exact ⟨hclean, rfl⟩
    · cases h
  · rintro ⟨hclean, rfl⟩
    rw [if_pos hclean]

theorem build_eq_error (h : issue ∈ (draft options).report) :
    build options = .error (.schema (draft options).report) := by
  have hne : (draft options).report ≠ [] := List.ne_nil_of_mem h
  rw [build]
  simp only [List.isEmpty_iff, hne, if_false]

theorem exists_build_iff : (∃ t, build options = .ok t) ↔ options.Acceptable := by
  constructor
  · rintro ⟨t, ht⟩
    exact (build_eq_ok_iff.1 ht).1
  · intro h
    exact ⟨_, build_eq_ok_iff.2 ⟨h, rfl⟩⟩

/-- **Options of a port-clock.** They are what is given under its written form, up to the blanks around the key. -/
theorem get_corrections_iff (h : build options = .ok t) :
    kind.category.get (t.corrections pc) = some value ↔
      ∃ written, ⟨kind, written, value⟩ ∈ options.listed ∧ Text.trim written = pc.text := by
  obtain ⟨haccepted, rfl⟩ := build_eq_ok_iff.1 h
  have hclean := draft_clean_iff.2 haccepted
  rw [corrections, Draft.get_lookup? (draft options)]
  rw [draft_eq] at hclean ⊢
  rw [Draft.value?_foldl_iff hclean]
  constructor
  · rintro (hstart | hgiven)
    · cases hstart
    · exact hgiven
  · exact Or.inr

end OptionTable

end RackMap
