/-
Which options are taken, what their table holds, and where the others are reported.

`OptionKind.Valid` says what is asked of one entry, `HardwareOptions.Valid` what is asked of all of them: both in terms of
the numbers of a value and of the keys of a category, without the checks of the categories and without a draft.
- `OptionKind.causes_eq_nil_iff`: the checks of a category are about the numbers of its values and about their bounds;
- `Draft.value?_add_ne_none_iff`, `Draft.value?_foldl_ne_none_iff`: valid options take up their key, whatever problems
  there are with others;
- `Draft.mem_report_iff`: a report has issues at the places of offending options, of each of them and of no others;
- `build_outcome`: options are taken iff they are valid, and then the table has each value at its place. Otherwise all
  offending entries are reported.
-/
import Mathlib.Tactic
import RackMap.Proofs.Numbers
import RackMap.Proofs.OptionTable.Written

namespace RackMap

open RackMap.Decimal (Double)

/-! ## Entries -/

namespace OptionKind

/-- the numbers of a value that must lie in [-1, 1] do -/
def InBounds : (kind : OptionKind) → kind.Value → Prop
  | sequencer, (value : SequencerOptions) => value.InBounds
  | _, _ => True

/-- the key is a port-clock, all numbers are finite, and those that are bounded are in bounds -/
structure Valid (kind : OptionKind) (entry : String × kind.Value) : Prop where
  key : ∃ pc, PortClock.parse entry.1 = .ok pc
  finite : AllFinite (kind.numbers entry.2)
  bounds : kind.InBounds entry.2

/-- the entry is not valid, or a valid entry before it has the same key -/
def Offends (kind : OptionKind) (before : Entries kind.Value) (entry : String × kind.Value) : Prop :=
  ¬kind.Valid entry ∨ ∃ other ∈ before, kind.Valid other ∧ Text.trim other.1 = Text.trim entry.1

/-- where an entry stands -/
def place (kind : OptionKind) (key : String) : String := s!"hardware_options.{kind.category.name}.{key}"

end OptionKind

namespace HardwareOptions

/-- every entry of every category is valid, and keys of a category are different without the blanks around them -/
structure Valid (options : HardwareOptions) : Prop where
  each : ∀ (kind : OptionKind) entries, kind.category.given options = some entries → ∀ entry ∈ entries, kind.Valid entry
  distinct : ∀ (kind : OptionKind) entries, kind.category.given options = some entries →
    (entries.map fun entry => Text.trim entry.1).Nodup

/-- the entry is given in its category -/
def Gives (options : HardwareOptions) (kind : OptionKind) (entry : String × kind.Value) : Prop :=
  ∃ entries, kind.category.given options = some entries ∧ entry ∈ entries

end HardwareOptions

/-- the values that are given, each at its place, and nothing else -/
structure OptionTable.Holds (t : OptionTable) (options : HardwareOptions) : Prop where
  /-- a category of a key is set to what is given for it, and it is not set if nothing is given -/
  value : ∀ (key : String) (kind : OptionKind) (value : kind.Value),
    kind.category.get ((t.entries.lookup? key).getD .empty) = some value ↔
      ∃ written, options.Gives kind (written, value) ∧ Text.trim written = key
  /-- the keys are those of all categories -/
  keys : ∀ key, key ∈ t.keys ↔ ∃ (kind : OptionKind) (entry : String × kind.Value),
    options.Gives kind entry ∧ Text.trim entry.1 = key
  once : t.keys.Nodup

/-- every offending entry has an issue at its place, and every issue is at the place of an offending entry -/
structure HardwareOptions.Reported (options : HardwareOptions) (report : Report) : Prop where
  each : ∀ (kind : OptionKind) before entry after, kind.category.given options = some (before ++ entry :: after) →
    kind.Offends before entry → ∃ issue ∈ report, issue.location = kind.place entry.1
  only : ∀ issue ∈ report, ∃ (kind : OptionKind) (before after : Entries kind.Value) (entry : String × kind.Value),
    kind.category.given options = some (before ++ entry :: after) ∧ kind.Offends before entry ∧
      issue.location = kind.place entry.1

variable {options : HardwareOptions} {t : OptionTable} {kind : OptionKind} {key : String} {value : kind.Value}
  {o : GivenOption} {listed : List GivenOption} {issue : Issue}

/-- **Checks of options.** They are that all numbers of a value are finite and that the bounded ones are in bounds. -/
theorem OptionKind.causes_eq_nil_iff :
    kind.category.causes value = [] ↔ AllFinite (kind.numbers value) ∧ kind.InBounds value := by
  constructor
  · intro h
    refine ⟨allFinite_numbers h, ?_⟩
    cases kind with
    | sequencer => exact SequencerOptions.inBounds_of_causes h
    | _ => trivial
  · rintro ⟨hfinite, hbounds⟩
    cases kind with
    | latency => exact OptionCategory.finiteCauses_eq_nil_iff.2 hfinite
    | distortion | modulation =>
      obtain ⟨hfirst, hsecond⟩ := allFinite_append.1 hfinite
      rw [← OptionCategory.finiteCauses_eq_nil_iff] at hfirst hsecond
      exact List.append_eq_nil_iff.2 ⟨hfirst, hsecond⟩
    | outputGain =>
      obtain ⟨hgainI, hgainQ⟩ : AllFinite (some value.gainI).toList ∧ AllFinite (some value.gainQ).toList :=
        allFinite_append.1 hfinite
      rw [← OptionCategory.finiteCauses_eq_nil_iff] at hgainI hgainQ
      exact List.append_eq_nil_iff.2 ⟨hgainI, hgainQ⟩
    | mixer =>
      obtain ⟨hfinite, hoffsetQ⟩ := allFinite_append.1 hfinite
      obtain ⟨hfinite, hoffsetI⟩ := allFinite_append.1 hfinite
      obtain ⟨hratio, hphase⟩ := allFinite_append.1 hfinite
      rw [← OptionCategory.finiteCauses_eq_nil_iff] at hratio hphase hoffsetI hoffsetQ
      exact List.append_eq_nil_iff.2 ⟨List.append_eq_nil_iff.2 ⟨List.append_eq_nil_iff.2 ⟨hratio, hphase⟩, hoffsetI⟩,
        hoffsetQ⟩
    | sequencer =>
      obtain ⟨-, hthreshold⟩ := allFinite_append.1 hfinite
      refine List.append_eq_nil_iff.2 ⟨List.flatMap_eq_nil_iff.2 fun p hp => ?_, ?_⟩
      · exact OptionCategory.boundCauses_eq_nil_iff.2 (hbounds p hp)
      · exact OptionCategory.finiteCauses_eq_nil_iff.2 hthreshold
    | outputAtt | inputAtt | inputGain => rfl

/-- an entry among the options of all kinds -/
def OptionKind.option (kind : OptionKind) (entry : String × kind.Value) : GivenOption := ⟨kind, entry.1, entry.2⟩

theorem OptionKind.option_injective (kind : OptionKind) : Function.Injective kind.option := by
  rintro ⟨key, value⟩ ⟨key', value'⟩ h
  cases h
  rfl

theorem OptionKind.sound_option_iff {entry : String × kind.Value} : (kind.option entry).Sound ↔ kind.Valid entry :=
  ⟨fun h => ⟨h.read, (causes_eq_nil_iff.1 h.passes).1, (causes_eq_nil_iff.1 h.passes).2⟩,
    fun h => ⟨h.key, causes_eq_nil_iff.2 ⟨h.finite, h.bounds⟩⟩⟩

/-! ## Reports -/

/-- something is said of this place -/
def Report.Names (report : Report) (place : String) : Prop := ∃ issue ∈ report, issue.location = place

namespace Report

variable {report : Report} {place location : String} {causes : List Cause}

theorem names_append {more : Report} : Names (report ++ more) place ↔ Names report place ∨ Names more place := by
  simp only [Names, List.mem_append, or_and_right, exists_or]

theorem names_located : Names (located location causes) place ↔ causes ≠ [] ∧ location = place := by
  cases causes with
  | nil => simp [Names, located]
  | cons cause causes =>
    simp only [Names, located, List.mem_map, ne_eq, reduceCtorEq, not_false_eq_true, true_and]
    constructor
    · rintro ⟨_, ⟨cause, -, rfl⟩, hplace⟩
      exact hplace
    · intro hplace
      exact ⟨_, ⟨cause, List.mem_cons_self, rfl⟩, hplace⟩

end Report

namespace OptionTable

namespace Draft

variable {d : Draft} {place : String}

/-! ## One option -/

/-- what a draft has once a value is entered under the trimmed key of its option -/
theorem value?_entered (d : Draft) (o : GivenOption) :
    Draft.value? { d with
        table := d.table.put (Text.trim o.key)
          (o.kind.category.put ((d.table.lookup? (Text.trim o.key)).getD .empty) o.value) } kind key =
      if key = Text.trim o.key then
        kind.category.get (o.kind.category.put ((d.table.lookup? (Text.trim o.key)).getD .empty) o.value)
      else d.value? kind key := by
  rw [value?, Table.lookup?_put]
  split <;> rfl

/-- a sound option takes up its key, and no other one does -/
theorem value?_add_ne_none_iff :
    (d.add o).value? kind key ≠ none ↔
      d.value? kind key ≠ none ∨ o.Sound ∧ o.kind = kind ∧ Text.trim o.key = key := by
  rcases d.add_cases o with ⟨fault, hread, heq⟩ | ⟨-, hcauses, heq⟩ | ⟨hsound, htaken, heq⟩ | ⟨hsound, hfree, heq⟩
  · have hunsound : ¬o.Sound := GivenOption.not_sound_of_unread hread
    simp only [heq, value?, hunsound, false_and, or_false]
  · have hunsound : ¬o.Sound := fun hsound => hcauses hsound.passes
    simp only [heq, value?, hunsound, false_and, or_false]
  · rw [heq]
    refine (or_iff_left_of_imp ?_).symm
    rintro ⟨-, rfl, rfl⟩
    exact htaken
  · rw [heq, value?_entered]
    by_cases hkey : key = Text.trim o.key
    · subst hkey
      rw [if_pos rfl]
      by_cases hkind : kind = o.kind
      · subst hkind
        refine iff_of_true ?_ (Or.inr ⟨hsound, rfl, rfl⟩)
        rw [OptionKind.get_put]
        exact Option.some_ne_none _
      · rw [OptionKind.get_put_of_ne hkind, get_lookup?]
        exact (or_iff_left fun h => hkind h.2.1.symm).symm
    · rw [if_neg hkey]
      exact (or_iff_left fun h => hkey h.2.2.symm).symm

/-- an option is reported at its place iff it is not sound or its key is taken -/
theorem names_add_iff :
    (d.add o).report.Names place ↔
      d.report.Names place ∨ (¬o.Sound ∨ d.value? o.kind (Text.trim o.key) ≠ none) ∧ o.location = place := by
  rcases d.add_cases o with ⟨fault, hread, heq⟩ | ⟨-, hcauses, heq⟩ | ⟨hsound, htaken, heq⟩ | ⟨hsound, hfree, heq⟩
  · have hunsound : ¬o.Sound := GivenOption.not_sound_of_unread hread
    simp [heq, Report.Names, hunsound, or_and_right, exists_or]
  · have hunsound : ¬o.Sound := fun hsound => hcauses hsound.passes
    simp [heq, Report.names_append, Report.names_located, hunsound, hcauses]
  · simp [heq, Report.Names, htaken, or_and_right, exists_or]
  · simp [heq, hsound, hfree]

/-! ## All options -/

/-- sound options take up their keys whatever problems there are with others -/
theorem value?_foldl_ne_none_iff :
    (listed.foldl add d).value? kind key ≠ none ↔
      d.value? kind key ≠ none ∨ ∃ o ∈ listed, o.Sound ∧ o.kind = kind ∧ Text.trim o.key = key := by
  induction listed generalizing d with
  | nil => simp
  | cons o listed ih => rw [List.foldl_cons, ih, value?_add_ne_none_iff, List.exists_mem_cons_iff, or_assoc]

/-- the first item of a list, or a later one with it before -/
theorem exists_split_cons_iff {α : Type} {a : α} {as : List α} {P : List α → α → Prop} :
    (∃ before b after, a :: as = before ++ b :: after ∧ P before b) ↔
      P [] a ∨ ∃ before b after, as = before ++ b :: after ∧ P (a :: before) b := by
  constructor
  · rintro ⟨_ | ⟨c, before⟩, b, after, heq, h⟩
    · cases heq
      exact Or.inl h
    · cases heq
      exact Or.inr ⟨before, b, after, rfl, h⟩
  · rintro (h | ⟨before, b, after, rfl, h⟩)
    · exact ⟨[], a, as, rfl, h⟩
    · exact ⟨a :: before, b, after, rfl, h⟩

/-- **Reported options.** A place is reported iff an option at this place is not sound or its key is taken by then. -/
theorem names_foldl_iff {place : String} :
    (listed.foldl add d).report.Names place ↔
      d.report.Names place ∨ ∃ before o after, listed = before ++ o :: after ∧
        (¬o.Sound ∨ (before.foldl add d).value? o.kind (Text.trim o.key) ≠ none) ∧ o.location = place := by
  induction listed generalizing d with
  | nil => simp
  | cons o listed ih =>
    rw [List.foldl_cons, ih, names_add_iff, exists_split_cons_iff, or_assoc]
    rfl

end Draft

/-- an option is not sound, or a sound one before it repeats it -/
theorem names_draft_iff {place : String} :
    (draft options).report.Names place ↔
      ∃ before o after, options.listed = before ++ o :: after ∧
        (¬o.Sound ∨ ∃ other ∈ before, other.Sound ∧ other.kind = o.kind ∧ Text.trim other.key = Text.trim o.key) ∧
        o.location = place := by
  have hstart : ∀ (kind : OptionKind) key, (⟨[], []⟩ : Draft).value? kind key = none := fun _ _ => rfl
  rw [draft_eq, Draft.names_foldl_iff]
  simp only [Draft.value?_foldl_ne_none_iff, hstart, ne_eq, not_true_eq_false, false_or]
  exact or_iff_right fun ⟨_, hissue, _⟩ => List.not_mem_nil hissue

/-! ## Categories -/

/-- the options of one kind -/
def optionsOf (options : HardwareOptions) (kind : OptionKind) : List GivenOption :=
  ((kind.category.given options).getD []).map kind.option

/-- the options of a kind stand together, and those of other kinds before and behind them -/
theorem exists_listed_eq (options : HardwareOptions) (kind : OptionKind) :
    ∃ before after, options.listed = before ++ (optionsOf options kind ++ after) ∧ (∀ o ∈ before, o.kind ≠ kind) ∧
      ∀ o ∈ after, o.kind ≠ kind := by
  obtain ⟨before, after, hall⟩ := List.append_of_mem kind.mem_all
  have hnodup : (before ++ kind :: after).Nodup := hall ▸ by decide
  have hother : ∀ kinds : List OptionKind, kind ∉ kinds → ∀ o ∈ kinds.flatMap (optionsOf options), o.kind ≠ kind := by
    intro kinds hkind o ho heq
    obtain ⟨other, hin, ho⟩ := List.mem_flatMap.1 ho
    obtain ⟨entry, -, rfl⟩ := List.mem_map.1 ho
    exact hkind (heq ▸ hin)
  obtain ⟨-, hafter, hdisjoint⟩ := List.nodup_append.1 hnodup
  refine ⟨before.flatMap (optionsOf options), after.flatMap (optionsOf options), ?_, hother _ fun hin => ?_,
    hother _ (List.nodup_cons.1 hafter).1⟩
  · have hlisted : options.listed = OptionKind.all.flatMap (optionsOf options) := rfl
    rw [hlisted, hall, List.flatMap_append, List.flatMap_cons]
  · exact hdisjoint _ hin _ List.mem_cons_self rfl

theorem filter_listed (options : HardwareOptions) (kind : OptionKind) :
    options.listed.filter (fun o => o.kind = kind) = optionsOf options kind := by
  obtain ⟨before, after, heq, hbefore, hafter⟩ := exists_listed_eq options kind
  have hkind : ∀ o ∈ optionsOf options kind, o.kind = kind := by
    intro o ho
    obtain ⟨entry, -, rfl⟩ := List.mem_map.1 ho
    rfl
  have hnone : ∀ {others : List GivenOption}, (∀ o ∈ others, o.kind ≠ kind) →
      others.filter (fun o => o.kind = kind) = [] := by
    intro others hothers
    simpa [List.filter_eq_nil_iff] using hothers
  rw [heq, List.filter_append, List.filter_append, hnone hbefore, hnone hafter, List.nil_append, List.append_nil,
    List.filter_eq_self]
  simpa using hkind

/-- an option stands in its category where it stands among the options of its kind -/
theorem exists_given_eq {before after : List GivenOption} {entry : String × kind.Value}
    (h : options.listed = before ++ kind.option entry :: after) :
    ∃ earlier later, kind.category.given options = some (earlier ++ entry :: later) ∧
      before.filter (fun o => o.kind = kind) = earlier.map kind.option := by
  have hcategory := filter_listed options kind
  rw [h, List.filter_append, List.filter_cons_of_pos (by simp [OptionKind.option]), optionsOf, eq_comm,
    List.map_eq_append_iff] at hcategory
  obtain ⟨earlier, rest, hentries, hearlier, hrest⟩ := hcategory
  obtain ⟨entry', later, rfl, hentry, -⟩ := List.map_eq_cons_iff.1 hrest
  obtain rfl := kind.option_injective hentry
  cases hgiven : kind.category.given options with
  | none =>
    rw [hgiven] at hentries
    simp at hentries
  | some entries =>
    rw [hgiven, Option.getD_some] at hentries
    exact ⟨earlier, later, congrArg some hentries, hearlier.symm⟩

/-- **Reported entries.** A place is reported iff an offending entry of some category stands there. -/
theorem names_iff {place : String} :
    (draft options).report.Names place ↔
      ∃ (kind : OptionKind) (before : Entries kind.Value) (entry : String × kind.Value) (after : Entries kind.Value),
        kind.category.given options = some (before ++ entry :: after) ∧ kind.Offends before entry ∧
          kind.place entry.1 = place := by
  rw [names_draft_iff]
  constructor
  · rintro ⟨before, ⟨kind, key, value⟩, after, hlisted, hoffends, rfl⟩
    have hlisted : options.listed = before ++ kind.option (key, value) :: after := hlisted
    obtain ⟨earlier, later, hgiven, hearlier⟩ := exists_given_eq hlisted
    refine ⟨kind, earlier, (key, value), later, hgiven, ?_, rfl⟩
    refine hoffends.imp (mt OptionKind.sound_option_iff.2) ?_
    rintro ⟨other, hother, hsound, hkind, hkey⟩
    have hin : other ∈ earlier.map kind.option := hearlier ▸ List.mem_filter.2 ⟨hother, decide_eq_true hkind⟩
    obtain ⟨entry, hentry, rfl⟩ := List.mem_map.1 hin
    exact ⟨entry, hentry, OptionKind.sound_option_iff.1 hsound, hkey⟩
  · rintro ⟨kind, before, entry, after, hgiven, hoffends, rfl⟩
    obtain ⟨others, rest, hlisted, -, -⟩ := exists_listed_eq options kind
    rw [optionsOf, hgiven, Option.getD_some, List.map_append, List.map_cons, List.append_assoc, List.cons_append,
      ← List.append_assoc] at hlisted
    refine ⟨_, kind.option entry, _, hlisted, ?_, rfl⟩
    refine hoffends.imp (mt OptionKind.sound_option_iff.1) ?_
    rintro ⟨other, hother, hvalid, hkey⟩
    exact ⟨kind.option other, List.mem_append_right _ (List.mem_map_of_mem hother),
      OptionKind.sound_option_iff.2 hvalid, rfl, hkey⟩

/-! ## Outcomes -/

theorem gives_iff {entry : String × kind.Value} : options.Gives kind entry ↔ kind.option entry ∈ options.listed :=
  HardwareOptions.mem_listed.symm

theorem acceptable_iff : options.Acceptable ↔ options.Valid := by
  have hgiven : ∀ {kind : OptionKind} {entries}, kind.category.given options = some entries →
      optionsOf options kind = entries.map kind.option := by
    intro kind entries hgiven
    rw [optionsOf, hgiven, Option.getD_some]
  constructor
  · intro h
    constructor
    · intro kind entries hentries entry hentry
      exact OptionKind.sound_option_iff.1 (h.sound _ (gives_iff.1 ⟨entries, hentries, hentry⟩))
    · intro kind entries hentries
      have hpairs := h.distinct.filter fun o => o.kind = kind
      rw [filter_listed, hgiven hentries, List.pairwise_map] at hpairs
      rw [List.Nodup, List.pairwise_map]
      exact hpairs.imp fun hrepeats hkey => hrepeats ⟨rfl, hkey⟩
  · intro h
    constructor
    · rintro ⟨kind, key, value⟩ ho
      obtain ⟨entries, hentries, hentry⟩ := HardwareOptions.mem_listed.1 ho
      exact OptionKind.sound_option_iff.2 (h.each kind entries hentries _ hentry)
    · have hlisted : options.listed = OptionKind.all.flatMap (optionsOf options) := rfl
      rw [hlisted, List.pairwise_flatMap]
      constructor
      · intro kind _
        cases hentries : kind.category.given options with
        | none =>
          rw [optionsOf, hentries]
          exact List.Pairwise.nil
        | some entries =>
          rw [hgiven hentries, List.pairwise_map]
          exact (List.pairwise_map.1 (h.distinct kind entries hentries)).imp fun hkey hrepeats => hkey hrepeats.2
      · have hkinds : OptionKind.all.Nodup := by decide
        refine hkinds.imp fun hne o ho o' ho' hrepeats => hne ?_
        obtain ⟨entry, -, rfl⟩ := List.mem_map.1 ho
        obtain ⟨entry', -, rfl⟩ := List.mem_map.1 ho'
        exact hrepeats.1

/-- a table holds what is given for it -/
theorem holds_of_build (h : build options = .ok t) : t.Holds options where
  value key kind value := by
    have hlookup : kind.category.get ((t.entries.lookup? key).getD .empty) =
        (t.entries.lookup? key).bind kind.category.get := Draft.get_lookup? ⟨t.entries, []⟩ kind key
    rw [hlookup, value?_iff h]
    simp only [gives_iff, OptionKind.option]
  keys key := by
    rw [mem_keys_iff h]
    constructor
    · rintro ⟨⟨kind, key, value⟩, ho, hkey⟩
      exact ⟨kind, (key, value), gives_iff.2 ho, hkey⟩
    · rintro ⟨kind, entry, hgives, hkey⟩
      exact ⟨kind.option entry, gives_iff.1 hgives, hkey⟩
  once := nodup_keys h

/-- a report names the places of all offending entries and no others -/
theorem reported_draft (options : HardwareOptions) : options.Reported (draft options).report where
  each kind before entry after hgiven hoffends := names_iff.2 ⟨kind, before, entry, after, hgiven, hoffends, rfl⟩
  only issue hissue := by
    obtain ⟨kind, before, entry, after, hgiven, hoffends, hplace⟩ := names_iff.1 ⟨issue, hissue, rfl⟩
    exact ⟨kind, before, after, entry, hgiven, hoffends, hplace.symm⟩

/-- **Building a table of options.** It is built iff the options are valid, and then it holds what is given: each value in
its category under its key, and nothing else. If it is not built, each offending entry is reported where it stands. -/
theorem build_outcome (options : HardwareOptions) :
    ((∃ t, build options = .ok t) ↔ options.Valid) ∧ (∀ t, build options = .ok t → t.Holds options) ∧
      ∀ failure, build options = .error failure → ∃ report, failure = .schema report ∧ options.Reported report := by
  refine ⟨exists_build_iff.trans acceptable_iff, fun t h => holds_of_build h, fun failure h => ?_⟩
  unfold build at h
  simp only at h
  split at h
  · cases h
  · cases h
    exact ⟨_, rfl, reported_draft options⟩

/-- one key three times, the first time with a gain out of bounds, and one key that is no port-clock -/
def repeatedOptions : HardwareOptions where
  sequencer? := some [(" q0:mw-q0.01", { SequencerOptions.none with gain0? := some (Double.ofInt 2) }),
    ("q0:mw-q0.01", .none), ("q0:mw-q0.01 ", .none), ("q0", .none)]

/-- all but the second entry are reported -/
theorem build_outcome_repeated :
    ∃ report, build repeatedOptions = .error (.schema report) ∧ repeatedOptions.Reported report ∧
      report.map Issue.location = ["hardware_options.sequencer_options. q0:mw-q0.01",
        "hardware_options.sequencer_options.q0:mw-q0.01 ", "hardware_options.sequencer_options.q0"] := by
  have hplaces : (draft repeatedOptions).report.map Issue.location =
      ["hardware_options.sequencer_options. q0:mw-q0.01", "hardware_options.sequencer_options.q0:mw-q0.01 ",
        "hardware_options.sequencer_options.q0"] := by
    decide +kernel
  have hproblems : (draft repeatedOptions).report ≠ [] := by
    intro hempty
    rw [hempty] at hplaces
    cases hplaces
  obtain ⟨issue, hissue⟩ := List.exists_mem_of_ne_nil _ hproblems
  have hfailure := build_eq_error hissue
  obtain ⟨report, heq, hreported⟩ := (build_outcome repeatedOptions).2.2 _ hfailure
  cases heq
  exact ⟨_, hfailure, hreported, hplaces⟩

end OptionTable

end RackMap
