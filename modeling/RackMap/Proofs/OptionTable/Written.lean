/-
Option tables, written and read back.

A table is written back as an options document: under each category the values of this kind, each under its key. The
values are read as they were (`OptionKind.read_toJson`), and no key was given twice, so the document is accepted. Its
table has the same keys in the same order, since a key that a later category brings up first comes after those of the
earlier ones in both.
- `keys_eq_firsts`: the keys of a table stand as the categories bring them up;
- `build_toOptions`: the values of a table build it again;
- `read_toDocument`: they are read from the document that is written;
- `build_written`: together, the options of a table survive being written and read.
-/
import Mathlib.Tactic
import RackMap.Proofs.OptionTable.Keys
import RackMap.Proofs.OptionTable.Payloads
import RackMap.Proofs.Text.Trimmed
import RackMap.Proofs.Wiring.Firsts

namespace RackMap

open RackMap.Shape
open RackMap.Wiring (firsts)

variable {options : HardwareOptions} {t : OptionTable} {kind : OptionKind} {key : String} {value : kind.Value}
  {set : CorrectionSet}

/-! ## What is written -/

/-- the member of a written correction set for a kind -/
def CorrectionSet.written? (set : CorrectionSet) (kind : OptionKind) : Option Json :=
  match set.toJson with
  | .obj members => Table.lookup? members kind.fieldName
  | _ => none

/-- the members for some of the kinds, by name -/
theorem CorrectionSet.lookup?_members (set : CorrectionSet) (kind : OptionKind) (kinds : List OptionKind) :
    Table.lookup? (kinds.flatMap fun other => Json.member? other.fieldName other.toJson (other.category.get set))
      kind.fieldName = if kind ∈ kinds then (kind.category.get set).map kind.toJson else none := by
  induction kinds with
  | nil => rfl
  | cons other kinds ih =>
    rw [List.flatMap_cons]
    by_cases hsame : other = kind
    · subst hsame
      rw [if_pos List.mem_cons_self]
      cases hget : other.category.get set with
      | some value =>
        rw [Json.member?, List.singleton_append, Table.lookup?, if_pos rfl]
        rfl
      | none =>
        rw [Json.member?, List.nil_append, ih, hget]
        split <;> rfl
    · have hin : kind ∈ other :: kinds ↔ kind ∈ kinds := by
        rw [List.mem_cons]
        exact or_iff_right (Ne.symm hsame)
      have hname : other.fieldName ≠ kind.fieldName := fun hsameName => hsame (OptionKind.fieldName_inj _ _ hsameName)
      simp only [hin, ← ih]
      cases other.category.get set with
      | some value => rw [Json.member?, List.singleton_append, Table.lookup?, if_neg hname]
      | none => rfl

/-- what is set is written under its own name, and nothing else is -/
theorem CorrectionSet.written?_eq (set : CorrectionSet) (kind : OptionKind) :
    set.written? kind = (kind.category.get set).map kind.toJson := by
  rw [written?, toJson_eq]
  exact (lookup?_members set kind _).trans (if_pos kind.mem_all)

namespace OptionTable

/-- the values of a kind, each under its key -/
def valuesOf (t : OptionTable) (kind : OptionKind) : Entries kind.Value :=
  t.entries.filterMap fun entry => (kind.category.get entry.2).map fun value => (entry.1, value)

/-- the values of a table as options -/
def toOptions (t : OptionTable) : HardwareOptions :=
  OptionKind.all.foldl (fun options kind => kind.set options (some (t.valuesOf kind))) {}

/-- the options document that a table is written as -/
def toDocument (t : OptionTable) : Json :=
  .obj (OptionKind.all.map fun kind => (kind.category.name, .obj (t.entries.filterMap fun entry =>
    (entry.2.written? kind).map fun json => (entry.1, json))))

theorem given_toOptions (t : OptionTable) (kind : OptionKind) :
    kind.category.given t.toOptions = some (t.valuesOf kind) := by
  cases kind <;> rfl

theorem mem_valuesOf :
    (key, value) ∈ t.valuesOf kind ↔ ∃ set, (key, set) ∈ t.entries ∧ kind.category.get set = some value := by
  simp only [valuesOf, List.mem_filterMap, Option.map_eq_some_iff, Prod.mk.injEq]
  constructor
  · rintro ⟨⟨key', set⟩, hin, v, hv, rfl, rfl⟩
    exact ⟨set, hin, hv⟩
  · rintro ⟨set, hin, hvalue⟩
    exact ⟨(key, set), hin, value, hvalue, rfl, rfl⟩

/-! ## What a table is built from -/

theorem value?_iff (h : build options = .ok t) :
    (t.entries.lookup? key).bind kind.category.get = some value ↔
      ∃ written, ⟨kind, written, value⟩ ∈ options.listed ∧ Text.trim written = key := by
  obtain ⟨haccepted, rfl⟩ := build_eq_ok_iff.1 h
  have hclean := draft_clean_iff.2 haccepted
  change (draft options).value? kind key = some value ↔ _
  rw [draft_eq] at hclean ⊢
  rw [Draft.value?_foldl_iff hclean]
  constructor
  · rintro (hstart | hgiven)
    · cases hstart
    · exact hgiven
  · exact Or.inr

theorem value?_iff_mem (h : build options = .ok t) :
    (t.entries.lookup? key).bind kind.category.get = some value ↔ (key, value) ∈ t.valuesOf kind := by
  rw [mem_valuesOf, Option.bind_eq_some_iff]
  simp only [Table.lookup?_eq_some_iff (nodup_keys h)]

/-- the keys of a kind, without the blanks around them -/
def keysOf (options : HardwareOptions) (kind : OptionKind) : List String :=
  ((kind.category.given options).getD []).map fun entry => Text.trim entry.1

theorem map_listed (options : HardwareOptions) :
    options.listed.map (fun o => Text.trim o.key) = OptionKind.all.flatMap (keysOf options) := by
  rw [HardwareOptions.listed, List.map_flatMap]
  refine List.flatMap_congr fun kind _ => ?_
  rw [keysOf, List.map_map]
  rfl

theorem keys_foldl_add {listed : List GivenOption} (hclean : (listed.foldl Draft.add ⟨[], []⟩).report = []) :
    (listed.foldl Draft.add ⟨[], []⟩).table.keys = firsts (listed.map fun o => Text.trim o.key) := by
  induction listed using List.reverseRecOn with
  | nil => rfl
  | append_singleton listed o ih =>
    rw [List.foldl_append, List.foldl_cons, List.foldl_nil] at hclean ⊢
    obtain ⟨hbefore, hsound, hfree⟩ := Draft.add_clean_iff.1 hclean
    rw [List.map_append, List.map_singleton, Wiring.firsts_concat, ← ih hbefore]
    rcases (listed.foldl Draft.add ⟨[], []⟩).add_cases o with
      ⟨fault, hread, -⟩ | ⟨-, hcauses, -⟩ | ⟨-, hvalue, -⟩ | ⟨-, -, heq⟩
    · exact absurd hsound (GivenOption.not_sound_of_unread hread)
    · exact absurd hsound.passes hcauses
    · exact absurd hfree hvalue
    · rw [heq, Table.keys_put]
      simp only [ih hbefore, Wiring.mem_firsts]

/-- **Order of the keys.** They stand as the categories bring them up, one after the other. -/
theorem keys_eq_firsts (h : build options = .ok t) : t.keys = firsts (OptionKind.all.flatMap (keysOf options)) := by
  obtain ⟨haccepted, rfl⟩ := build_eq_ok_iff.1 h
  have hclean := draft_clean_iff.2 haccepted
  rw [← map_listed, keys]
  rw [draft_eq] at hclean ⊢
  exact keys_foldl_add hclean

theorem mem_keysOf :
    key ∈ keysOf options kind ↔
      ∃ value written, ⟨kind, written, value⟩ ∈ options.listed ∧ Text.trim written = key := by
  simp only [HardwareOptions.mem_listed, keysOf, List.mem_map]
  constructor
  · rintro ⟨⟨written, value⟩, hentry, rfl⟩
    cases hgiven : kind.category.given options with
    | none =>
      rw [hgiven] at hentry
      cases hentry
    | some entries =>
      rw [hgiven] at hentry
      exact ⟨value, written, ⟨entries, rfl, hentry⟩, rfl⟩
  · rintro ⟨value, written, ⟨entries, hgiven, hentry⟩, rfl⟩
    refine ⟨(written, value), ?_, rfl⟩
    rw [hgiven]
    exact hentry

theorem trim_of_mem_keys (h : build options = .ok t) (hkey : key ∈ t.keys) : Text.trim key = key := by
  obtain ⟨o, -, rfl⟩ := (mem_keys_iff h).1 hkey
  exact Text.trim_trim o.key

theorem trim_of_mem_valuesOf (h : build options = .ok t) (hvalue : (key, value) ∈ t.valuesOf kind) :
    Text.trim key = key := by
  obtain ⟨set, hset, -⟩ := mem_valuesOf.1 hvalue
  exact trim_of_mem_keys h (List.mem_map_of_mem hset)

/-- the keys of the values of a kind are those of its keys that the table has, in the order of the table -/
theorem keysOf_toOptions (h : build options = .ok t) (kind : OptionKind) :
    keysOf t.toOptions kind = t.keys.filter (· ∈ keysOf options kind) := by
  have htrim : ∀ entry ∈ t.valuesOf kind, Text.trim entry.1 = entry.1 := by
    rintro ⟨key, value⟩ hvalue
    exact trim_of_mem_valuesOf h hvalue
  have hgiven : ∀ entry ∈ t.entries, (kind.category.get entry.2).isSome = decide (entry.1 ∈ keysOf options kind) := by
    rintro ⟨key, set⟩ hentry
    have hlookup := (Table.lookup?_eq_some_iff (nodup_keys h)).2 hentry
    rw [Bool.eq_iff_iff, decide_eq_true_eq, mem_keysOf, Option.isSome_iff_exists]
    simp only [← value?_iff h, hlookup, Option.bind_some]
  rw [keysOf, given_toOptions, Option.getD_some, List.map_congr_left htrim, keys, Table.keys, List.filter_map,
    valuesOf, List.map_filterMap, ← List.filterMap_eq_map, ← List.filterMap_eq_filter, List.filterMap_filterMap]
  refine List.filterMap_congr fun entry hentry => ?_
  have hsome := hgiven entry hentry
  cases hget : kind.category.get entry.2 with
  | none =>
    rw [hget] at hsome
    simp [Option.guard, ← hsome]
  | some value =>
    rw [hget] at hsome
    simp [Option.guard, ← hsome]

/-! ## Building again -/

theorem mem_listed_toOptions :
    (⟨kind, key, value⟩ : GivenOption) ∈ t.toOptions.listed ↔ (key, value) ∈ t.valuesOf kind := by
  simp only [HardwareOptions.mem_listed, given_toOptions, Option.some.injEq, exists_eq_left']

theorem acceptable_toOptions (h : build options = .ok t) : t.toOptions.Acceptable := by
  constructor
  · rintro ⟨kind, key, value⟩ hin
    obtain ⟨written, hgiven, htrim⟩ := (value?_iff h).1 ((value?_iff_mem h).2 (mem_listed_toOptions.1 hin))
    obtain ⟨⟨pc, hread⟩, hpasses⟩ := (build_eq_ok_iff.1 h).1.sound _ hgiven
    refine ⟨⟨pc, ?_⟩, hpasses⟩
    rw [PortClock.parse] at hread ⊢
    rw [← htrim, Text.trim_trim]
    exact hread
  · rw [HardwareOptions.listed, List.pairwise_flatMap]
    constructor
    · intro kind _
      have hkeys : (keysOf t.toOptions kind).Nodup := by
        rw [keysOf_toOptions h]
        exact (nodup_keys h).filter _
      rw [keysOf] at hkeys
      rw [List.pairwise_map]
      refine (List.pairwise_map.1 hkeys).imp fun {a b} hne hrepeats => hne hrepeats.2
    · refine OptionKind.nodup_all.imp fun {a b} hne o ho o' ho' hrepeats => hne ?_
      obtain ⟨entry, -, rfl⟩ := List.mem_map.1 ho
      obtain ⟨entry', -, rfl⟩ := List.mem_map.1 ho'
      exact hrepeats.1

/-- **Building again.** The values of a table build the same table, its keys in the same order. -/
theorem build_toOptions (h : build options = .ok t) : build t.toOptions = .ok t := by
  obtain ⟨t', ht'⟩ := exists_build_iff.2 (acceptable_toOptions h)
  have hkeys : t.keys = t'.keys := by
    rw [keys_eq_firsts ht', List.flatMap_congr fun kind _ => keysOf_toOptions h kind, keys_eq_firsts h,
      Wiring.firsts_flatMap_filter]
  have hvalues : ∀ kind key, (t.entries.lookup? key).bind (kind : OptionKind).category.get =
      (t'.entries.lookup? key).bind kind.category.get := by
    intro kind key
    refine Option.ext fun value => ?_
    simp only [value?_iff_mem h, value?_iff ht', mem_listed_toOptions]
    constructor
    · intro hin
      exact ⟨key, hin, trim_of_mem_valuesOf h hin⟩
    · rintro ⟨written, hin, rfl⟩
      rw [trim_of_mem_valuesOf h hin]
      exact hin
  have hlookup : ∀ key, t.entries.lookup? key = t'.entries.lookup? key := by
    intro key
    by_cases hin : key ∈ t.keys
    · obtain ⟨set, hset⟩ := Table.exists_lookup? hin
      rw [hkeys] at hin
      obtain ⟨set', hset'⟩ := Table.exists_lookup? hin
      have hsame : set = set' := by
        refine CorrectionSet.eq_of_get_eq fun kind => ?_
        have hvalue := hvalues kind key
        rw [hset, hset', Option.bind_some, Option.bind_some] at hvalue
        exact hvalue
      rw [hset, hset', hsame]
    · rw [Table.lookup?_eq_none_iff.2 hin]
      rw [hkeys] at hin
      exact (Table.lookup?_eq_none_iff.2 hin).symm
  have hsame : t = t' := by
    cases t
    cases t'
    exact congrArg OptionTable.mk (Table.eq_of_keys_eq (nodup_keys h) hkeys hlookup)
  rw [ht', hsame]

/-! ## Reading back -/

/-- the values of a table were given, so they passed their checks and are the machine's -/
theorem read_toJson_of_mem (h : build options = .ok t) (hfits : options.Fits)
    (hvalue : (key, value) ∈ t.valuesOf kind) : kind.read.ofTree (kind.toJson value) = .ok value := by
  obtain ⟨written, hgiven, -⟩ := (value?_iff h).1 ((value?_iff_mem h).2 hvalue)
  have hpasses := ((build_eq_ok_iff.1 h).1.sound _ hgiven).passes
  obtain ⟨entries, hentries, hentry⟩ := HardwareOptions.mem_listed.1 hgiven
  exact OptionKind.read_toJson (OptionKind.allFinite_numbers hpasses) (hfits kind entries hentries _ hentry)

/-- a table is written value by value -/
theorem toDocument_eq (t : OptionTable) :
    t.toDocument = .obj (OptionKind.all.map fun kind =>
      (kind.category.name, .obj ((t.valuesOf kind).map fun entry => (entry.1, kind.toJson entry.2)))) := by
  rw [toDocument]
  congr 1
  refine List.map_congr_left fun kind _ => ?_
  rw [valuesOf, List.map_filterMap]
  congr 2
  refine List.filterMap_congr fun entry _ => ?_
  rw [CorrectionSet.written?_eq, Option.map_map, Option.map_map]
  rfl

/-- the categories are read one after the other, each into its place -/
theorem takes_categories
    (hread : ∀ kind, ∀ entry ∈ t.valuesOf kind, kind.read.ofTree (kind.toJson entry.2) = .ok entry.2)
    {kinds : List OptionKind} (hkinds : kinds.Nodup) {given names : List String} {before : HardwareOptions}
    (hnew : ∀ kind ∈ kinds, kind.category.name ∉ names) :
    HardwareOptions.form.Takes given names before
      (kinds.map fun kind =>
        (kind.category.name, .obj ((t.valuesOf kind).map fun entry => (entry.1, kind.toJson entry.2))))
      (kinds.foldl (fun options kind => kind.set options (some (t.valuesOf kind))) before) := by
  induction kinds generalizing given names before with
  | nil =>
    refine .nil fun field hfield => Or.inl ?_
    rw [HardwareOptions.fields_form] at hfield
    obtain ⟨kind, -, rfl⟩ := List.mem_map.1 hfield
    rfl
  | cons kind kinds ih =>
    obtain ⟨hfirst, hrest⟩ := List.nodup_cons.1 hkinds
    have hfind : HardwareOptions.form.fields.find? (·.spellings.contains kind.category.name) =
        some (HardwareOptions.category kind.category.name kind.read kind.set) := by
      cases kind <;> rfl
    have hcategory : (HardwareOptions.category kind.category.name kind.read kind.set).read
        (.ofJson (.obj ((t.valuesOf kind).map fun entry => (entry.1, kind.toJson entry.2)))) before =
          .ok (kind.set before (some (t.valuesOf kind))) := by
      have hentries : Reader.entries "an object keyed by port-clock" kind.read
          (.ofJson (.obj ((t.valuesOf kind).map fun entry => (entry.1, kind.toJson entry.2)))) =
            .ok (t.valuesOf kind) := Reader.entries_ofJson (hread kind)
      rw [HardwareOptions.category, Field.defaulted, Field.optional]
      simp only [Reader.nullable_obj, hentries]
      rfl
    refine .member hfind (hnew kind List.mem_cons_self) hcategory (ih hrest fun other hother => ?_)
    rw [List.mem_cons, not_or]
    refine ⟨fun hsame => ?_, hnew other (List.mem_cons_of_mem kind hother)⟩
    obtain rfl := OptionKind.name_inj _ _ hsame
    exact hfirst hother

/-- the values of a table are read from the document that is written -/
theorem read_toDocument (h : build options = .ok t) (hfits : options.Fits) :
    HardwareOptions.read.ofTree t.toDocument = .ok t.toOptions := by
  have hread : ∀ kind, ∀ entry ∈ t.valuesOf kind, kind.read.ofTree (kind.toJson entry.2) = .ok entry.2 := by
    intro kind entry hentry
    exact read_toJson_of_mem h hfits hentry
  rw [toDocument_eq]
  exact Form.read_of_takes (takes_categories hread OptionKind.nodup_all fun kind _ => List.not_mem_nil)

/-- **Options that survive.** Each value in a table is read from what is written of it as it was. Written back under the
same keys, all values build the same table. -/
theorem build_written (h : build options = .ok t) (hfits : options.Fits) :
    (∀ entry ∈ t.entries, ∀ (kind : OptionKind) (value : kind.Value), kind.category.get entry.2 = some value →
      ∃ json, entry.2.written? kind = some json ∧ kind.read.ofTree json = .ok value) ∧
      ∃ again, HardwareOptions.read.ofTree t.toDocument = .ok again ∧ build again = .ok t := by
  refine ⟨fun entry hentry kind value hvalue => ⟨kind.toJson value, ?_, ?_⟩, t.toOptions, read_toDocument h hfits,
    build_toOptions h⟩
  · rw [CorrectionSet.written?_eq, hvalue]
    rfl
  · exact read_toJson_of_mem h hfits (mem_valuesOf.2 ⟨entry.2, hentry, hvalue⟩)

/-- options of all kinds, with blanks around keys and spellings that are not written -/
def mixedDocument : Json :=
  .obj [
    ("latency_corrections", .obj [(" q0:mw-q0.01 ", .int 3), ("q1:res-q1.ro", .float (.finite true 0))]),
    ("distortion_corrections", .obj [("q0:mw-q0.01", .obj [("input_var_name", .str "t"), ("filter_func", .str "lfilter"),
      ("clipping_values", .arr [.int (-1), .int 1]), ("kwargs", .obj [("b", .arr [.null, .obj [("b", .int 2)]])])])]),
    ("modulation_frequencies", .obj [("q1:mw-q1.01", .obj [("interm_freq", .null), ("lo_freq", .int 5)])]),
    ("mixer_corrections", .obj [("q1:mw-q1.01", .obj [("dc_offset_Q", .int 1), ("amp_ratio", .null)])]),
    ("output_att", .obj [("q0:mw-q0.01", .int 4294967295)]),
    ("input_att", .obj [("q1:res-q1.ro", .int 0)]),
    ("output_gain", .obj [("q0:mw-q0.01", .arr [.int 1, .int 0])]),
    ("input_gain", .obj [("q1:res-q1.ro", .obj [("gain_Q", .int (-2)), ("note", .null), ("gain_I", .int 2)]),
      ("q0:mw-q0.01", .int (-3))]),
    ("sequencer_options", .obj [("q2:mw-q2.01", .obj []), ("q1:mw-q1.01", .obj [("init_gain_awg_path_1", .int (-1))])])]

/-- options of all kinds survive -/
theorem mixedDocument_survives :
    ∃ options t, HardwareOptions.read.ofTree mixedDocument = .ok options ∧ options.Fits ∧ build options = .ok t ∧
      t.keys = ["q0:mw-q0.01", "q1:res-q1.ro", "q1:mw-q1.01", "q2:mw-q2.01"] ∧
      (∀ entry ∈ t.entries, ∀ (kind : OptionKind) (value : kind.Value), kind.category.get entry.2 = some value →
        ∃ json, entry.2.written? kind = some json ∧ kind.read.ofTree json = .ok value) ∧
      ∃ again, HardwareOptions.read.ofTree t.toDocument = .ok again ∧ build again = .ok t := by
  obtain ⟨options, hoptions, hbuilt⟩ := exists_eq_ok (x := HardwareOptions.read.ofTree mixedDocument)
    (c := fun options => (build options).toOption.any fun t =>
      t.keys = ["q0:mw-q0.01", "q1:res-q1.ro", "q1:mw-q1.01", "q2:mw-q2.01"]) (by decide +kernel)
  obtain ⟨t, ht, hkeys⟩ := exists_eq_ok hbuilt
  have hfits : options.Fits := HardwareOptions.fits_of_read hoptions
  exact ⟨options, t, hoptions, hfits, ht, of_decide_eq_true hkeys, build_written ht hfits⟩

end OptionTable

end RackMap
