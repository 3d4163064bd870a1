/-
The kinds of options one by one: under which name a document gives them, where a correction set keeps them, and what is
asked of their values.

The statements on option tables go over kinds of options. Here each kind is written out as an `OptionField`.
- `optionFields_eq`: the nine fields that are written out are those that the kinds of options stand for;
- `HardwareOptions.valid_iff`, `OptionTable.holds_iff`: options are valid, and a table holds them, field by field;
- `HardwareOptions.reported_iff`: offending entries are reported under the names of their fields;
- `SequencerOptions.inBounds_iff`, `SequencerOptions.mem_causes_iff`: the four initial values that must lie in [-1, 1];
- `OptionTable.kept_corrections_iff`, `OptionTable.lo?_modulation_iff`: what a table has for a port-clock is what the
  config gives under its key.
-/
import Mathlib.Tactic
import RackMap.Compilation
import RackMap.Proofs.OptionTable.Acceptance

namespace RackMap

open RackMap.Decimal (Double)

/-- the number is finite, if there is one -/
def OpenFinite (x? : Option Double) : Prop := ∀ x, x? = some x → x.isFinite = true

/-- the number lies in [-1, 1], if there is one -/
def OpenUnit (x? : Option Double) : Prop := ∀ x, x? = some x → x.within (Double.ofInt (-1)) (Double.ofInt 1) = true

/-- a field of an options document -/
structure OptionField where
  Value : Type
  name : String
  /-- the entries that a document gives -/
  given : HardwareOptions → Option (Entries Value)
  /-- the value that a correction set keeps -/
  kept : CorrectionSet → Option Value
  /-- what is asked of a value -/
  Right : Value → Prop

/-- the fields of an options document -/
def optionFields : List OptionField := [
  { Value := Double, name := "latency_corrections"
    given := fun options => options.latency?
    kept := fun set => set.latency?
    Right := fun latency => latency.isFinite = true },
  { Value := Distortion, name := "distortion_corrections"
    given := fun options => options.distortion?
    kept := fun set => set.distortion?
    Right := fun d => ∀ low high, d.clipping? = some (low, high) → low.isFinite = true ∧ high.isFinite = true },
  { Value := Modulation, name := "modulation_frequencies"
    given := fun options => options.modulation?
    kept := fun set => set.modulation?
    Right := fun m => OpenFinite m.interm? ∧ OpenFinite m.lo? },
  { Value := MixerCorrection, name := "mixer_corrections"
    given := fun options => options.mixer?
    kept := fun set => set.mixer?
    Right := fun c => OpenFinite c.ampRatio? ∧ OpenFinite c.phaseError? ∧ OpenFinite c.offsetI? ∧
      OpenFinite c.offsetQ? },
  { Value := Nat, name := "output_att"
    given := fun options => options.outputAtt?
    kept := fun set => set.outputAtt?
    Right := fun _ => True },
  { Value := Nat, name := "input_att"
    given := fun options => options.inputAtt?
    kept := fun set => set.inputAtt?
    Right := fun _ => True },
  { Value := OutputGain, name := "output_gain"
    given := fun options => options.outputGain?
    kept := fun set => set.outputGain?
    Right := fun g => g.gainI.isFinite = true ∧ g.gainQ.isFinite = true },
  { Value := InputGain, name := "input_gain"
    given := fun options => options.inputGain?
    kept := fun set => set.inputGain?
    Right := fun _ => True },
  { Value := SequencerOptions, name := "sequencer_options"
    given := fun options => options.sequencer?
    kept := fun set => set.sequencer?
    Right := fun o => OpenUnit o.offset0? ∧ OpenUnit o.offset1? ∧ OpenUnit o.gain0? ∧ OpenUnit o.gain1? ∧
      OpenFinite o.threshold? }]

variable {options : HardwareOptions} {config : Config} {t : OptionTable} {kind : OptionKind} {value : kind.Value}
  {pc : PortClock} {x? : Option Double}

/-! ## Values -/

theorem allFinite_toList_iff : AllFinite x?.toList ↔ OpenFinite x? := allFinite_toList

theorem openFinite_of_openUnit (h : OpenUnit x?) : OpenFinite x? := fun x hx => isFinite_of_unit (h x hx)

/-- four initial values are bounded -/
theorem SequencerOptions.inBounds_iff {o : SequencerOptions} :
    o.InBounds ↔ OpenUnit o.offset0? ∧ OpenUnit o.offset1? ∧ OpenUnit o.gain0? ∧ OpenUnit o.gain1? := by
  simp only [InBounds, bounded, List.forall_mem_cons, List.not_mem_nil, false_imp_iff, implies_true, and_true]
  rfl

namespace OptionKind

/-- what a kind of option asks of a value -/
def Right (kind : OptionKind) (value : kind.Value) : Prop := AllFinite (kind.numbers value) ∧ kind.InBounds value

/-- the field that a kind of option stands for -/
def field (kind : OptionKind) : OptionField :=
  ⟨kind.Value, kind.category.name, kind.category.given, kind.category.get, kind.Right⟩

theorem right_latency_iff {latency : Double} : Right .latency latency ↔ latency.isFinite = true := by
  simp [Right, numbers, InBounds, AllFinite]

theorem right_distortion_iff {d : Distortion} :
    Right .distortion d ↔ ∀ low high, d.clipping? = some (low, high) → low.isFinite = true ∧ high.isFinite = true := by
  cases h : d.clipping? with
  | none => simp [Right, numbers, Distortion.numbers, InBounds, h]
  | some clipping =>
    obtain ⟨low, high⟩ := clipping
    have hnumbers : Right .distortion d ↔ low.isFinite = true ∧ high.isFinite = true := by
      simp [Right, numbers, Distortion.numbers, InBounds, AllFinite, h]
    rw [hnumbers]
    constructor
    · rintro hfinite _ _ heq
      cases heq
      exact hfinite
    · intro hall
      exact hall low high rfl

theorem right_modulation_iff {m : Modulation} : Right .modulation m ↔ OpenFinite m.interm? ∧ OpenFinite m.lo? := by
  simp [Right, numbers, Modulation.numbers, InBounds, allFinite_toList_iff]

theorem right_mixer_iff {c : MixerCorrection} :
    Right .mixer c ↔ OpenFinite c.ampRatio? ∧ OpenFinite c.phaseError? ∧ OpenFinite c.offsetI? ∧
      OpenFinite c.offsetQ? := by
  simp [Right, numbers, MixerCorrection.numbers, InBounds, allFinite_toList_iff]

theorem right_outputGain_iff {g : OutputGain} :
    Right .outputGain g ↔ g.gainI.isFinite = true ∧ g.gainQ.isFinite = true := by
  simp [Right, numbers, InBounds, AllFinite]

theorem right_sequencer_iff {o : SequencerOptions} :
    Right .sequencer o ↔ OpenUnit o.offset0? ∧ OpenUnit o.offset1? ∧ OpenUnit o.gain0? ∧ OpenUnit o.gain1? ∧
      OpenFinite o.threshold? := by
  have hnumbers : AllFinite (numbers .sequencer o) ↔ OpenFinite o.offset0? ∧ OpenFinite o.offset1? ∧
      OpenFinite o.gain0? ∧ OpenFinite o.gain1? ∧ OpenFinite o.threshold? := by
    simp [numbers, SequencerOptions.numbers, SequencerOptions.bounded, allFinite_toList_iff]
  have hright : Right .sequencer o ↔ AllFinite (numbers .sequencer o) ∧ o.InBounds := Iff.rfl
  rw [hright, hnumbers, SequencerOptions.inBounds_iff]
  constructor
  · rintro ⟨⟨-, -, -, -, hthreshold⟩, hoffset0, hoffset1, hgain0, hgain1⟩
    exact ⟨hoffset0, hoffset1, hgain0, hgain1, hthreshold⟩
  · rintro ⟨hoffset0, hoffset1, hgain0, hgain1, hthreshold⟩
    exact ⟨⟨openFinite_of_openUnit hoffset0, openFinite_of_openUnit hoffset1, openFinite_of_openUnit hgain0,
      openFinite_of_openUnit hgain1, hthreshold⟩, hoffset0, hoffset1, hgain0, hgain1⟩

end OptionKind

/-! ## Fields -/

theorem OptionField.eq_of_right {Value : Type} {name : String} {given : HardwareOptions → Option (Entries Value)}
    {kept : CorrectionSet → Option Value} {Right Right' : Value → Prop} (h : ∀ value, Right value ↔ Right' value) :
    (⟨Value, name, given, kept, Right⟩ : OptionField) = ⟨Value, name, given, kept, Right'⟩ := by
  rw [funext fun value => propext (h value)]

/-- **The fields of the options.** They are those that the kinds of options stand for, in their order. -/
theorem optionFields_eq : optionFields = OptionKind.all.map OptionKind.field := by
  have hany : ∀ kind : OptionKind, (∀ value, kind.numbers value = []) → (∀ value, kind.InBounds value) →
      ∀ value, True ↔ kind.Right value := by
    intro kind hnumbers hbounds value
    rw [OptionKind.Right, hnumbers value]
    exact iff_of_true trivial ⟨allFinite_nil, hbounds value⟩
  simp only [optionFields, OptionKind.all, List.map_cons, List.map_nil, List.cons.injEq, and_true]
  refine ⟨?_, ?_, ?_, ?_, ?_, ?_, ?_, ?_, ?_⟩
  · exact OptionField.eq_of_right fun _ => OptionKind.right_latency_iff.symm
  · exact OptionField.eq_of_right fun _ => OptionKind.right_distortion_iff.symm
  · exact OptionField.eq_of_right fun _ => OptionKind.right_modulation_iff.symm
  · exact OptionField.eq_of_right fun _ => OptionKind.right_mixer_iff.symm
  · exact OptionField.eq_of_right (hany .outputAtt (fun _ => rfl) fun _ => trivial)
  · exact OptionField.eq_of_right (hany .inputAtt (fun _ => rfl) fun _ => trivial)
  · exact OptionField.eq_of_right fun _ => OptionKind.right_outputGain_iff.symm
  · exact OptionField.eq_of_right (hany .inputGain (fun _ => rfl) fun _ => trivial)
  · exact OptionField.eq_of_right fun _ => OptionKind.right_sequencer_iff.symm

theorem forall_field_iff {P : OptionField → Prop} :
    (∀ field ∈ optionFields, P field) ↔ ∀ kind : OptionKind, P kind.field := by
  rw [optionFields_eq, List.forall_mem_map]
  exact ⟨fun h kind => h kind kind.mem_all, fun h kind _ => h kind⟩

theorem exists_field_iff {P : OptionField → Prop} :
    (∃ field ∈ optionFields, P field) ↔ ∃ kind : OptionKind, P kind.field := by
  rw [optionFields_eq]
  constructor
  · rintro ⟨field, hfield, h⟩
    obtain ⟨kind, -, rfl⟩ := List.mem_map.1 hfield
    exact ⟨kind, h⟩
  · rintro ⟨kind, h⟩
    exact ⟨kind.field, List.mem_map_of_mem kind.mem_all, h⟩

namespace OptionField

/-- the key is a port-clock, and the value is as the field asks -/
def Sound (field : OptionField) (entry : String × field.Value) : Prop :=
  (∃ pc, PortClock.parse entry.1 = .ok pc) ∧ field.Right entry.2

/-- the entry is not sound, or a sound one before it has the same key -/
def Offends (field : OptionField) (before : Entries field.Value) (entry : String × field.Value) : Prop :=
  ¬field.Sound entry ∨ ∃ other ∈ before, field.Sound other ∧ Text.trim other.1 = Text.trim entry.1

theorem sound_field_iff {entry : String × kind.Value} : kind.field.Sound entry ↔ kind.Valid entry :=
  ⟨fun h => ⟨h.1, h.2.1, h.2.2⟩, fun h => ⟨h.key, h.finite, h.bounds⟩⟩

theorem offends_field_iff {before : Entries kind.Value} {entry : String × kind.Value} :
    kind.field.Offends before entry ↔ kind.Offends before entry :=
  or_congr (not_congr sound_field_iff)
    (exists_congr fun _ => and_congr_right fun _ => and_congr_left fun _ => sound_field_iff)

end OptionField

/-! ## Documents and tables -/

/-- **Valid options.** In each field the entries are sound, and their keys differ without the blanks around them. -/
theorem HardwareOptions.valid_iff : options.Valid ↔ ∀ field ∈ optionFields, ∀ entries,
    field.given options = some entries →
      (∀ entry ∈ entries, field.Sound entry) ∧ (entries.map fun entry => Text.trim entry.1).Nodup := by
  rw [forall_field_iff]
  constructor
  · intro h kind entries hgiven
    refine ⟨fun entry hentry => ?_, h.distinct kind entries hgiven⟩
    exact OptionField.sound_field_iff.2 (h.each kind entries hgiven entry hentry)
  · intro h
    constructor
    · intro kind entries hgiven entry hentry
      exact OptionField.sound_field_iff.1 ((h kind entries hgiven).1 entry hentry)
    · intro kind entries hgiven
      exact (h kind entries hgiven).2

/-- a table is built iff the options are valid in each field -/
theorem OptionTable.exists_build_iff_fields : (∃ t, OptionTable.build options = .ok t) ↔
    ∀ field ∈ optionFields, ∀ entries, field.given options = some entries →
      (∀ entry ∈ entries, field.Sound entry) ∧ (entries.map fun entry => Text.trim entry.1).Nodup :=
  (OptionTable.exists_build_iff.trans OptionTable.acceptable_iff).trans HardwareOptions.valid_iff

/-- **What a table holds.** Each field of each key is what is given for it, and there are no other keys. -/
theorem OptionTable.holds_iff : t.Holds options ↔
    (∀ field ∈ optionFields, ∀ key value, field.kept ((t.entries.lookup? key).getD .empty) = some value ↔
      ∃ entries written, field.given options = some entries ∧ (written, value) ∈ entries ∧ Text.trim written = key) ∧
    (∀ key, key ∈ t.keys ↔
      ∃ field ∈ optionFields, ∃ entries, field.given options = some entries ∧ ∃ entry ∈ entries,
        Text.trim entry.1 = key) ∧
    t.keys.Nodup := by
  have hgives : ∀ (kind : OptionKind) (key : String) (value : kind.Value),
      (∃ entries written, kind.category.given options = some entries ∧ (written, value) ∈ entries ∧
        Text.trim written = key) ↔ ∃ written, options.Gives kind (written, value) ∧ Text.trim written = key := by
    intro kind key value
    constructor
    · rintro ⟨entries, written, hgiven, hentry, hkey⟩
      exact ⟨written, ⟨entries, hgiven, hentry⟩, hkey⟩
    · rintro ⟨written, ⟨entries, hgiven, hentry⟩, hkey⟩
      exact ⟨entries, written, hgiven, hentry, hkey⟩
  have hkeys : ∀ (kind : OptionKind) (key : String),
      (∃ entries, kind.category.given options = some entries ∧ ∃ entry ∈ entries, Text.trim entry.1 = key) ↔
        ∃ entry : String × kind.Value, options.Gives kind entry ∧ Text.trim entry.1 = key := by
    intro kind key
    constructor
    · rintro ⟨entries, hgiven, entry, hentry, hkey⟩
      exact ⟨entry, ⟨entries, hgiven, hentry⟩, hkey⟩
    · rintro ⟨entry, ⟨entries, hgiven, hentry⟩, hkey⟩
      exact ⟨entries, hgiven, entry, hentry, hkey⟩
  simp only [forall_field_iff, exists_field_iff]
  constructor
  · intro h
    refine ⟨fun kind key value => ?_, fun key => ?_, h.once⟩
    · exact (h.value key kind value).trans (hgives kind key value).symm
    · exact (h.keys key).trans (exists_congr fun kind => (hkeys kind key).symm)
  · rintro ⟨hvalue, hall, honce⟩
    refine ⟨fun key kind value => ?_, fun key => ?_, honce⟩
    · exact (hvalue kind key value).trans (hgives kind key value)
    · exact (hall key).trans (exists_congr fun kind => hkeys kind key)

/-- **What is reported.** Issues stand at the places of offending entries, under the names of their fields. -/
theorem HardwareOptions.reported_iff {report : Report} : options.Reported report ↔
    (∀ field ∈ optionFields, ∀ before entry after, field.given options = some (before ++ entry :: after) →
      field.Offends before entry → ∃ issue ∈ report, issue.location = s!"hardware_options.{field.name}.{entry.1}") ∧
    ∀ issue ∈ report, ∃ field ∈ optionFields, ∃ before entry after,
      field.given options = some (before ++ entry :: after) ∧ field.Offends before entry ∧
        issue.location = s!"hardware_options.{field.name}.{entry.1}" := by
  simp only [forall_field_iff, exists_field_iff]
  constructor
  · intro h
    constructor
    · intro kind before entry after hgiven hoffends
      exact h.each kind before entry after hgiven (OptionField.offends_field_iff.1 hoffends)
    · intro issue hissue
      obtain ⟨kind, before, after, entry, hgiven, hoffends, hplace⟩ := h.only issue hissue
      exact ⟨kind, before, entry, after, hgiven, OptionField.offends_field_iff.2 hoffends, hplace⟩
  · rintro ⟨heach, honly⟩
    constructor
    · intro kind before entry after hgiven hoffends
      exact heach kind before entry after hgiven (OptionField.offends_field_iff.2 hoffends)
    · intro issue hissue
      obtain ⟨kind, before, entry, after, hgiven, hoffends, hplace⟩ := honly issue hissue
      exact ⟨kind, before, after, entry, hgiven, OptionField.offends_field_iff.1 hoffends, hplace⟩

/-! ## Bounded values -/

namespace OptionCategory

variable {name : String} {cause : Cause}

theorem mem_boundCauses_iff : cause ∈ boundCauses name x? ↔
    ∃ x, cause = .outOfBounds name x ∧ x.within (Double.ofInt (-1)) (Double.ofInt 1) = false ∧ x? = some x := by
  simp only [boundCauses, List.mem_map, List.mem_filter, Option.mem_toList, Bool.not_eq_true']
  constructor
  · rintro ⟨x, ⟨hgiven, hx⟩, rfl⟩
    exact ⟨x, rfl, hx, hgiven⟩
  · rintro ⟨x, rfl, hx, hgiven⟩
    exact ⟨x, ⟨hgiven, hx⟩, rfl⟩

theorem mem_finiteCauses_iff : cause ∈ finiteCauses name x? ↔
    ∃ x, cause = .notFinite name x ∧ x.isFinite = false ∧ x? = some x := by
  simp only [finiteCauses, List.mem_map, List.mem_filter, Option.mem_toList, Bool.not_eq_true']
  constructor
  · rintro ⟨x, ⟨hgiven, hx⟩, rfl⟩
    exact ⟨x, rfl, hx, hgiven⟩
  · rintro ⟨x, rfl, hx, hgiven⟩
    exact ⟨x, ⟨hgiven, hx⟩, rfl⟩

end OptionCategory

/-- **Problems of a sequencer.** Four initial values are out of bounds if they do not lie in [-1, 1], and a threshold is
refused if it is not finite. -/
theorem SequencerOptions.mem_causes_iff {o : SequencerOptions} {cause : Cause} :
    cause ∈ OptionCategory.sequencer.causes o ↔
      (∃ name x, cause = .outOfBounds name x ∧ x.within (Double.ofInt (-1)) (Double.ofInt 1) = false ∧
        (name = "init_offset_awg_path_0" ∧ o.offset0? = some x ∨ name = "init_offset_awg_path_1" ∧ o.offset1? = some x ∨
          name = "init_gain_awg_path_0" ∧ o.gain0? = some x ∨ name = "init_gain_awg_path_1" ∧ o.gain1? = some x)) ∨
      ∃ x, cause = .notFinite "ttl_acq_threshold" x ∧ x.isFinite = false ∧ o.threshold? = some x := by
  have hcauses : OptionCategory.sequencer.causes o =
      o.bounded.flatMap (fun p => OptionCategory.boundCauses p.1 p.2) ++
        OptionCategory.finiteCauses "ttl_acq_threshold" o.threshold? := rfl
  rw [hcauses, List.mem_append, OptionCategory.mem_finiteCauses_iff, bounded]
  simp only [List.flatMap_cons, List.flatMap_nil, List.append_nil, List.mem_append, OptionCategory.mem_boundCauses_iff]
  refine or_congr_left ⟨?_, ?_⟩
  · rintro (⟨x, hcause, hx, hgiven⟩ | ⟨x, hcause, hx, hgiven⟩ | ⟨x, hcause, hx, hgiven⟩ | ⟨x, hcause, hx, hgiven⟩)
    · exact ⟨_, x, hcause, hx, .inl ⟨rfl, hgiven⟩⟩
    · exact ⟨_, x, hcause, hx, .inr (.inl ⟨rfl, hgiven⟩)⟩
    · exact ⟨_, x, hcause, hx, .inr (.inr (.inl ⟨rfl, hgiven⟩))⟩
    · exact ⟨_, x, hcause, hx, .inr (.inr (.inr ⟨rfl, hgiven⟩))⟩
  · rintro ⟨_, x, hcause, hx, ⟨rfl, hgiven⟩ | ⟨rfl, hgiven⟩ | ⟨rfl, hgiven⟩ | ⟨rfl, hgiven⟩⟩
    · exact .inl ⟨x, hcause, hx, hgiven⟩
    · exact .inr (.inl ⟨x, hcause, hx, hgiven⟩)
    · exact .inr (.inr (.inl ⟨x, hcause, hx, hgiven⟩))
    · exact .inr (.inr (.inr ⟨x, hcause, hx, hgiven⟩))

/-! ## What a config gives -/

namespace OptionTable

variable {f : Double}

/-- an option of a port-clock is what the options of the config give for it -/
theorem get_corrections_optionsOf_iff (h : build (Parsed.optionsOf config) = .ok t) :
    kind.category.get (t.corrections pc) = some value ↔
      ∃ options entries key, config.options? = some options ∧ kind.category.given options = some entries ∧
        (key, value) ∈ entries ∧ Text.trim key = pc.text := by
  rw [get_corrections_iff h]
  simp only [HardwareOptions.mem_listed]
  constructor
  · rintro ⟨key, ⟨entries, hgiven, hentry⟩, hkey⟩
    cases hoptions : config.options? with
    | none =>
      rw [Parsed.optionsOf, hoptions, Option.getD_none] at hgiven
      cases kind <;> cases hgiven
    | some options =>
      rw [Parsed.optionsOf, hoptions, Option.getD_some] at hgiven
      exact ⟨options, entries, key, rfl, hgiven, hentry, hkey⟩
  · rintro ⟨options, entries, key, hoptions, hgiven, hentry, hkey⟩
    refine ⟨key, ⟨entries, ?_, hentry⟩, hkey⟩
    rw [Parsed.optionsOf, hoptions]
    exact hgiven

/-- **Options of a port-clock.** Each field is what the options of the config give under the key of the port-clock; a
config without options gives nothing. -/
theorem kept_corrections_iff {field : OptionField} {value : field.Value} (hfield : field ∈ optionFields)
    (h : build (Parsed.optionsOf config) = .ok t) :
    field.kept (t.corrections pc) = some value ↔
      ∃ options entries key, config.options? = some options ∧ field.given options = some entries ∧
        (key, value) ∈ entries ∧ Text.trim key = pc.text := by
  rw [optionFields_eq] at hfield
  obtain ⟨kind, -, rfl⟩ := List.mem_map.1 hfield
  exact get_corrections_optionsOf_iff h

/-- a frequency that is asked for, `part` being one of the two -/
theorem part_modulation_iff {part : Modulation → Option Double} (hnone : part .none = none)
    (h : build (Parsed.optionsOf config) = .ok t) :
    part (t.modulation pc) = some f ↔
      ∃ options entries key m, config.options? = some options ∧ options.modulation? = some entries ∧
        (key, m) ∈ entries ∧ Text.trim key = pc.text ∧ part m = some f := by
  have hkept : ∀ m : Modulation, (t.corrections pc).modulation? = some m ↔
      ∃ options entries key, config.options? = some options ∧ options.modulation? = some entries ∧
        (key, m) ∈ entries ∧ Text.trim key = pc.text := by
    intro m
    have hget : OptionKind.modulation.category.get (t.corrections pc) = some m ↔ _ := get_corrections_optionsOf_iff h
    exact hget
  have hpart : part (t.modulation pc) = some f ↔ ∃ m, (t.corrections pc).modulation? = some m ∧ part m = some f := by
    rw [modulation]
    cases (t.corrections pc).modulation? with
    | none => simp [hnone]
    | some m => simp
  rw [hpart]
  constructor
  · rintro ⟨m, hm, hf⟩
    obtain ⟨options, entries, key, hoptions, hentries, hentry, hkey⟩ := (hkept m).1 hm
    exact ⟨options, entries, key, m, hoptions, hentries, hentry, hkey, hf⟩
  · rintro ⟨options, entries, key, m, hoptions, hentries, hentry, hkey, hf⟩
    exact ⟨m, (hkept m).2 ⟨options, entries, key, hoptions, hentries, hentry, hkey⟩, hf⟩

/-- the oscillator frequency that a port-clock asks for -/
theorem lo?_modulation_iff (h : build (Parsed.optionsOf config) = .ok t) :
    (t.modulation pc).lo? = some f ↔
      ∃ options entries key m, config.options? = some options ∧ options.modulation? = some entries ∧
        (key, m) ∈ entries ∧ Text.trim key = pc.text ∧ m.lo? = some f := part_modulation_iff rfl h

/-- the intermediate frequency that a port-clock asks for -/
theorem interm?_modulation_iff (h : build (Parsed.optionsOf config) = .ok t) :
    (t.modulation pc).interm? = some f ↔
      ∃ options entries key m, config.options? = some options ∧ options.modulation? = some entries ∧
        (key, m) ∈ entries ∧ Text.trim key = pc.text ∧ m.interm? = some f := part_modulation_iff rfl h

end OptionTable

end RackMap
