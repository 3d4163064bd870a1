/-
What the checks of the documents against each other find, and what a success says.

`Fits` is what the checks want of an edge and its channel.
- `validate_eq_ok_iff`: the documents fit together iff every edge fits, no channel is overloaded, and no options are
  left over where that is an error;
- `validate_eq_referential_iff`: a failure reports what is wrong with all edges, not only with the first;
- `dangling_reported`: which dangling references of an edge are reported. Of an edge whose channel is not described only
  the channel is, so the oscillator it names is missing from the report.
-/
import Mathlib.Tactic
import RackMap.Compilation
import RackMap.Proofs.Outcome
import RackMap.Proofs.Wiring.Document

namespace RackMap.Crosscheck

variable {inv : Inventory} {options : OptionTable} {wiring : Wiring} {settings : Settings} {report : Report}
  {ws : List String} {e : Edge} {channel : Channel} {name : String} {cause : Cause} {location : String}

/-! ## Edges that fit -/

/-- an edge fits its channel: the channel is described, has the declared kind, and takes the named oscillator -/
structure Fits (inv : Inventory) (e : Edge) (channel : Channel) : Prop where
  described : inv.channel? e.channel = some channel
  mode : ∀ mode, e.mode? = some mode → mode = channel.kind
  oscillator : ∀ name, e.lo? = some name →
    channel.oscillator? = none ∧ channel.kind ≠ .digital ∧ ∃ o, inv.oscillator? name = some o

/-- what is noted of a named oscillator: that none can be connected, and that there is none of that name -/
theorem mem_oscillatorCauses :
    cause ∈ oscillatorCauses inv channel name ↔
      (∃ builtIn, channel.oscillator? = some builtIn ∧ cause = .oscillatorBuiltIn builtIn name) ∨
      (channel.oscillator? = none ∧ channel.kind = .digital ∧ cause = .oscillatorOnDigital name) ∨
      (inv.oscillator? name = none ∧ ∃ type, inv.instrumentType? name = some type ∧ cause = .notAnOscillator name type) ∨
      (inv.oscillator? name = none ∧ inv.instrumentType? name = none ∧ cause = .unknownOscillator name) := by
  unfold oscillatorCauses
  rw [List.mem_append, ← or_assoc]
  refine or_congr ?_ ?_
  · cases channel.oscillator? with
    | some builtIn => simp
    | none => by_cases hkind : channel.kind = .digital <;> simp [hkind]
  · cases inv.oscillator? name with
    | some o => simp
    | none => cases inv.instrumentType? name <;> simp

/-- what is noted of an edge whose channel is described -/
theorem mem_edgeCauses (h : inv.channel? e.channel = some channel) :
    cause ∈ edgeCauses inv e ↔
      (∃ mode, e.mode? = some mode ∧ mode ≠ channel.kind ∧ cause = .modeDisagrees mode e.portClock channel.kind) ∨
        ∃ name, e.lo? = some name ∧ cause ∈ oscillatorCauses inv channel name := by
  unfold edgeCauses
  rw [h]
  simp only [List.mem_append]
  refine or_congr ?_ ?_
  · cases e.mode? with
    | none => simp
    | some mode => by_cases hkind : mode = channel.kind <;> simp [hkind]
  · cases e.lo? <;> simp

theorem oscillatorCauses_eq_nil_iff :
    oscillatorCauses inv channel name = [] ↔
      channel.oscillator? = none ∧ channel.kind ≠ .digital ∧ ∃ o, inv.oscillator? name = some o := by
  unfold oscillatorCauses
  rw [List.append_eq_nil_iff, ← and_assoc]
  refine and_congr ?_ ?_
  · cases channel.oscillator? with
    | some builtIn => simp
    | none => simp
  · cases inv.oscillator? name with
    | some o => simp
    | none => cases inv.instrumentType? name <;> simp

theorem edgeCauses_eq_nil_iff : edgeCauses inv e = [] ↔ ∃ channel, Fits inv e channel := by
  unfold edgeCauses
  cases hchannel : inv.channel? e.channel with
  | none =>
    constructor
    · intro h
      cases h
    · rintro ⟨channel, hfits⟩
      rw [hfits.described] at hchannel
      cases hchannel
  | some channel =>
    simp only [List.append_eq_nil_iff]
    constructor
    · rintro ⟨hmode, hlo⟩
      refine ⟨channel, hchannel, ?_, ?_⟩
      · intro mode hm
        rw [hm] at hmode
        by_contra hne
        simp [hne] at hmode
      · intro name hname
        rw [hname] at hlo
        exact oscillatorCauses_eq_nil_iff.1 hlo
    · rintro ⟨channel', hfits⟩
      have hsame := hfits.described
      rw [hchannel, Option.some.injEq] at hsame
      subst hsame
      constructor
      · cases hm : e.mode? with
        | none => rfl
        | some mode => simp [hfits.mode mode hm]
      · cases hlo : e.lo? with
        | none => rfl
        | some name => exact oscillatorCauses_eq_nil_iff.2 (hfits.oscillator name hlo)

/-! ## Outcomes -/

theorem mem_edgesReport {issue : Issue} :
    issue ∈ edgesReport inv wiring ↔ ∃ e ∈ wiring.edges, ∃ cause ∈ edgeCauses inv e, issue = ⟨e.location, cause⟩ := by
  simp only [edgesReport, Report.located, List.mem_flatMap, List.mem_map, eq_comm]

theorem edgesReport_eq_nil_iff :
    edgesReport inv wiring = [] ↔ ∀ e ∈ wiring.edges, ∃ channel, Fits inv e channel := by
  simp only [edgesReport, Report.located, List.flatMap_eq_nil_iff, List.map_eq_nil_iff, edgeCauses_eq_nil_iff]

/-- **Documents that fit together.** -/
theorem validate_eq_ok_iff :
    validate inv options wiring settings = .ok ws ↔
      unusedReport options wiring settings = [] ∧ (∀ e ∈ wiring.edges, ∃ channel, Fits inv e channel) ∧
        overloads inv wiring = [] ∧ ws = warnings options wiring settings := by
  rw [← edgesReport_eq_nil_iff]
  unfold validate
  simp only [Bool.not_eq_true', List.isEmpty_eq_false_iff]
  constructor
  · intro h
    split at h
    · cases h
    · rename_i hreport
      split at h
      · cases h
      · rename_i hover
        cases h
        obtain ⟨hunused, hedges⟩ := List.append_eq_nil_iff.1 (not_not.1 hreport)
        exact ⟨hunused, hedges, not_not.1 hover, rfl⟩
  · rintro ⟨hunused, hedges, hover, rfl⟩
    rw [if_neg (by rw [hunused, hedges]; simp), if_neg (by rw [hover]; simp)]

/-- **Documents that do not.** All that is wrong with options and edges is reported together, and the overloaded
channels after it. -/
theorem validate_eq_referential_iff :
    validate inv options wiring settings = .error (.referential report) ↔
      unusedReport options wiring settings ++ edgesReport inv wiring ≠ [] ∧
        report = unusedReport options wiring settings ++ edgesReport inv wiring ++
          (overloads inv wiring).map Issue.ofViolation := by
  unfold validate
  simp only [Bool.not_eq_true', List.isEmpty_eq_false_iff]
  constructor
  · intro h
    split at h
    · rename_i hreport
      cases h
      exact ⟨hreport, rfl⟩
    · split at h <;> cases h
  · rintro ⟨hreport, rfl⟩
    rw [if_pos hreport]

/-- one edge that does not fit is enough -/
theorem exists_referential (options : OptionTable) (settings : Settings) (he : e ∈ wiring.edges)
    (hcause : cause ∈ edgeCauses inv e) :
    ∃ report, validate inv options wiring settings = .error (.referential report) := by
  have hne : unusedReport options wiring settings ++ edgesReport inv wiring ≠ [] :=
    List.ne_nil_of_mem (List.mem_append_right _ (mem_edgesReport.2 ⟨e, he, cause, hcause, rfl⟩))
  exact ⟨_, validate_eq_referential_iff.2 ⟨hne, rfl⟩⟩

theorem mem_report_of_mem_edgesReport {issue : Issue}
    (h : validate inv options wiring settings = .error (.referential report))
    (hissue : issue ∈ edgesReport inv wiring) : issue ∈ report := by
  rw [(validate_eq_referential_iff.1 h).2]
  exact List.mem_append_left _ (List.mem_append_right _ hissue)

/-! ## Dangling references -/

/-- whether a cause says of a name that no oscillator is described under it -/
def Misses (name : String) : Cause → Prop
  | .notAnOscillator other _ => other = name
  | .unknownOscillator other => other = name
  | _ => False

theorem not_misses_missingChannelCause {path : ChannelPath} : ¬Misses name (missingChannelCause inv path) := by
  unfold missingChannelCause
  simp only
  split
  · exact id
  · split <;> exact id

theorem misses_oscillatorCauses_iff {other : String} :
    (∃ cause ∈ oscillatorCauses inv channel other, Misses name cause) ↔ other = name ∧ inv.oscillator? name = none := by
  constructor
  · rintro ⟨cause, hcause, hmisses⟩
    rcases mem_oscillatorCauses.1 hcause with ⟨_, _, rfl⟩ | ⟨_, _, rfl⟩ | ⟨ho, _, _, rfl⟩ | ⟨ho, _, rfl⟩
    · exact hmisses.elim
    · exact hmisses.elim
    · cases hmisses
      exact ⟨rfl, ho⟩
    · cases hmisses
      exact ⟨rfl, ho⟩
  · rintro ⟨rfl, ho⟩
    cases ht : inv.instrumentType? other with
    | some type =>
      refine ⟨.notAnOscillator other type, mem_oscillatorCauses.2 ?_, rfl⟩
      exact Or.inr (Or.inr (Or.inl ⟨ho, type, ht, rfl⟩))
    | none =>
      refine ⟨.unknownOscillator other, mem_oscillatorCauses.2 ?_, rfl⟩
      exact Or.inr (Or.inr (Or.inr ⟨ho, ht, rfl⟩))

/-- the missing oscillator of an edge is noted iff its channel is described -/
theorem misses_edgeCauses_iff :
    (∃ cause ∈ edgeCauses inv e, Misses name cause) ↔
      e.lo? = some name ∧ inv.oscillator? name = none ∧ ∃ channel, inv.channel? e.channel = some channel := by
  cases hchannel : inv.channel? e.channel with
  | none =>
    have hcauses : edgeCauses inv e = [missingChannelCause inv e.channel] := by simp only [edgeCauses, hchannel]
    rw [hcauses]
    constructor
    · rintro ⟨cause, hcause, hmisses⟩
      obtain rfl := List.mem_singleton.1 hcause
      exact absurd hmisses not_misses_missingChannelCause
    · rintro ⟨-, -, channel, h⟩
      cases h
  | some channel =>
    constructor
    · rintro ⟨cause, hcause, hmisses⟩
      rcases (mem_edgeCauses hchannel).1 hcause with ⟨mode, _, _, rfl⟩ | ⟨other, hlo, hcause⟩
      · exact hmisses.elim
      · obtain ⟨rfl, ho⟩ := misses_oscillatorCauses_iff.1 ⟨cause, hcause, hmisses⟩
        exact ⟨hlo, ho, channel, rfl⟩
    · rintro ⟨hlo, ho, -⟩
      obtain ⟨cause, hcause, hmisses⟩ := misses_oscillatorCauses_iff.2 ⟨rfl, ho⟩
      exact ⟨cause, (mem_edgeCauses hchannel).2 (Or.inr ⟨name, hlo, hcause⟩), hmisses⟩

theorem misses_report_iff (h : validate inv options wiring settings = .error (.referential report)) :
    (∃ cause, Misses name cause ∧ ⟨location, cause⟩ ∈ report) ↔
      ∃ e ∈ wiring.edges, e.location = location ∧ e.lo? = some name ∧ inv.oscillator? name = none ∧
        ∃ channel, inv.channel? e.channel = some channel := by
  constructor
  · rintro ⟨cause, hmisses, hmem⟩
    rw [(validate_eq_referential_iff.1 h).2] at hmem
    rcases List.mem_append.1 hmem with hmem | hmem
    · rcases List.mem_append.1 hmem with hmem | hmem
      · unfold unusedReport at hmem
        split at hmem
        · obtain ⟨key, -, hkey⟩ := List.mem_map.1 hmem
          cases hkey
          exact hmisses.elim
        · cases hmem
      · obtain ⟨e, he, cause', hcause, heq⟩ := mem_edgesReport.1 hmem
        cases heq
        exact ⟨e, he, rfl, misses_edgeCauses_iff.1 ⟨cause, hcause, hmisses⟩⟩
    · obtain ⟨violation, -, hviolation⟩ := List.mem_map.1 hmem
      cases hviolation
      exact hmisses.elim
  · rintro ⟨e, he, rfl, hlo⟩
    obtain ⟨cause, hcause, hmisses⟩ := misses_edgeCauses_iff.2 hlo
    exact ⟨cause, hmisses, mem_report_of_mem_edgesReport h (mem_edgesReport.2 ⟨e, he, cause, hcause, rfl⟩)⟩

/-- **Dangling references.** A failure reports every channel that is not described. It reports a missing oscillator at
the place of an edge iff the channel of an edge there that names it is described; in a wiring that is read from a
document this is the channel of the edge itself. -/
theorem dangling_reported (h : validate inv options wiring settings = .error (.referential report))
    (he : e ∈ wiring.edges) :
    (inv.channel? e.channel = none → ⟨e.location, missingChannelCause inv e.channel⟩ ∈ report) ∧
    (∀ name, e.lo? = some name → inv.oscillator? name = none →
      ((∃ cause, Misses name cause ∧ ⟨e.location, cause⟩ ∈ report) ↔
        ∃ e' ∈ wiring.edges, e'.location = e.location ∧ e'.lo? = some name ∧
          ∃ channel, inv.channel? e'.channel = some channel)) ∧
    ∀ connectivity name, Wiring.build connectivity = .ok wiring → e.lo? = some name → inv.oscillator? name = none →
      ((∃ cause, Misses name cause ∧ ⟨e.location, cause⟩ ∈ report) ↔
        ∃ channel, inv.channel? e.channel = some channel) := by
  refine ⟨?_, ?_, ?_⟩
  · intro hchannel
    have hcause : missingChannelCause inv e.channel ∈ edgeCauses inv e := by simp [edgeCauses, hchannel]
    exact mem_report_of_mem_edgesReport h (mem_edgesReport.2 ⟨e, he, _, hcause, rfl⟩)
  · intro name _ ho
    simp only [misses_report_iff h, ho, true_and]
  · intro connectivity name hbuild hlo ho
    rw [misses_report_iff h]
    constructor
    · rintro ⟨e', he', hlocation, -, -, hchannel⟩
      rw [← Wiring.channel_eq_of_location_eq hbuild he' he hlocation]
      exact hchannel
    · intro hchannel
      exact ⟨e, he, rfl, hlo, ho, hchannel⟩

/-- a rack with one module in slot 1, and one edge that names an oscillator that is not described -/
def danglingConfig (path : String) : Config where
  backend := "quantify_scheduler.backends.qblox_backend.hardware_compile"
  description :=
    [("cluster0", { (default : InstrumentDescription) with type := "Cluster", modules? := some [("1", ⟨"QCM", []⟩)] })]
  options? := none
  connectivity := .paths [(path, .obj [("lo_name", .str "lo0"),
    ("portclock_configs", .arr [.obj [("port", .str "q0:mw"), ("clock", .str "q0.01")]])])]

/-- the oscillator of an edge whose channel is described is reported -/
theorem dangling_reported_of_described :
    ∃ p report, Parsed.ofConfig (danglingConfig "cluster0.module1.complex_output_0") {} = .ok p ∧
      validate p.inventory p.options p.wiring p.settings = .error (.referential report) ∧
      ∃ e ∈ p.wiring.edges, ∃ cause, Misses "lo0" cause ∧ ⟨e.location, cause⟩ ∈ report := by
  obtain ⟨p, hp, hcheck⟩ := exists_eq_ok (x := Parsed.ofConfig (danglingConfig "cluster0.module1.complex_output_0") {})
    (c := fun p => p.wiring.edges.any fun e => e.lo? = some "lo0" && (p.inventory.oscillator? "lo0").isNone &&
      (p.inventory.channel? e.channel).isSome) (by decide +kernel)
  simp only [List.any_eq_true, Bool.and_eq_true, decide_eq_true_eq, Option.isNone_iff_eq_none,
    Option.isSome_iff_exists] at hcheck
  obtain ⟨e, he, ⟨hlo, ho⟩, hchannel⟩ := hcheck
  obtain ⟨cause, hcause, -⟩ := misses_edgeCauses_iff.2 ⟨hlo, ho, hchannel⟩
  obtain ⟨report, hreport⟩ := exists_referential p.options p.settings he hcause
  exact ⟨p, report, hp, hreport, e, he, ((dangling_reported hreport he).2.1 "lo0" hlo ho).2 ⟨e, he, rfl, hlo, hchannel⟩⟩

/-- the oscillator of an edge whose channel is not described is passed over -/
theorem dangling_oscillator_unreported :
    ∃ p report, Parsed.ofConfig (danglingConfig "cluster0.module2.complex_output_0") {} = .ok p ∧
      validate p.inventory p.options p.wiring p.settings = .error (.referential report) ∧
      ∃ e ∈ p.wiring.edges, e.lo? = some "lo0" ∧ p.inventory.oscillator? "lo0" = none ∧
        ∀ cause, Misses "lo0" cause → ⟨e.location, cause⟩ ∉ report := by
  obtain ⟨p, hp, hcheck⟩ := exists_eq_ok (x := Parsed.ofConfig (danglingConfig "cluster0.module2.complex_output_0") {})
    (c := fun p => (p.wiring.edges.any fun e => e.lo? = some "lo0" && (p.inventory.oscillator? "lo0").isNone) &&
      p.wiring.edges.all fun e => (p.inventory.channel? e.channel).isNone) (by decide +kernel)
  simp only [List.any_eq_true, List.all_eq_true, Bool.and_eq_true, decide_eq_true_eq,
    Option.isNone_iff_eq_none] at hcheck
  obtain ⟨⟨e, he, hlo, ho⟩, hchannels⟩ := hcheck
  have hcause : missingChannelCause p.inventory e.channel ∈ edgeCauses p.inventory e := by
    simp [edgeCauses, hchannels e he]
  obtain ⟨report, hreport⟩ := exists_referential p.options p.settings he hcause
  refine ⟨p, report, hp, hreport, e, he, hlo, ho, fun cause hmisses hmem => ?_⟩
  obtain ⟨e', he', -, -, -, channel, hchannel⟩ := (misses_report_iff hreport).1 ⟨cause, hmisses, hmem⟩
  rw [hchannels e' he'] at hchannel
  cases hchannel

end RackMap.Crosscheck
