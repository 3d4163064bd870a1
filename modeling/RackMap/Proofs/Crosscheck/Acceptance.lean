/-
Which documents fit together, and which failure the others end with.

`Linked` says that all references hold, `Crowded` that a real or digital channel has more than one port-clock.
- `linked_iff`: the references hold iff the reports on options and edges are empty;
- `lists_overloads`: the overloads are the violations of the crowded channels, each once, in the order in which the
  channels are first connected;
- `validate_decides`: documents fit together iff all references hold and no channel is crowded. Broken references are
  reported with the crowded channels after them; crowded channels alone are a failure of their own.
-/
import Mathlib.Tactic
import RackMap.Proofs.Crosscheck
import RackMap.Proofs.Wiring.Firsts

namespace RackMap.Crosscheck

variable {inv : Inventory} {options : OptionTable} {wiring : Wiring} {settings : Settings} {path : ChannelPath}
  {channel : Channel} {violation : Violation} {issue : Issue}

/-- all references hold: every edge fits its channel, and where options that are left over are an error, all options
are for connected port-clocks -/
structure Linked (inv : Inventory) (options : OptionTable) (wiring : Wiring) (settings : Settings) : Prop where
  edges : ∀ e ∈ wiring.edges, ∃ channel, Fits inv e channel
  options : settings.unusedOptions = .error → ∀ key ∈ options.keys, ∃ e ∈ wiring.edges, e.portClock.text = key

/-- a real or digital channel carries more than one port-clock -/
structure Crowded (inv : Inventory) (wiring : Wiring) (path : ChannelPath) (channel : Channel) : Prop where
  described : inv.channel? path = some channel
  kind : channel.kind = .real ∨ channel.kind = .digital
  many : 1 < (wiring.portClocksOn path).length

/-- the place at which a channel is connected for the first time -/
def firstPlace (wiring : Wiring) (path : ChannelPath) : Nat := (wiring.edges.map Edge.channel).idxOf path

/-- one violation for each crowded channel, with all its port-clocks, in the order in which they are first connected -/
structure ListsCrowded (inv : Inventory) (wiring : Wiring) (paths : List ChannelPath) (violations : List Violation) :
    Prop where
  crowded : ∀ path, path ∈ paths ↔ ∃ channel, Crowded inv wiring path channel
  order : paths.Pairwise fun a b => firstPlace wiring a < firstPlace wiring b
  violations : List.Forall₂ (fun path violation => ∃ channel, inv.channel? path = some channel ∧
    violation = .capacity path channel.kind 1 (wiring.portClocksOn path)) paths violations

/-! ## References -/

theorem unusedReport_eq_nil_iff :
    unusedReport options wiring settings = [] ↔
      (settings.unusedOptions = .error → ∀ key ∈ options.keys, ∃ e ∈ wiring.edges, e.portClock.text = key) := by
  unfold unusedReport unusedKeys
  cases hpolicy : settings.unusedOptions with
  | error => simp [List.filter_eq_nil_iff]
  | ignore => simp
  | warn => simp

theorem linked_iff :
    Linked inv options wiring settings ↔ unusedReport options wiring settings ++ edgesReport inv wiring = [] := by
  rw [List.append_eq_nil_iff, unusedReport_eq_nil_iff, edgesReport_eq_nil_iff]
  exact ⟨fun h => ⟨h.options, h.edges⟩, fun h => ⟨h.2, h.1⟩⟩

theorem edgeCauses_ne_duplicate {e : Edge} {cause : Cause} (h : cause ∈ edgeCauses inv e) :
    cause ≠ .duplicate violation := by
  cases hchannel : inv.channel? e.channel with
  | none =>
    simp only [edgeCauses, hchannel, List.mem_singleton] at h
    rw [h, missingChannelCause]
    split
    · simp
    · split <;> simp
  | some channel =>
    rcases (mem_edgeCauses hchannel).1 h with ⟨mode, -, -, rfl⟩ | ⟨name, -, h⟩
    · simp
    · rcases mem_oscillatorCauses.1 h with ⟨_, _, rfl⟩ | ⟨_, _, rfl⟩ | ⟨_, _, _, rfl⟩ | ⟨_, _, rfl⟩ <;> simp

/-- no broken reference is reported as a violation -/
theorem ne_duplicate_of_mem_report
    (h : issue ∈ unusedReport options wiring settings ++ edgesReport inv wiring) :
    issue.cause ≠ .duplicate violation := by
  rcases List.mem_append.1 h with h | h
  · unfold unusedReport at h
    split at h
    · obtain ⟨key, -, rfl⟩ := List.mem_map.1 h
      simp
    · cases h
  · obtain ⟨e, -, cause, hcause, rfl⟩ := mem_edgesReport.1 h
    exact edgeCauses_ne_duplicate hcause

/-! ## Crowded channels -/

theorem capacity?_eq_some_iff {kind : ChannelKind} {limit : Nat} :
    kind.capacity? = some limit ↔ (kind = .real ∨ kind = .digital) ∧ limit = 1 := by
  cases kind <;> simp [ChannelKind.capacity?, eq_comm]

theorem overload?_eq_some_iff :
    overload? inv wiring path = some violation ↔
      ∃ channel, Crowded inv wiring path channel ∧
        violation = .capacity path channel.kind 1 (wiring.portClocksOn path) := by
  unfold overload?
  constructor
  · intro h
    cases hchannel : inv.channel? path with
    | none => simp [hchannel] at h
    | some channel =>
      cases hlimit : channel.kind.capacity? with
      | none => simp [hchannel, hlimit] at h
      | some limit =>
        obtain ⟨hkind, rfl⟩ := capacity?_eq_some_iff.1 hlimit
        simp only [hchannel, hlimit, Option.ite_none_right_eq_some, Option.some.injEq] at h
        exact ⟨channel, ⟨hchannel, hkind, h.1⟩, h.2.symm⟩
  · rintro ⟨channel, h, rfl⟩
    have hlimit : channel.kind.capacity? = some 1 := capacity?_eq_some_iff.2 ⟨h.kind, rfl⟩
    simp only [h.described, hlimit, h.many, if_true]

theorem forall₂_filterMap {α β : Type} (f : α → Option β) (items : List α) :
    List.Forall₂ (fun a b => f a = some b) (items.filter fun a => (f a).isSome) (items.filterMap f) := by
  induction items with
  | nil => exact List.Forall₂.nil
  | cons a items ih =>
    cases ha : f a with
    | none => simpa [ha] using ih
    | some b => simpa [ha] using ih

theorem connected_of_crowded (h : Crowded inv wiring path channel) : path ∈ wiring.channels := by
  rw [Wiring.channels_eq, Wiring.mem_firsts, List.mem_map]
  have hne : wiring.portClocksOn path ≠ [] := by
    intro hnil
    have hmany := h.many
    rw [hnil] at hmany
    cases hmany
  rw [Wiring.portClocksOn_eq] at hne
  obtain ⟨pc, hpc⟩ := List.exists_mem_of_ne_nil _ hne
  obtain ⟨e, he, -⟩ := List.mem_map.1 hpc
  obtain ⟨he, hpath⟩ := List.mem_filter.1 he
  exact ⟨e, he, of_decide_eq_true hpath⟩

/-- **The overloads.** -/
theorem lists_overloads (inv : Inventory) (wiring : Wiring) :
    ListsCrowded inv wiring (wiring.channels.filter fun path => (overload? inv wiring path).isSome)
      (overloads inv wiring) where
  crowded path := by
    rw [List.mem_filter, Option.isSome_iff_exists]
    constructor
    · rintro ⟨-, violation, h⟩
      obtain ⟨channel, hcrowded, -⟩ := overload?_eq_some_iff.1 h
      exact ⟨channel, hcrowded⟩
    · rintro ⟨channel, h⟩
      exact ⟨connected_of_crowded h, _, overload?_eq_some_iff.2 ⟨channel, h, rfl⟩⟩
  order := wiring.pairwise_channels.filter _
  violations := by
    refine (forall₂_filterMap (overload? inv wiring) wiring.channels).imp fun path violation h => ?_
    obtain ⟨channel, hcrowded, hviolation⟩ := overload?_eq_some_iff.1 h
    exact ⟨channel, hcrowded.described, hviolation⟩

theorem overloads_eq_nil_iff : overloads inv wiring = [] ↔ ∀ path channel, ¬Crowded inv wiring path channel := by
  have hlists := lists_overloads inv wiring
  rw [← List.length_eq_zero_iff, ← hlists.violations.length_eq, List.length_eq_zero_iff, List.eq_nil_iff_forall_not_mem]
  simp only [hlists.crowded, not_exists]

/-! ## Outcomes -/

theorem validate_eq_duplicates_iff {violations : List Violation} :
    validate inv options wiring settings = .error (.duplicates violations) ↔
      unusedReport options wiring settings ++ edgesReport inv wiring = [] ∧ overloads inv wiring ≠ [] ∧
        violations = overloads inv wiring := by
  unfold validate
  simp only [Bool.not_eq_true', List.isEmpty_eq_false_iff]
  constructor
  · intro h
    split at h
    · cases h
    · rename_i hreport
      split at h
      · rename_i hover
        cases h
        exact ⟨not_not.1 hreport, hover, rfl⟩
      · cases h
  · rintro ⟨hreport, hover, rfl⟩
    rw [if_neg (not_not.2 hreport), if_pos hover]

/-- **Acceptance.** Documents fit together iff all references hold and no channel is crowded. If a reference is broken,
the failure reports what is broken and after it every crowded channel; if all hold, the crowded channels are the
failure. -/
theorem validate_decides (inv : Inventory) (options : OptionTable) (wiring : Wiring) (settings : Settings) :
    ((∃ warnings, validate inv options wiring settings = .ok warnings) ↔
      Linked inv options wiring settings ∧ ∀ path channel, ¬Crowded inv wiring path channel) ∧
    ∃ paths violations, ListsCrowded inv wiring paths violations ∧
      (¬Linked inv options wiring settings →
        ∃ broken, broken ≠ [] ∧ (∀ issue ∈ broken, ∀ violation, issue.cause ≠ .duplicate violation) ∧
          validate inv options wiring settings = .error (.referential (broken ++ violations.map Issue.ofViolation))) ∧
      (Linked inv options wiring settings → (∃ path channel, Crowded inv wiring path channel) →
        validate inv options wiring settings = .error (.duplicates violations)) := by
  refine ⟨?_, _, _, lists_overloads inv wiring, ?_, ?_⟩
  · rw [linked_iff, ← overloads_eq_nil_iff]
    simp only [validate_eq_ok_iff, List.append_eq_nil_iff, edgesReport_eq_nil_iff]
    constructor
    · rintro ⟨warnings, hunused, hedges, hover, -⟩
      exact ⟨⟨hunused, hedges⟩, hover⟩
    · rintro ⟨⟨hunused, hedges⟩, hover⟩
      exact ⟨_, hunused, hedges, hover, rfl⟩
  · intro hbroken
    rw [linked_iff] at hbroken
    exact ⟨_, hbroken, fun issue hissue violation => ne_duplicate_of_mem_report hissue,
      validate_eq_referential_iff.2 ⟨hbroken, rfl⟩⟩
  · rintro hlinked ⟨path, channel, hcrowded⟩
    have hover : overloads inv wiring ≠ [] := fun hnil => overloads_eq_nil_iff.1 hnil path channel hcrowded
    exact validate_eq_duplicates_iff.2 ⟨linked_iff.1 hlinked, hover, rfl⟩

end RackMap.Crosscheck
