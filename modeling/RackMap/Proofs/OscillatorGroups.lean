/-
The groups that frequencies are resolved in.

`Partitions` says what the groups of some edges are, however they come about: each port-clock that carries frequencies
is in one of them, with those that its oscillator feeds and no others. `Answers` says that whatever a resolution is
asked about a port-clock or an oscillator, it answers from the group of it.
- `partitions_map`: groups made of the feeds of the edges and their members divide the port-clocks in this way;
- `answers_ofGroups`: a table that is made along with the groups points at the right ones, and the first group with an
  oscillator is the only one;
- `groups_partition`: both hold wherever all channels are described.
-/
import Mathlib.Tactic
import RackMap.Proofs.OpenFrequencies

namespace RackMap

namespace Frequencies

variable {inv : Inventory} {options : OptionTable} {edges : List Edge} {e e' : Edge} {pc : PortClock} {feed : Feed}
  {built : List LoGroup} {g : LoGroup}

/-- the groups divide the port-clocks on channels that are not digital by the oscillators that feed them -/
structure Partitions (inv : Inventory) (edges : List Edge) (groups : List LoGroup) : Prop where
  members : ∀ pc, (∃ g ∈ groups, pc ∈ g.members) ↔
    ∃ e ∈ edges, e.portClock = pc ∧ ∃ channel, inv.channel? e.channel = some channel ∧ channel.kind ≠ .digital
  /-- no port-clock is in two groups, or in one twice -/
  once : (groups.flatMap LoGroup.members).Nodup
  fed : ∀ g ∈ groups, ∀ e ∈ edges, e.portClock ∈ g.members → e.fedBy? inv = g.lo?
  together : ∀ e ∈ edges, ∀ e' ∈ edges, e ≠ e' → e.isTuned inv = true → e'.isTuned inv = true →
    ((∃ g ∈ groups, e.portClock ∈ g.members ∧ e'.portClock ∈ g.members) ↔
      ∃ lo, e.fedBy? inv = some lo ∧ e'.fedBy? inv = some lo)
  alone : ∀ g ∈ groups, g.lo? = none → ∃ pc, g.members = [pc]
  inhabited : ∀ g ∈ groups, g.members ≠ []
  oscillators : (groups.filterMap LoGroup.lo?).Nodup
  /-- the groups stand in the order of the edges of their first members -/
  ordered : groups.Pairwise fun g g' => ∀ pc ∈ g.members.head?, ∀ pc' ∈ g'.members.head?,
    place edges pc < place edges pc'
  inOrder : ∀ g ∈ groups, g.members.Pairwise fun pc pc' => place edges pc < place edges pc'

/-- a resolution says of a port-clock and of an oscillator what the group of it says -/
structure Answers (r : Resolution) : Prop where
  index : ∀ pc i, r.groupIndex? pc = some i ↔ ∃ g, r.groups[i]? = some g ∧ pc ∈ g.members
  inRange : ∀ pc i, r.groupIndex? pc = some i → i < r.groups.length
  lo : ∀ g ∈ r.groups, ∀ pc ∈ g.members, r.lo? pc = g.lo?
  unfed : ∀ pc, (∀ g ∈ r.groups, pc ∉ g.members) → r.lo? pc = none
  frequency : ∀ g ∈ r.groups, ∀ lo, g.lo? = some lo → r.frequency? lo = g.frequency?
  unknown : ∀ lo, (∀ g ∈ r.groups, g.lo? ≠ some lo) → r.frequency? lo = none

/-! ## Dividing the port-clocks -/

/-- edges with different port-clocks have one feed iff one oscillator feeds both -/
theorem feed_eq_iff (hne : e.portClock ≠ e'.portClock) :
    e.feed inv = e'.feed inv ↔ ∃ lo, e.fedBy? inv = some lo ∧ e'.fedBy? inv = some lo := by
  simp only [← feed_eq_oscillator_iff]
  constructor
  · intro heq
    cases hfeed : e.feed inv with
    | oscillator lo => exact ⟨lo, rfl, heq ▸ hfeed⟩
    | alone pc =>
      have hpc := portClock_of_feed_eq_alone hfeed
      have hpc' := portClock_of_feed_eq_alone (heq ▸ hfeed)
      exact absurd (hpc.trans hpc'.symm) hne
  · rintro ⟨lo, hlo, hlo'⟩
    exact hlo.trans hlo'.symm

/-- a port-clock that nothing feeds has no company -/
theorem fedMembers_alone (hnodup : (edges.map Edge.portClock).Nodup) (h : .alone pc ∈ feeds inv edges) :
    fedMembers inv edges (.alone pc) = [pc] := by
  obtain ⟨e, he, ht, hfeed⟩ := mem_feeds.1 h
  obtain rfl := portClock_of_feed_eq_alone hfeed
  have hmembers : (fedMembers inv edges (.alone e.portClock)).Nodup :=
    (List.nodup_flatMap.1 (nodup_groups hnodup)).1 _ h
  refine List.perm_singleton.1 ((List.perm_ext_iff_of_nodup hmembers (List.nodup_singleton _)).2 fun pc => ?_)
  rw [List.mem_singleton]
  constructor
  · intro hpc
    obtain ⟨e', -, -, hfeed', rfl⟩ := mem_fedMembers.1 hpc
    exact portClock_of_feed_eq_alone hfeed'
  · rintro rfl
    exact mem_fedMembers.2 ⟨e, he, ht, hfeed, rfl⟩

theorem fedMembers_ne_nil (h : feed ∈ feeds inv edges) : fedMembers inv edges feed ≠ [] := by
  obtain ⟨e, he, ht, hfeed⟩ := mem_feeds.1 h
  exact List.ne_nil_of_mem (mem_fedMembers.2 ⟨e, he, ht, hfeed, rfl⟩)

/-- the first members, feed by feed, stand in the order of their edges -/
theorem head?_fedMembers_sublist (inv : Inventory) (edges : List Edge) :
    ((feeds inv edges).filterMap fun f => (fedMembers inv edges f).head?).Sublist (edges.map Edge.portClock) := by
  have hheads : (fun f => (fedMembers inv edges f).head?) = fun f =>
      (((tuned inv edges).filter fun e => e.feed inv = f).head?).map Edge.portClock := by
    funext f
    rw [fedMembers, List.head?_map]
  rw [hheads, ← List.map_filterMap]
  exact ((Wiring.filterMap_head?_sublist (Edge.feed inv) (tuned inv edges)).trans List.filter_sublist).map _

/-- the oscillators of different feeds are different -/
theorem nodup_lo?_feeds (inv : Inventory) (edges : List Edge) : ((feeds inv edges).filterMap Feed.lo?).Nodup := by
  rw [← oscillators_eq]
  exact Wiring.nodup_firsts _

/-- **Dividing the port-clocks.** Groups with the oscillators and the members of the feeds do. -/
theorem partitions_map {G : Feed → LoGroup} (hnodup : (edges.map Edge.portClock).Nodup)
    (hlo : ∀ f, (G f).lo? = f.lo?) (hmembers : ∀ f, (G f).members = fedMembers inv edges f) :
    Partitions inv edges ((feeds inv edges).map G) := by
  have hin : ∀ {e}, e ∈ edges → ∀ {f}, e.portClock ∈ (G f).members ↔ e.isTuned inv = true ∧ e.feed inv = f := by
    intro e he f
    rw [hmembers]
    exact mem_fedMembers_iff hnodup he
  constructor
  · intro pc
    simp only [List.mem_map, exists_exists_and_eq_and, hmembers, mem_fedMembers, ← isTuned_iff]
    constructor
    · rintro ⟨f, -, e, he, ht, -, hpc⟩
      exact ⟨e, he, hpc, ht⟩
    · rintro ⟨e, he, hpc, ht⟩
      exact ⟨e.feed inv, mem_feeds.2 ⟨e, he, ht, rfl⟩, e, he, ht, rfl, hpc⟩
  · simp only [List.flatMap_map, hmembers]
    exact nodup_groups hnodup
  · simp only [List.forall_mem_map]
    intro f _ e he hpc
    obtain ⟨-, rfl⟩ := (hin he).1 hpc
    rw [hlo, feed_lo?]
  · intro e he e' he' hne ht ht'
    have hdifferent : e.portClock ≠ e'.portClock := fun hpc => hne (List.inj_on_of_nodup_map hnodup he he' hpc)
    simp only [List.mem_map, exists_exists_and_eq_and, hin he, hin he', ht, ht', true_and, ← feed_eq_iff hdifferent]
    constructor
    · rintro ⟨f, -, hf, hf'⟩
      exact hf.trans hf'.symm
    · intro hsame
      exact ⟨e.feed inv, mem_feeds.2 ⟨e, he, ht, rfl⟩, rfl, hsame.symm⟩
  · simp only [List.forall_mem_map]
    intro f hf hnone
    rw [hlo] at hnone
    cases f with
    | oscillator lo => cases hnone
    | alone pc => exact ⟨pc, (hmembers _).trans (fedMembers_alone hnodup hf)⟩
  · simp only [List.forall_mem_map, hmembers]
    exact fun f hf => fedMembers_ne_nil hf
  · rw [List.filterMap_map]
    simp only [Function.comp_def, hlo]
    exact nodup_lo?_feeds inv edges
  · rw [List.pairwise_map]
    simp only [hmembers]
    exact List.pairwise_filterMap.1 ((pairwise_place hnodup).sublist (head?_fedMembers_sublist inv edges))
  · simp only [List.forall_mem_map, hmembers]
    exact fun f _ => pairwise_fedMembers hnodup f

theorem partitions_resolution (inv : Inventory) (options : OptionTable) (hnodup : (edges.map Edge.portClock).Nodup) :
    Partitions inv edges (resolution inv options edges).groups :=
  partitions_map hnodup (fun _ => rfl) (fun _ => rfl)

/-! ## Asking a resolution -/

/-- where all oscillators are different, the first group with an oscillator is any group with it -/
theorem find?_lo?_eq {lo : OscillatorRef} (hdistinct : (built.filterMap LoGroup.lo?).Nodup) (hg : g ∈ built)
    (hlo : g.lo? = some lo) : built.find? (·.lo? = some lo) = some g := by
  obtain ⟨before, after, rfl⟩ := List.append_of_mem hg
  rw [List.filterMap_append, List.filterMap_cons_some hlo, List.nodup_append] at hdistinct
  refine List.find?_eq_some_iff_append.2 ⟨decide_eq_true hlo, before, after, rfl, fun other hother => ?_⟩
  have hne : other.lo? ≠ some lo := fun heq =>
    hdistinct.2.2 lo (List.mem_filterMap.2 ⟨other, hother, heq⟩) lo List.mem_cons_self rfl
  simpa using hne

/-- **Asking a resolution.** A table made along with the groups points at the group of each member. -/
theorem answers_ofGroups (hmembers : (built.flatMap LoGroup.members).Nodup)
    (hdistinct : (built.filterMap LoGroup.lo?).Nodup) : Answers (ofGroups options built) := by
  have hindex : ∀ pc i, (ofGroups options built).groupIndex? pc = some i ↔
      ∃ g, built[i]? = some g ∧ pc ∈ g.members := by
    intro pc i
    simp only [Resolution.groupIndex?, Option.map_eq_some_iff, Prod.exists, exists_eq_right,
      lookup?_splits_iff hmembers]
    constructor
    · rintro ⟨split, g, hg, hpc, -⟩
      exact ⟨g, hg, hpc⟩
    · rintro ⟨g, hg, hpc⟩
      exact ⟨_, g, hg, hpc, rfl⟩
  refine ⟨hindex, ?_, ?_, ?_, ?_, ?_⟩
  · intro pc i hi
    obtain ⟨g, hg, -⟩ := (hindex pc i).1 hi
    exact (List.getElem?_eq_some_iff.1 hg).1
  · intro g hg pc hpc
    obtain ⟨i, hi⟩ := List.mem_iff_getElem?.1 hg
    have hplaced : (ofGroups options built).groupIndex? pc = some i := (hindex pc i).2 ⟨g, hi, hpc⟩
    rw [Resolution.lo?, hplaced, Option.bind_some, hi]
    rfl
  · intro pc hpc
    have hnone : (ofGroups options built).splits.lookup? pc = none := lookup?_splits_eq_none_iff.2 hpc
    rw [Resolution.lo?, Resolution.groupIndex?, hnone]
    rfl
  · intro g hg lo hlo
    rw [Resolution.frequency?, groups_ofGroups, find?_lo?_eq hdistinct hg hlo]
    rfl
  · intro lo hlo
    have hnone : built.find? (·.lo? = some lo) = none :=
      List.find?_eq_none.2 fun g hg hfound => hlo g hg (of_decide_eq_true hfound)
    rw [Resolution.frequency?, groups_ofGroups, hnone]
    rfl

/-- **The groups of a wiring.** They divide the port-clocks that carry frequencies by the oscillators that feed them.
Settling gives each a frequency and changes nothing else, and the resolution answers from them. -/
theorem groups_partition {w : Wiring} (hdescribed : ∀ e ∈ w.edges, ∃ channel, inv.channel? e.channel = some channel) :
    ∃ built, groups inv w = .ok built ∧ Partitions inv w.edges built ∧
      ∀ options r, resolve inv options w = .ok r →
        r.groups.map (fun g => { g with frequency? := none }) = built ∧ Answers r := by
  refine ⟨_, groups_eq hdescribed, partitions_map w.distinct (fun _ => rfl) (fun _ => rfl), fun options r hr => ?_⟩
  obtain rfl := eq_resolution_of_resolve hr
  have hsettled : Partitions inv w.edges (resolution inv options w.edges).groups :=
    partitions_resolution inv options w.distinct
  exact ⟨List.map_map .., answers_ofGroups hsettled.once hsettled.oscillators⟩

end Frequencies

/-- a rack with an oscillator that is built in and shared by an output and an input, one that is connected, two
port-clocks that none feeds and a marker; `asked` is what some of them ask for -/
def mixedConfig (asked : Entries Modulation) : Config where
  backend := "qblox"
  description := [
    ("cluster0", { (default : InstrumentDescription) with
      type := "Cluster", modules? := some [("1", ⟨"QRM_RF", []⟩), ("2", ⟨"QCM", []⟩)] }),
    ("lo0", { (default : InstrumentDescription) with type := "LocalOscillator" })]
  options? := some { modulation? := some asked }
  connectivity := .paths [
    ("cluster0.module1.complex_output_0", .obj [
      ("portclock_configs", .arr [.obj [("port", .str "q0:res"), ("clock", .str "q0.ro")]])]),
    ("cluster0.module2.complex_output_0", .obj [("lo_name", .str "lo0"),
      ("portclock_configs", .arr [.obj [("port", .str "q0:mw"), ("clock", .str "q0.01")],
        .obj [("port", .str "q1:mw"), ("clock", .str "q1.01")]])]),
    ("cluster0.module1.complex_input_0", .obj [
      ("portclock_configs", .arr [.obj [("port", .str "q1:res"), ("clock", .str "q1.ro")]])]),
    ("cluster0.module2.complex_output_1", .obj [
      ("portclock_configs", .arr [.obj [("port", .str "q0:fl"), ("clock", .str "q0.02")],
        .obj [("port", .str "q1:fl"), ("clock", .str "q1.02")]])]),
    ("cluster0.module2.digital_output_0", .obj [
      ("portclock_configs", .arr [.obj [("port", .str "q0:switch"), ("clock", .str "cl0.baseband")]])])]

/-- the output and the input are in one group, though other edges stand between theirs; the marker is in none -/
theorem mixedConfig_partitioned :
    ∃ p r, Parsed.ofConfig (mixedConfig []) {} = .ok p ∧
      (∀ e ∈ p.wiring.edges, ∃ channel, p.inventory.channel? e.channel = some channel) ∧
      Frequencies.resolve p.inventory p.options p.wiring = .ok r ∧
      r.groups.map LoGroup.members = [[⟨"q0:res", "q0.ro"⟩, ⟨"q1:res", "q1.ro"⟩],
        [⟨"q0:mw", "q0.01"⟩, ⟨"q1:mw", "q1.01"⟩], [⟨"q0:fl", "q0.02"⟩], [⟨"q1:fl", "q1.02"⟩]] ∧
      ∃ built, Frequencies.groups p.inventory p.wiring = .ok built ∧
        Frequencies.Partitions p.inventory p.wiring.edges built ∧
        ∀ options r, Frequencies.resolve p.inventory options p.wiring = .ok r →
          r.groups.map (fun g => { g with frequency? := none }) = built ∧ Frequencies.Answers r := by
  obtain ⟨p, hp, hchecked⟩ := exists_eq_ok (x := Parsed.ofConfig (mixedConfig []) {})
    (c := fun p => (p.wiring.edges.all fun e => (p.inventory.channel? e.channel).isSome) &&
      (Frequencies.resolve p.inventory p.options p.wiring).toOption.any fun r =>
        r.groups.map LoGroup.members = [[⟨"q0:res", "q0.ro"⟩, ⟨"q1:res", "q1.ro"⟩],
          [⟨"q0:mw", "q0.01"⟩, ⟨"q1:mw", "q1.01"⟩], [⟨"q0:fl", "q0.02"⟩], [⟨"q1:fl", "q1.02"⟩]])
    (by decide +kernel)
  obtain ⟨hall, hresolved⟩ := Bool.and_eq_true_iff.1 hchecked
  obtain ⟨r, hr, hmembers⟩ := exists_eq_ok hresolved
  have hdescribed : ∀ e ∈ p.wiring.edges, ∃ channel, p.inventory.channel? e.channel = some channel :=
    fun e he => Option.isSome_iff_exists.1 (List.all_eq_true.1 hall e he)
  exact ⟨p, r, hp, hdescribed, hr, of_decide_eq_true hmembers, Frequencies.groups_partition hdescribed⟩

end RackMap
