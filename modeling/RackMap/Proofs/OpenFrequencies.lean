/-
The open frequencies of a map: which ones are listed, and in which order.

They are read off the members of the groups, after the groups have handed out what one of their members asks for.
- `mem_openOf_iff`: what a member leaves open is what nobody asks for;
- `listsOpen_resolution`: so the list has each of these gaps once, and nothing else;
- `resolve_lists_open`: it is so whenever frequencies are resolved, and the map takes the list over;
- `byGroups_resolution`: the list goes group by group, and in document order within a group only;
- `compile_orders_open`: it is in document order iff the groups of the port-clocks on it begin in that order, and
  `threeConfig_unordered` is a config where they do not.
-/
import Mathlib.Tactic
import RackMap.Proofs.ClosedForm
import RackMap.Proofs.Frequencies.Restriction
import RackMap.Proofs.Oscillators

namespace RackMap

namespace Frequencies

variable {inv : Inventory} {options : OptionTable} {edges : List Edge} {e : Edge} {pc : PortClock} {feed : Feed}
  {lo? : Option OscillatorRef} {slot : FrequencySlot} {u : OpenFrequency} {listed : List OpenFrequency}

/-! ## Gaps -/

/-- a frequency of an edge that nobody asks for; that of an oscillator can be asked for by any of its members -/
def Gap (inv : Inventory) (options : OptionTable) (edges : List Edge) (e : Edge) : FrequencySlot → Prop
  | .oscillator =>
    ∃ lo, e.fedBy? inv = some lo ∧ ∀ pc ∈ members inv edges lo, (options.modulation pc).lo? = none
  | .intermediate => (options.modulation e.portClock).interm? = none

/-- the list has the gaps on channels that are not digital, with the oscillator that feeds the port-clock -/
structure ListsOpen (inv : Inventory) (options : OptionTable) (edges : List Edge) (listed : List OpenFrequency) :
    Prop where
  exact : ∀ pc lo? slot, ⟨pc, lo?, slot⟩ ∈ listed ↔
    ∃ e ∈ edges, e.portClock = pc ∧ e.fedBy? inv = lo? ∧
      (∃ channel, inv.channel? e.channel = some channel ∧ channel.kind ≠ .digital) ∧ Gap inv options edges e slot
  once : (listed.map fun u => (u.portClock, u.slot)).Nodup

theorem isTuned_iff :
    e.isTuned inv = true ↔ ∃ channel, inv.channel? e.channel = some channel ∧ channel.kind ≠ .digital := by
  have hkind : ∀ kind : ChannelKind, kind.carriesFrequencies = true ↔ kind ≠ .digital := by
    intro kind
    cases kind <;> decide
  simp only [Edge.isTuned, Option.any_eq_true, hkind]

/-- after sharing, an oscillator frequency is missing iff no member asks for one -/
theorem gap_oscillator_iff (he : e ∈ edges) (ht : e.isTuned inv = true) :
    Gap inv options edges e .oscillator ↔ (e.fedBy? inv).isSome = true ∧
      (options.modulation e.portClock).lo?.or ((e.fedBy? inv).bind (firstRequest? inv options edges)) = none := by
  cases hfed : e.fedBy? inv with
  | none => simp [Gap, hfed]
  | some lo =>
    have hmember : e.portClock ∈ members inv edges lo := mem_members.2 ⟨e, he, ht, hfed, rfl⟩
    simp only [Gap, hfed, Option.some.injEq, exists_eq_left', Option.isSome_some, true_and, Option.bind_some,
      Option.or_eq_none_iff, firstRequest?_eq_none_iff]
    constructor
    · intro hall
      exact ⟨hall _ hmember, hall⟩
    · intro h
      exact h.2

/-- **What a member leaves open.** -/
theorem mem_openOf_iff (hnodup : (edges.map Edge.portClock).Nodup) (he : e ∈ edges) (ht : e.isTuned inv = true) :
    ⟨pc, lo?, slot⟩ ∈ (settledGroup inv options edges (e.feed inv)).openOf options e.portClock ↔
      e.portClock = pc ∧ e.fedBy? inv = lo? ∧ Gap inv options edges e slot := by
  have hsplit : (settledGroup inv options edges (e.feed inv)).split options e.portClock =
      ⟨(options.modulation e.portClock).interm?,
        (options.modulation e.portClock).lo?.or ((e.fedBy? inv).bind (firstRequest? inv options edges))⟩ := by
    rw [← split_resolution hnodup he ht, split_group hnodup he, if_pos ht]
  have hlo : (settledGroup inv options edges (e.feed inv)).lo? = e.fedBy? inv := feed_lo? inv e
  have hgap : Gap inv options edges e .oscillator ↔ _ := gap_oscillator_iff he ht
  simp only [LoGroup.openOf, hsplit, hlo, ← hgap, List.mem_append, List.mem_ite_nil_right, List.mem_singleton,
    OpenFrequency.mk.injEq]
  cases slot with
  | oscillator =>
    simp only [and_true, reduceCtorEq, and_false, or_false]
    constructor
    · rintro ⟨h, rfl, rfl⟩
      exact ⟨rfl, rfl, h⟩
    · rintro ⟨rfl, rfl, h⟩
      exact ⟨h, rfl, rfl⟩
  | intermediate =>
    simp only [reduceCtorEq, and_false, false_or, and_true, Gap]
    constructor
    · rintro ⟨h, rfl, rfl⟩
      exact ⟨rfl, rfl, h⟩
    · rintro ⟨rfl, rfl, h⟩
      exact ⟨h, rfl, rfl⟩

/-- the frequencies that a member leaves open are different ones -/
theorem nodup_openOf (g : LoGroup) (pc : PortClock) :
    ((g.openOf options pc).map fun u => (u.portClock, u.slot)).Nodup := by
  unfold LoGroup.openOf
  simp only
  split <;> split <;> simp

theorem fst_of_mem_map_openOf {g : LoGroup} {key : PortClock × FrequencySlot}
    (h : key ∈ (g.openOf options pc).map fun u => (u.portClock, u.slot)) : key.1 = pc := by
  obtain ⟨u, hu, rfl⟩ := List.mem_map.1 h
  exact portClock_of_mem_openOf hu

/-- no gap is listed twice: a port-clock is a member of one group, once -/
theorem nodup_unresolved (hnodup : (edges.map Edge.portClock).Nodup) :
    ((resolution inv options edges).unresolved.map fun u => (u.portClock, u.slot)).Nodup := by
  have hfed : ((feeds inv edges).flatMap (fedMembers inv edges)).Nodup := nodup_groups hnodup
  obtain ⟨hmembers, hgroups⟩ := List.nodup_flatMap.1 hfed
  simp only [unresolved_resolution, List.map_flatMap]
  refine List.nodup_flatMap.2 ⟨fun feed hfeed => List.nodup_flatMap.2 ⟨fun pc _ => nodup_openOf _ pc, ?_⟩, ?_⟩
  · refine (hmembers feed hfeed).imp fun {pc pc'} hne key hkey hkey' => hne ?_
    rw [← fst_of_mem_map_openOf hkey, ← fst_of_mem_map_openOf hkey']
  · refine hgroups.imp fun {feed feed'} hdisjoint key hkey hkey' => ?_
    obtain ⟨pc, hpc, hkey⟩ := List.mem_flatMap.1 hkey
    obtain ⟨pc', hpc', hkey'⟩ := List.mem_flatMap.1 hkey'
    obtain rfl : pc = pc' := (fst_of_mem_map_openOf hkey).symm.trans (fst_of_mem_map_openOf hkey')
    exact hdisjoint hpc hpc'

/-- **The gaps of a wiring.** -/
theorem listsOpen_resolution (hnodup : (edges.map Edge.portClock).Nodup) :
    ListsOpen inv options edges (resolution inv options edges).unresolved := by
  refine ⟨fun pc lo? slot => ?_, nodup_unresolved hnodup⟩
  simp only [unresolved_resolution, List.mem_flatMap, ← isTuned_iff]
  constructor
  · rintro ⟨feed, -, pc', hpc', hopen⟩
    obtain ⟨e, he, ht, rfl, rfl⟩ := mem_fedMembers.1 hpc'
    obtain ⟨hpc, hlo, hgap⟩ := (mem_openOf_iff hnodup he ht).1 hopen
    exact ⟨e, he, hpc, hlo, ht, hgap⟩
  · rintro ⟨e, he, hpc, hlo, ht, hgap⟩
    exact ⟨e.feed inv, mem_feeds.2 ⟨e, he, ht, rfl⟩, e.portClock, mem_fedMembers.2 ⟨e, he, ht, rfl, rfl⟩,
      (mem_openOf_iff hnodup he ht).2 ⟨hpc, hlo, hgap⟩⟩

end Frequencies

/-- **Open frequencies of checked documents.** Whenever they are resolved, the gaps are listed, and the map of the
documents takes the list over. -/
theorem resolve_lists_open {v : Validated} {r : Resolved} (h : v.resolve = .ok r) :
    Frequencies.ListsOpen v.inventory v.options v.wiring.edges r.frequencies.unresolved ∧
      ∀ m, r.build = .ok m → m.unresolved = r.frequencies.unresolved := by
  obtain ⟨frequencies, hresolve, rfl⟩ := map_eq_ok_iff.1 h
  obtain rfl := Frequencies.eq_resolution_of_resolve hresolve
  refine ⟨Frequencies.listsOpen_resolution v.wiring.distinct, fun m hm => ?_⟩
  rw [(Compile.map_eq_ok_iff_clear.1 hm).2]
  rfl

/-- two port-clocks on one oscillator, of which the first asks for its frequency: the intermediate ones are open -/
theorem sharedConfig_lists_open :
    ∃ p v r, Parsed.ofConfig (sharedConfig (some (.finite false 5)) none) (Settings.sanitize {}).2 = .ok p ∧
      p.validate = .ok v ∧ v.resolve = .ok r ∧
      r.frequencies.unresolved.map (fun u => (u.portClock, u.slot)) =
        [(⟨"q0:mw", "q0.01"⟩, .intermediate), (⟨"q1:mw", "q1.01"⟩, .intermediate)] ∧
      Frequencies.ListsOpen v.inventory v.options v.wiring.edges r.frequencies.unresolved := by
  obtain ⟨p, hp, hchecked⟩ :=
    exists_eq_ok (x := Parsed.ofConfig (sharedConfig (some (.finite false 5)) none) (Settings.sanitize {}).2)
      (c := fun p => p.validate.toOption.any fun v => v.resolve.toOption.any fun r =>
        r.frequencies.unresolved.map (fun u => (u.portClock, u.slot)) =
          [(⟨"q0:mw", "q0.01"⟩, .intermediate), (⟨"q1:mw", "q1.01"⟩, .intermediate)])
      (by decide +kernel)
  obtain ⟨v, hv, hchecked⟩ := exists_eq_ok hchecked
  obtain ⟨r, hr, hlisted⟩ := exists_eq_ok hchecked
  exact ⟨p, v, r, hp, hv, hr, of_decide_eq_true hlisted, (resolve_lists_open hr).1⟩

/-! ## The order of the list -/

/-- what puts the port-clock of an open frequency into its group -/
def OpenFrequency.feed (u : OpenFrequency) : Feed :=
  match u.lo? with
  | some lo => .oscillator lo
  | none => .alone u.portClock

namespace Frequencies

/-- where the edge of a port-clock stands -/
def place (edges : List Edge) (pc : PortClock) : Nat := (edges.map Edge.portClock).idxOf pc

/-- where the group of a feed begins among the edges that carry frequencies -/
def start (inv : Inventory) (edges : List Edge) (feed : Feed) : Nat :=
  ((tuned inv edges).map (Edge.feed inv)).idxOf feed

/-- what is open of a port-clock stands before what is open of those whose edges come later -/
def InDocumentOrder (edges : List Edge) (listed : List OpenFrequency) : Prop :=
  ∀ (i j : Nat) (u v : OpenFrequency), listed[i]? = some u → listed[j]? = some v →
    place edges u.portClock < place edges v.portClock → i < j

/-- the list goes group by group, by where they begin, and in document order within a group -/
def ByGroups (inv : Inventory) (edges : List Edge) (listed : List OpenFrequency) : Prop :=
  listed.Pairwise fun u v => start inv edges u.feed < start inv edges v.feed ∨
    (start inv edges u.feed = start inv edges v.feed ∧ place edges u.portClock ≤ place edges v.portClock)

/-- the group of a later port-clock never begins before that of an earlier one -/
def GroupsInOrder (inv : Inventory) (edges : List Edge) (listed : List OpenFrequency) : Prop :=
  ∀ u ∈ listed, ∀ v ∈ listed, place edges u.portClock < place edges v.portClock →
    start inv edges u.feed ≤ start inv edges v.feed

/-- edges with different port-clocks stand in the order of their places -/
theorem pairwise_place {edges : List Edge} (hnodup : (edges.map Edge.portClock).Nodup) :
    (edges.map Edge.portClock).Pairwise fun pc pc' => place edges pc < place edges pc' := by
  have hplaces := Wiring.pairwise_idxOf_firsts (edges.map Edge.portClock)
  rwa [Wiring.firsts_of_nodup hnodup] at hplaces

theorem pairwise_fedMembers (hnodup : (edges.map Edge.portClock).Nodup) (feed : Feed) :
    (fedMembers inv edges feed).Pairwise fun pc pc' => place edges pc < place edges pc' :=
  (pairwise_place hnodup).sublist ((List.filter_sublist.trans List.filter_sublist).map Edge.portClock)

theorem lo?_of_mem_openOf {g : LoGroup} (h : u ∈ g.openOf options pc) : u.lo? = g.lo? := by
  unfold LoGroup.openOf at h
  rcases List.mem_append.1 h with h | h
  · rw [List.mem_singleton.1 (List.mem_ite_nil_right.1 h).2]
  · rw [List.mem_singleton.1 (List.mem_ite_nil_right.1 h).2]

/-- what a member leaves open tells the feed of its group -/
theorem feed_of_mem_openOf (hpc : pc ∈ fedMembers inv edges feed)
    (hu : u ∈ (settledGroup inv options edges feed).openOf options pc) : u.feed = feed := by
  have hlo : u.lo? = feed.lo? := lo?_of_mem_openOf hu
  rw [OpenFrequency.feed, hlo]
  cases feed with
  | oscillator lo => rfl
  | alone pc' =>
    obtain ⟨e, -, -, hfeed, rfl⟩ := mem_fedMembers.1 hpc
    rw [← portClock_of_feed_eq_alone hfeed, ← portClock_of_mem_openOf hu]
    rfl

/-- **The order of the gaps.** -/
theorem byGroups_resolution (hnodup : (edges.map Edge.portClock).Nodup) :
    ByGroups inv edges (resolution inv options edges).unresolved := by
  rw [ByGroups, unresolved_resolution, List.pairwise_flatMap]
  constructor
  · intro feed _
    rw [List.pairwise_flatMap]
    constructor
    · intro pc hpc
      refine List.pairwise_of_forall_mem_list fun u hu v hv => Or.inr ⟨?_, ?_⟩
      · rw [feed_of_mem_openOf hpc hu, feed_of_mem_openOf hpc hv]
      · rw [portClock_of_mem_openOf hu, portClock_of_mem_openOf hv]
    · refine (pairwise_fedMembers hnodup feed).imp_of_mem fun {pc pc'} hpc hpc' hplace u hu v hv => Or.inr ⟨?_, ?_⟩
      · rw [feed_of_mem_openOf hpc hu, feed_of_mem_openOf hpc' hv]
      · rw [portClock_of_mem_openOf hu, portClock_of_mem_openOf hv]
        exact hplace.le
  · refine (Wiring.pairwise_idxOf_firsts _).imp fun {feed feed'} hstart u hu v hv => Or.inl ?_
    obtain ⟨pc, hpc, hu⟩ := List.mem_flatMap.1 hu
    obtain ⟨pc', hpc', hv⟩ := List.mem_flatMap.1 hv
    rw [feed_of_mem_openOf hpc hu, feed_of_mem_openOf hpc' hv]
    exact hstart

/-- a list that goes group by group is in document order iff the groups on it begin in that order -/
theorem inDocumentOrder_iff (h : ByGroups inv edges listed) :
    InDocumentOrder edges listed ↔ GroupsInOrder inv edges listed := by
  have hordered := List.pairwise_iff_getElem.1 h
  constructor
  · intro hdocument u hu v hv hplace
    obtain ⟨i, hi, rfl⟩ := List.getElem_of_mem hu
    obtain ⟨j, hj, rfl⟩ := List.getElem_of_mem hv
    have hij := hdocument i j _ _ (List.getElem?_eq_getElem hi) (List.getElem?_eq_getElem hj) hplace
    rcases hordered i j hi hj hij with hstart | ⟨hstart, -⟩
    · exact hstart.le
    · exact hstart.le
  · intro hgroups i j u v hu hv hplace
    obtain ⟨hi, rfl⟩ := List.getElem?_eq_some_iff.1 hu
    obtain ⟨hj, rfl⟩ := List.getElem?_eq_some_iff.1 hv
    have hstart := hgroups _ (List.getElem_mem hi) _ (List.getElem_mem hj) hplace
    by_contra hnot
    -- the two are different, so otherwise the later port-clock stands first, in a group that begins no earlier
    rcases Nat.lt_or_eq_of_le (Nat.le_of_not_lt hnot) with hji | rfl
    · rcases hordered j i hj hi hji with hbefore | ⟨-, hbefore⟩
      · omega
      · omega
    · exact Nat.lt_irrefl _ hplace

end Frequencies

/-- **The order of the open frequencies of a map.** They go group by group, and are in document order iff no group of a
later port-clock begins before that of an earlier one. -/
theorem compile_orders_open {config : Config} {settings : Settings} {m : CompiledMap}
    (h : compile config settings = .ok m) :
    ∃ inv, Inventory.build config.description m.backend = .ok inv ∧
      Frequencies.ByGroups inv config.connectivity.edges m.unresolved ∧
      (Frequencies.InDocumentOrder config.connectivity.edges m.unresolved ↔
        Frequencies.GroupsInOrder inv config.connectivity.edges m.unresolved) := by
  obtain ⟨p, warnings, hc⟩ := compile_compiled h
  have hunresolved : m.unresolved = (Compiled.resolution p).unresolved := by
    rw [(Compile.map_eq_ok_iff_clear.1 hc.map).2]
    rfl
  have hgroups : Frequencies.ByGroups p.inventory config.connectivity.edges m.unresolved := by
    rw [hunresolved, ← hc.edges]
    exact Frequencies.byGroups_resolution p.wiring.distinct
  exact ⟨p.inventory, hc.inventory, hgroups, Frequencies.inDocumentOrder_iff hgroups⟩

/-- three port-clocks without frequencies, each on an output of its own and fed by these oscillators -/
def threeConfig (first second third : String) : Config where
  backend := "qblox"
  description := [
    ("cluster0", { (default : InstrumentDescription) with
      type := "Cluster", modules? := some [("1", ⟨"QCM", []⟩), ("2", ⟨"QCM", []⟩)] }),
    ("lo0", { (default : InstrumentDescription) with type := "LocalOscillator" }),
    ("lo1", { (default : InstrumentDescription) with type := "LocalOscillator" })]
  options? := none
  connectivity := .paths [
    ("cluster0.module1.complex_output_0", .obj [("lo_name", .str first),
      ("portclock_configs", .arr [.obj [("port", .str "q0:mw"), ("clock", .str "q0.01")]])]),
    ("cluster0.module1.complex_output_1", .obj [("lo_name", .str second),
      ("portclock_configs", .arr [.obj [("port", .str "q1:mw"), ("clock", .str "q1.01")]])]),
    ("cluster0.module2.complex_output_0", .obj [("lo_name", .str third),
      ("portclock_configs", .arr [.obj [("port", .str "q2:mw"), ("clock", .str "q2.01")]])])]

/-- the members of the first oscillator come first, so the list is in document order -/
theorem threeConfig_ordered :
    ∃ m, compile (threeConfig "lo0" "lo0" "lo1") {} = .ok m ∧
      m.unresolved.map OpenFrequency.portClock = [⟨"q0:mw", "q0.01"⟩, ⟨"q0:mw", "q0.01"⟩, ⟨"q1:mw", "q1.01"⟩,
        ⟨"q1:mw", "q1.01"⟩, ⟨"q2:mw", "q2.01"⟩, ⟨"q2:mw", "q2.01"⟩] ∧
      ∃ inv, Inventory.build (threeConfig "lo0" "lo0" "lo1").description m.backend = .ok inv ∧
        Frequencies.ByGroups inv (threeConfig "lo0" "lo0" "lo1").connectivity.edges m.unresolved ∧
        (Frequencies.InDocumentOrder (threeConfig "lo0" "lo0" "lo1").connectivity.edges m.unresolved ↔
          Frequencies.GroupsInOrder inv (threeConfig "lo0" "lo0" "lo1").connectivity.edges m.unresolved) := by
  obtain ⟨m, hm, hlisted⟩ := exists_eq_ok (x := compile (threeConfig "lo0" "lo0" "lo1") {})
    (c := fun m => m.unresolved.map OpenFrequency.portClock = [⟨"q0:mw", "q0.01"⟩, ⟨"q0:mw", "q0.01"⟩,
      ⟨"q1:mw", "q1.01"⟩, ⟨"q1:mw", "q1.01"⟩, ⟨"q2:mw", "q2.01"⟩, ⟨"q2:mw", "q2.01"⟩])
    (by decide +kernel)
  exact ⟨m, hm, of_decide_eq_true hlisted, compile_orders_open hm⟩

/-- **Not in document order.** The third port-clock shares the oscillator of the first, so it is before the second. -/
theorem threeConfig_unordered :
    ∃ m, compile (threeConfig "lo0" "lo1" "lo0") {} = .ok m ∧
      ¬Frequencies.InDocumentOrder (threeConfig "lo0" "lo1" "lo0").connectivity.edges m.unresolved := by
  obtain ⟨m, hm, hlisted⟩ := exists_eq_ok (x := compile (threeConfig "lo0" "lo1" "lo0") {})
    (c := fun m => m.unresolved = [⟨⟨"q0:mw", "q0.01"⟩, some (.external "lo0"), .oscillator⟩,
      ⟨⟨"q0:mw", "q0.01"⟩, some (.external "lo0"), .intermediate⟩,
      ⟨⟨"q2:mw", "q2.01"⟩, some (.external "lo0"), .oscillator⟩,
      ⟨⟨"q2:mw", "q2.01"⟩, some (.external "lo0"), .intermediate⟩,
      ⟨⟨"q1:mw", "q1.01"⟩, some (.external "lo1"), .oscillator⟩,
      ⟨⟨"q1:mw", "q1.01"⟩, some (.external "lo1"), .intermediate⟩])
    (by decide +kernel)
  refine ⟨m, hm, fun hordered => ?_⟩
  rw [of_decide_eq_true hlisted] at hordered
  have hplace : Frequencies.place (threeConfig "lo0" "lo1" "lo0").connectivity.edges ⟨"q1:mw", "q1.01"⟩ <
      Frequencies.place (threeConfig "lo0" "lo1" "lo0").connectivity.edges ⟨"q2:mw", "q2.01"⟩ := by
    decide +kernel
  exact absurd (hordered 4 2 _ _ rfl rfl hplace) (by decide)

end RackMap
