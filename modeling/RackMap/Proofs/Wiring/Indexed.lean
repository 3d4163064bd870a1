/-
Lists of edges: which of them are wirings, what a wiring tells of its edges, and what is said of all other lists.

- `answers_of_edges_eq`: a wiring answers as its edges do;
- `reports_repeated`: the index of a list holds the port-clocks that come up again, in the order in which they do
  (`IsSecond`), with the channels of all their edges;
- `ofEdges_outcome`: edges are a wiring iff their port-clocks are pairwise different, and for other edges each port-clock
  with more than one of them is reported, with the channels of all of them.
-/
import Mathlib.Tactic
import RackMap.Proofs.CompiledMap

namespace RackMap.Wiring

/-- what a wiring tells of its edges -/
structure Answers (w : Wiring) (edges : List Edge) : Prop where
  edges_eq : w.edges = edges
  /-- a port-clock has the one edge that it is on -/
  edge : ∀ pc e, w.edge? pc = some e ↔ e ∈ edges ∧ e.portClock = pc
  /-- the port-clocks on a channel are those that have this channel -/
  mem_portClocksOn : ∀ pc path, pc ∈ w.portClocksOn path ↔ w.channelFor? pc = some path
  portClocksOn_order : ∀ path, (w.portClocksOn path).Sublist (edges.map Edge.portClock)
  portClocksOn_once : ∀ path, (w.portClocksOn path).Nodup
  mem_channels : ∀ path, path ∈ w.channels ↔ ∃ e ∈ edges, e.channel = path
  channels_once : w.channels.Nodup
  channels_order :
    w.channels.Pairwise fun path path' => (edges.map Edge.channel).idxOf path < (edges.map Edge.channel).idxOf path'

/-- what is said of edges with repeated port-clocks: `pcs` are these port-clocks, in the order of their second edges -/
structure Reports (edges : List Edge) (pcs : List PortClock) (violations : List Violation) : Prop where
  each : ∀ pc, pc ∈ pcs ↔ 2 ≤ (edges.map Edge.portClock).count pc
  once : pcs.Nodup
  order : pcs.Pairwise fun pc pc' =>
    ∃ i j, IsSecond (edges.map Edge.portClock) i pc ∧ IsSecond (edges.map Edge.portClock) j pc' ∧ i < j
  violations_eq : violations =
    pcs.map fun pc => .portClock pc ((edges.filter fun e => e.portClock = pc).map Edge.channel)

variable {edges : List Edge} {w : Wiring}

/-- a port-clock is on the edge that is found for it and on no other one -/
theorem edge?_eq_some_iff {pc : PortClock} {e : Edge} : w.edge? pc = some e ↔ e ∈ w.edges ∧ e.portClock = pc := by
  have hfound : ∀ {found}, w.edge? pc = some found → found ∈ w.edges ∧ found.portClock = pc := by
    intro found h
    rw [edge?_eq] at h
    exact ⟨List.mem_of_find?_eq_some h, by simpa using List.find?_some h⟩
  refine ⟨hfound, ?_⟩
  rintro ⟨he, rfl⟩
  have hsome : (w.edge? e.portClock).isSome = true := by
    rw [edge?_eq]
    exact List.find?_isSome.2 ⟨e, he, by simp⟩
  obtain ⟨found, hedge⟩ := Option.isSome_iff_exists.1 hsome
  obtain ⟨hin, hpc⟩ := hfound hedge
  rw [hedge, List.inj_on_of_nodup_map w.distinct hin he hpc]

theorem mem_portClocksOn_iff {pc : PortClock} {path : ChannelPath} :
    pc ∈ w.portClocksOn path ↔ w.channelFor? pc = some path := by
  simp only [Compile.mem_portClocksOn, channelFor?, Option.map_eq_some_iff, edge?_eq_some_iff]
  constructor
  · rintro ⟨e, he, rfl, rfl⟩
    exact ⟨e, ⟨he, rfl⟩, rfl⟩
  · rintro ⟨e, ⟨he, rfl⟩, rfl⟩
    exact ⟨e, he, rfl, rfl⟩

/-- a wiring answers as its edges do -/
theorem answers_of_edges_eq (h : w.edges = edges) : w.Answers edges where
  edges_eq := h
  edge _ _ := by rw [← h, edge?_eq_some_iff]
  mem_portClocksOn _ _ := mem_portClocksOn_iff
  portClocksOn_order path := by
    rw [portClocksOn_eq, h]
    exact List.filter_sublist.map Edge.portClock
  portClocksOn_once := Compile.nodup_portClocksOn w
  mem_channels path := by rw [← h, Compile.mem_channels]
  channels_once := w.nodup_channels
  channels_order := h ▸ w.pairwise_channels

/-- what is reported of a list of edges -/
theorem reports_repeated (edges : List Edge) :
    Reports edges (EdgeIndex.ofEdges edges).repeated.keys
      (List.map (fun p => .portClock p.1 p.2) (EdgeIndex.ofEdges edges).repeated) where
  each := (EdgeIndex.covers_ofEdges edges).again
  once := (EdgeIndex.covers_ofEdges edges).once
  order := (EdgeIndex.covers_ofEdges edges).order
  violations_eq := by
    rw [Table.keys, List.map_map]
    refine List.map_congr_left fun p hp => ?_
    have hcovers := EdgeIndex.covers_ofEdges edges
    rw [Function.comp_apply, ← hcovers.listed p.1 p.2 (Table.lookup?_of_mem hcovers.once hp)]

theorem ofEdges_eq_error (h : ¬(edges.map Edge.portClock).Nodup) : ofEdges edges =
    .error (.duplicates (List.map (fun p => .portClock p.1 p.2) (EdgeIndex.ofEdges edges).repeated)) := by
  rw [ofEdges, dif_neg (mt EdgeIndex.repeated_eq_nil_iff.1 h)]

/-- **Lists of edges.** They are a wiring iff their port-clocks are pairwise different, and it answers as they do. Of any
other list the port-clocks with more than one edge are reported, in the order of their second edges. -/
theorem ofEdges_outcome (edges : List Edge) :
    ((∃ w, ofEdges edges = .ok w) ↔ (edges.map Edge.portClock).Nodup) ∧
      (∀ w, ofEdges edges = .ok w → w.Answers edges) ∧
      ∀ failure, ofEdges edges = .error failure →
        ∃ pcs violations, failure = .duplicates violations ∧ Reports edges pcs violations := by
  have hbuilt : (edges.map Edge.portClock).Nodup → ∃ w, ofEdges edges = .ok w :=
    fun hdistinct => ⟨.ofDistinct edges hdistinct, ofEdges_eq_ok_iff.2 rfl⟩
  refine ⟨⟨?_, hbuilt⟩, fun w hw => answers_of_edges_eq (ofEdges_eq_ok_iff.1 hw), fun failure hfailure => ?_⟩
  · rintro ⟨w, hw⟩
    rw [← ofEdges_eq_ok_iff.1 hw]
    exact w.distinct
  · have hrepeats : ¬(edges.map Edge.portClock).Nodup := by
      intro hdistinct
      obtain ⟨w, hw⟩ := hbuilt hdistinct
      rw [hw] at hfailure
      cases hfailure
    rw [ofEdges_eq_error hrepeats] at hfailure
    cases hfailure
    exact ⟨_, _, rfl, reports_repeated edges⟩

/-- three edges of one port-clock and two of another one; the second edge of the former comes first -/
def repeatedEdges : List Edge :=
  [("q0:mw", "q0.01", "cluster0.module1.complex_output_0"), ("q1:fl", "cl0.baseband", "cluster0.module2.real_output_0"),
    ("q1:fl", "cl0.baseband", "cluster0.module2.real_output_1"), ("q0:mw", "q0.01", "cluster0.module1.complex_output_1"),
    ("q1:fl", "cl0.baseband", "cluster0.module2.real_output_0")].map
    fun p => ⟨⟨p.1, p.2.1⟩, ⟨p.2.2⟩, none, none, "connectivity"⟩

/-- both are reported, each once, with all channels -/
theorem ofEdges_outcome_repeated :
    ∃ pcs violations, ofEdges repeatedEdges = .error (.duplicates violations) ∧ Reports repeatedEdges pcs violations ∧
      violations =
        [.portClock ⟨"q1:fl", "cl0.baseband"⟩ [⟨"cluster0.module2.real_output_0"⟩, ⟨"cluster0.module2.real_output_1"⟩,
            ⟨"cluster0.module2.real_output_0"⟩],
          .portClock ⟨"q0:mw", "q0.01"⟩ [⟨"cluster0.module1.complex_output_0"⟩,
            ⟨"cluster0.module1.complex_output_1"⟩]] := by
  have hfailure := @ofEdges_eq_error repeatedEdges (by decide)
  obtain ⟨pcs, violations, heq, hreports⟩ := (ofEdges_outcome repeatedEdges).2.2 _ hfailure
  cases heq
  exact ⟨pcs, _, hfailure, hreports, by decide⟩

end RackMap.Wiring
