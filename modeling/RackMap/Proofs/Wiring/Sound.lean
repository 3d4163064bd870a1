/-
When a nested connectivity is read, and what the order of its leaves decides.

A leaf is sound if it can be read on its own; what other leaves hold matters for its path only.
- `draft_clean_iff`: a document is without problems iff its leaves are sound and have different paths;
- `build_paths_eq_ok_iff`: it is read iff moreover no port-clock is connected twice;
- `filter_leafEdges`: to pick channels is to pick leaves, so the port-clocks on a channel are those of one leaf, wherever
  it stands (`portClocksOn_eq_of_perm`).
-/
import Mathlib.Tactic
import RackMap.Proofs.Wiring.Leaves

namespace RackMap.Wiring

/-- an object that can be read, with nothing but port-clocks in its list -/
def Leaf.Sound (leaf : Leaf) : Prop :=
  ∃ members wiring, leaf.value = .obj members ∧ ChannelWiring.ofJson (.obj members) = .ok wiring ∧
    ∀ entry ∈ wiring.portClocks, ∃ pc, portClockOf entry = .ok pc

/-- leaves that are read without a problem -/
structure SoundLeaves (leaves : List Leaf) : Prop where
  each : ∀ leaf ∈ leaves, leaf.Sound
  paths : (leaves.map Leaf.path).Nodup

variable {root root' : Table String Json} {leaves leaves' : List Leaf} {leaf : Leaf} {w w' : Wiring}

/-! ## Problems -/

namespace Draft

variable {d : Draft}

theorem addWiring_clean_iff {path : ChannelPath} {location : String} {wiring : ChannelWiring} :
    (d.addWiring path location wiring).report = [] ↔
      d.report = [] ∧ ∀ entry ∈ wiring.portClocks, ∃ pc, portClockOf entry = .ok pc := by
  rw [addWiring, List.append_eq_nil_iff, List.filterMap_eq_nil_iff, List.forall_mem_map]
  refine and_congr_right fun _ => forall₂_congr fun entry _ => ?_
  cases portClockOf entry <;> simp

theorem addLeaf_clean_iff : (d.addLeaf leaf).report = [] ↔ d.report = [] ∧ leaf.Sound ∧ leaf.path ∉ d.seen := by
  obtain ⟨path, value⟩ := leaf
  cases value with
  | obj members =>
    cases hw : ChannelWiring.ofJson (.obj members) with
    | error fault => simp [addLeaf, hw, Leaf.Sound]
    | ok wiring =>
      have hsound : Leaf.Sound ⟨path, .obj members⟩ ↔
          ∀ entry ∈ wiring.portClocks, ∃ pc, portClockOf entry = .ok pc := by
        simp [Leaf.Sound, hw]
      by_cases hseen : path ∈ d.seen
      · simp [addLeaf, hw, hseen]
      · simp only [addLeaf, hw, hseen, if_false, addWiring_clean_iff, hsound, not_false_eq_true, and_true]
  | _ => simp [addLeaf, Leaf.Sound]

theorem foldl_addLeaf_clean_iff :
    (leaves.foldl addLeaf d).report = [] ↔
      d.report = [] ∧ SoundLeaves leaves ∧ ∀ leaf ∈ leaves, leaf.path ∉ d.seen := by
  constructor
  · intro h
    obtain ⟨hreport, hnodup, hseen, -⟩ := foldl_addLeaf_clean h
    refine ⟨hreport, ⟨?_, hnodup⟩, hseen⟩
    clear hreport hnodup hseen
    induction leaves generalizing d with
    | nil => simp
    | cons leaf leaves ih =>
      rw [List.foldl_cons] at h
      have hfirst := addLeaf_clean_iff.1 (foldl_addLeaf_clean h).1
      exact List.forall_mem_cons.2 ⟨hfirst.2.1, ih h⟩
  · rintro ⟨hreport, ⟨hsound, hnodup⟩, hseen⟩
    induction leaves generalizing d with
    | nil => exact hreport
    | cons leaf leaves ih =>
      rw [List.forall_mem_cons] at hsound hseen
      obtain ⟨hnew, hrest⟩ := List.nodup_cons.1 hnodup
      have hclean : (d.addLeaf leaf).report = [] := addLeaf_clean_iff.2 ⟨hreport, hsound.1, hseen.1⟩
      rw [List.foldl_cons]
      refine ih hclean (fun other hother => ?_) hsound.2 hrest
      rw [(addLeaf_clean hclean).2.2.1, List.mem_cons, not_or]
      exact ⟨fun heq => hnew (heq ▸ List.mem_map_of_mem hother), hseen.2 other hother⟩

end Draft

theorem draft_clean_iff : (draft (.paths root)).report = [] ↔ SoundLeaves (leavesOfRoot root) := by
  rw [draft_paths, Draft.foldl_addLeaf_clean_iff]
  simp

/-! ## Outcomes -/

/-- **Reading a nested connectivity.** -/
theorem build_paths_eq_ok_iff :
    build (.paths root) = .ok w ↔
      SoundLeaves (leavesOfRoot root) ∧ w.edges = (leavesOfRoot root).flatMap leafEdges := by
  constructor
  · intro h
    exact ⟨draft_clean_iff.1 (build_eq_ok_iff.1 h).1, build_edges h⟩
  · rintro ⟨hsound, hedges⟩
    have hclean := draft_clean_iff.2 hsound
    exact build_eq_ok_iff.2 ⟨hclean, hedges.trans (edges_draft hclean).symm⟩

/-- schema problems are those of the leaves -/
theorem build_paths_schema_iff :
    (∃ report, build (.paths root) = .error (.schema report)) ↔ ¬SoundLeaves (leavesOfRoot root) := by
  rw [← draft_clean_iff, build, ofEdges]
  simp only [List.isEmpty_iff]
  split
  · rename_i hclean
    refine iff_of_false ?_ (not_not.2 hclean)
    rintro ⟨report, h⟩
    split at h <;> cases h
  · rename_i hclean
    exact iff_of_true ⟨_, rfl⟩ hclean

/-! ## Edges -/

theorem channel_of_mem_leafEdges {e : Edge} (h : e ∈ leafEdges leaf) : e.channel = leaf.path := by
  obtain ⟨-, -, hchannel, -⟩ := mem_leafEdges h
  exact hchannel

/-- the edges on some of the channels are those of the leaves at their paths -/
theorem filter_leafEdges (wanted : ChannelPath → Bool) (leaves : List Leaf) :
    (leaves.flatMap leafEdges).filter (fun e => wanted e.channel) =
      (leaves.filter fun leaf => wanted leaf.path).flatMap leafEdges := by
  induction leaves with
  | nil => rfl
  | cons leaf leaves ih =>
    rw [List.flatMap_cons, List.filter_append, ih, List.filter_cons]
    split
    · rename_i hwanted
      have hall : (leafEdges leaf).filter (fun e => wanted e.channel) = leafEdges leaf := by
        refine List.filter_eq_self.2 fun e he => ?_
        rw [channel_of_mem_leafEdges he, hwanted]
      rw [hall, List.flatMap_cons]
    · rename_i hwanted
      have hnone : (leafEdges leaf).filter (fun e => wanted e.channel) = [] := by
        refine List.filter_eq_nil_iff.2 fun e he => ?_
        rw [channel_of_mem_leafEdges he]
        exact hwanted
      rw [hnone, List.nil_append]

/-- the one leaf with a path is found wherever it stands -/
theorem filter_path_eq_of_perm (hperm : leaves.Perm leaves') (hpaths : (leaves.map Leaf.path).Nodup)
    (path : ChannelPath) : leaves.filter (·.path = path) = leaves'.filter (·.path = path) := by
  have hpicked := hperm.filter (·.path = path)
  have hone : ∀ a ∈ leaves.filter (·.path = path), ∀ b ∈ leaves.filter (·.path = path), a = b := by
    intro a ha b hb
    obtain ⟨ha, hpa⟩ := List.mem_filter.1 ha
    obtain ⟨hb, hpb⟩ := List.mem_filter.1 hb
    exact List.inj_on_of_nodup_map hpaths ha hb ((of_decide_eq_true hpa).trans (of_decide_eq_true hpb).symm)
  have hnodup : (leaves.filter (·.path = path)).Nodup := hpaths.of_map.filter _
  cases hcase : leaves.filter (·.path = path) with
  | nil => rw [hcase] at hpicked; exact hpicked.nil_eq
  | cons a rest =>
    rw [hcase] at hpicked hone hnodup
    cases rest with
    | nil => exact (List.perm_singleton.1 hpicked.symm).symm
    | cons b rest =>
      have hne : a ≠ b := by
        rintro rfl
        exact (List.nodup_cons.1 hnodup).1 List.mem_cons_self
      exact absurd (hone a (by simp) b (by simp)) hne

/-- **Port-clocks of a channel.** They are listed in one leaf, so the order of the leaves does not show. -/
theorem portClocksOn_eq_of_perm (hperm : leaves.Perm leaves') (hsound : SoundLeaves leaves)
    (hw : w.edges = leaves.flatMap leafEdges) (hw' : w'.edges = leaves'.flatMap leafEdges) (path : ChannelPath) :
    w.portClocksOn path = w'.portClocksOn path := by
  have hleaves := filter_path_eq_of_perm hperm hsound.paths path
  have hedges := filter_leafEdges (fun other => decide (other = path)) leaves
  have hedges' := filter_leafEdges (fun other => decide (other = path)) leaves'
  rw [portClocksOn_eq, portClocksOn_eq, hw, hw', hedges, hedges', hleaves]

theorem leavesOfRoot_perm_of_perm (h : root.Perm root') : (leavesOfRoot root).Perm (leavesOfRoot root') :=
  h.flatMap_right _

/-- the order of the leaves does not matter for whether they are sound -/
theorem SoundLeaves.perm (h : SoundLeaves leaves) (hperm : leaves.Perm leaves') : SoundLeaves leaves' where
  each leaf hleaf := h.each leaf (hperm.mem_iff.2 hleaf)
  paths := (hperm.map Leaf.path).nodup_iff.1 h.paths

/-- leaves stay sound when some are left out -/
theorem SoundLeaves.filter (h : SoundLeaves leaves) (wanted : Leaf → Bool) : SoundLeaves (leaves.filter wanted) where
  each leaf hleaf := h.each leaf (List.mem_filter.1 hleaf).1
  paths := h.paths.sublist (List.filter_sublist.map Leaf.path)

end RackMap.Wiring
