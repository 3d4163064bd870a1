/-
When a path is reported to be listed twice.

`isReadable` says that a leaf can be read. `twiceAt_mem_draft_iff`: a draft reports a path iff two leaves that can be
read have it, however the document spells them.
-/
import Mathlib.Tactic
import RackMap.Proofs.Wiring.Document

namespace RackMap.Wiring

/-- whether a leaf is an object that can be read -/
def Leaf.isReadable (leaf : Leaf) : Bool :=
  match leaf.value with
  | .obj members => (ChannelWiring.ofJson (.obj members)).toOption.isSome
  | _ => false

/-- what is said of a path that was read before -/
def twiceAt (path : ChannelPath) : Issue := ⟨s!"connectivity.{path.text}", .channelTwice⟩

/-- how many of the leaves can be read and have this path -/
def readings (path : ChannelPath) (leaves : List Leaf) : Nat :=
  leaves.countP fun leaf => leaf.isReadable && decide (leaf.path = path)

theorem readings_cons (path : ChannelPath) (leaf : Leaf) (leaves : List Leaf) :
    readings path (leaf :: leaves) =
      readings path leaves + if leaf.isReadable = true ∧ leaf.path = path then 1 else 0 := by
  simp only [readings, List.countP_cons, Bool.and_eq_true, decide_eq_true_eq]

theorem twiceAt_inj {path path' : ChannelPath} (h : twiceAt path = twiceAt path') : path = path' := by
  simp only [twiceAt, Issue.mk.injEq, and_true, toString, String.append_right_inj] at h
  exact congrArg ChannelPath.mk h

namespace Draft

variable {d : Draft} {leaf : Leaf} {path : ChannelPath}

theorem twiceAt_mem_addWiring {place : ChannelPath} {location : String} {wiring : ChannelWiring} :
    twiceAt path ∈ (d.addWiring place location wiring).report ↔ twiceAt path ∈ d.report := by
  rw [addWiring, List.mem_append, or_iff_left]
  intro hnew
  obtain ⟨entry, hentry, hissue⟩ := List.mem_filterMap.1 hnew
  obtain ⟨listed, -, rfl⟩ := List.mem_map.1 hentry
  cases hpc : portClockOf listed with
  | ok pc => rw [hpc] at hissue; cases hissue
  | error cause =>
    -- an entry that cannot be read is said to have a bad port or no clock
    rw [hpc] at hissue
    cases hissue
    unfold portClockOf at hpc
    split at hpc
    · split at hpc <;> cases hpc
    · cases hpc

/-- one leaf: it is reported iff it can be read and its path was read before -/
theorem addLeaf_cases (d : Draft) (leaf : Leaf) (path : ChannelPath) :
    (twiceAt path ∈ (d.addLeaf leaf).report ↔
      twiceAt path ∈ d.report ∨ leaf.isReadable = true ∧ leaf.path = path ∧ path ∈ d.seen) ∧
    (path ∈ (d.addLeaf leaf).seen ↔ path ∈ d.seen ∨ leaf.isReadable = true ∧ leaf.path = path) := by
  obtain ⟨place, value⟩ := leaf
  cases value with
  | obj members =>
    cases hw : ChannelWiring.ofJson (.obj members) with
    | error fault => simp [addLeaf, hw, Leaf.isReadable, Except.toOption, twiceAt]
    | ok wiring =>
      have hreadable : Leaf.isReadable ⟨place, .obj members⟩ = true := by simp [Leaf.isReadable, hw, Except.toOption]
      by_cases hseen : place ∈ d.seen
      · simp only [addLeaf, hw, hseen, if_true, hreadable, List.mem_append, List.mem_singleton, true_and]
        constructor
        · refine or_congr_right ⟨fun heq => ?_, ?_⟩
          · obtain rfl : path = place := twiceAt_inj heq
            exact ⟨rfl, hseen⟩
          · rintro ⟨rfl, -⟩
            rfl
        · refine (or_iff_left_of_imp ?_).symm
          rintro rfl
          exact hseen
      · simp only [addLeaf, hw, hseen, if_false, hreadable, true_and]
        constructor
        · rw [twiceAt_mem_addWiring, or_iff_left]
          rintro ⟨rfl, hin⟩
          exact hseen hin
        · rw [addWiring, List.mem_cons, or_comm, eq_comm]
  | _ => simp [addLeaf, Leaf.isReadable, twiceAt]

theorem twiceAt_mem_foldl {leaves : List Leaf} :
    twiceAt path ∈ (leaves.foldl addLeaf d).report ↔
      twiceAt path ∈ d.report ∨ 2 ≤ readings path leaves ∨ path ∈ d.seen ∧ 1 ≤ readings path leaves := by
  induction leaves generalizing d with
  | nil => simp [readings]
  | cons leaf leaves ih =>
    obtain ⟨hreport, hseen⟩ := addLeaf_cases d leaf path
    rw [List.foldl_cons, ih, hreport, hseen, readings_cons]
    by_cases hleaf : leaf.isReadable = true ∧ leaf.path = path
    · have hone : (2 ≤ readings path leaves ∨ 1 ≤ readings path leaves) ↔ 2 ≤ readings path leaves + 1 := by omega
      by_cases hin : path ∈ d.seen
      · simp [hleaf, hin]
      · simp [hleaf, hin, hone]
    · have hnone : ¬(leaf.isReadable = true ∧ leaf.path = path ∧ path ∈ d.seen) := fun h => hleaf ⟨h.1, h.2.1⟩
      simp only [hnone, hleaf, or_false, if_false, Nat.add_zero]

end Draft

/-- **A path listed twice.** It is reported iff at least two leaves that can be read have it. -/
theorem twiceAt_mem_draft_iff {root : Table String Json} {path : ChannelPath} :
    twiceAt path ∈ (draft (.paths root)).report ↔ 2 ≤ readings path (leavesOfRoot root) := by
  rw [draft_paths, Draft.twiceAt_mem_foldl]
  simp

end RackMap.Wiring
