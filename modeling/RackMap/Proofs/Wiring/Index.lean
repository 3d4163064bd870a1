/-
The index of a list of edges: what one pass over the edges leaves behind.

`Covers` says what an index knows of the edges gone through so far. `Covers.add` is one more edge, first or repeated, and
`covers_ofEdges` all of them.
- `repeated_eq_nil_iff`: nothing is repeated iff the port-clocks are pairwise different, which makes `Wiring.ofDistinct`;
- `edge?_eq`, `portClocksOn_eq`, `channels_eq`: the index of a wiring tells what a search through its edges would.
-/
import Mathlib.Tactic
import RackMap.Proofs.Table
import RackMap.Proofs.Wiring.Firsts
import RackMap.Wiring

namespace RackMap

namespace Wiring

/-- the item at this place is there for the second time -/
def IsSecond {α : Type} [DecidableEq α] (items : List α) (place : Nat) (a : α) : Prop :=
  items[place]? = some a ∧ (items.take place).count a = 1

section Second

variable {α : Type} [DecidableEq α] {a : α} {items : List α} {place : Nat}

theorem IsSecond.lt_length (h : IsSecond items place a) : place < items.length := by
  obtain ⟨hplace, -⟩ := List.getElem?_eq_some_iff.1 h.1
  exact hplace

theorem IsSecond.append (h : IsSecond items place a) (later : List α) : IsSecond (items ++ later) place a := by
  refine ⟨?_, ?_⟩
  · rw [List.getElem?_append_left h.lt_length, h.1]
  · rw [List.take_append_of_le_length h.lt_length.le, h.2]

/-- an item that was there once, and comes next, is there for the second time -/
theorem isSecond_concat (h : items.count a = 1) : IsSecond (items ++ [a]) items.length a := by
  refine ⟨List.getElem?_concat_length, ?_⟩
  rw [List.take_left, h]

theorem exists_isSecond (h : 2 ≤ items.count a) : ∃ place, IsSecond items place a := by
  induction items using List.reverseRecOn with
  | nil => cases h
  | append_singleton items b ih =>
    by_cases hbefore : 2 ≤ items.count a
    · obtain ⟨place, hplace⟩ := ih hbefore
      exact ⟨place, hplace.append [b]⟩
    · rw [List.count_append, List.count_singleton] at h
      by_cases hb : b = a
      · subst hb
        rw [beq_self_eq_true, if_pos rfl] at h
        exact ⟨items.length, isSecond_concat (by omega)⟩
      · rw [if_neg (by simpa using hb)] at h
        exact absurd h hbefore

end Second

end Wiring

namespace EdgeIndex

open Wiring (IsSecond firsts)

/-- what is known of the edges gone through: where port-clocks come up first, which of them come up again, and, as long as
none does, where the channels are -/
structure Covers (index : EdgeIndex) (edges : List Edge) : Prop where
  first : ∀ pc, index.byPortClock.lookup? pc = edges.findIdx? fun e => e.portClock = pc
  again : ∀ pc, pc ∈ index.repeated.keys ↔ 2 ≤ (edges.map Edge.portClock).count pc
  once : index.repeated.keys.Nodup
  order : index.repeated.keys.Pairwise fun pc pc' =>
    ∃ i j, IsSecond (edges.map Edge.portClock) i pc ∧ IsSecond (edges.map Edge.portClock) j pc' ∧ i < j
  listed : ∀ pc paths, index.repeated.lookup? pc = some paths →
    paths = (edges.filter fun e => e.portClock = pc).map Edge.channel
  paths : (edges.map Edge.portClock).Nodup → index.byChannel.keys = firsts (edges.map Edge.channel)
  places : (edges.map Edge.portClock).Nodup → ∀ path,
    (index.byChannel.lookup? path).getD [] = (edges.zipIdx.filter fun p => p.1.channel = path).map Prod.snd

variable {index : EdgeIndex} {edges before rest : List Edge} {e : Edge} {first : Nat} {pc : PortClock}

/-! ## One more edge -/

theorem count_portClock (before : List Edge) (pc : PortClock) :
    (before.map Edge.portClock).count pc = (before.filter fun e => e.portClock = pc).length := by
  rw [List.count, List.countP_map, List.countP_eq_length_filter]
  rfl

namespace Covers

theorem lookup?_eq_none_iff (h : index.Covers before) :
    index.byPortClock.lookup? pc = none ↔ (before.map Edge.portClock).count pc = 0 := by
  rw [h.first, List.findIdx?_eq_none_iff, List.count_eq_zero, List.mem_map]
  simp

/-- the channels that a port-clock was found on, whether it came up once or is among those that came up again -/
theorem known (h : index.Covers before) (hfirst : index.byPortClock.lookup? pc = some first) :
    (index.repeated.lookup? pc).getD (((before ++ rest)[first]?).map Edge.channel).toList =
      (before.filter fun e => e.portClock = pc).map Edge.channel := by
  cases hlisted : index.repeated.lookup? pc with
  | some paths => exact h.listed pc paths hlisted
  | none =>
    have hfew : ¬2 ≤ (before.map Edge.portClock).count pc :=
      mt (h.again pc).2 (Table.lookup?_eq_none_iff.1 hlisted)
    rw [h.first, List.findIdx?_eq_some_iff_getElem] at hfirst
    obtain ⟨hlt, hpc, -⟩ := hfirst
    have hin : before[first] ∈ before.filter fun e => e.portClock = pc :=
      List.mem_filter.2 ⟨List.getElem_mem hlt, hpc⟩
    -- there is one such edge, so it is the one that the index points to
    have hone : (before.filter fun e => e.portClock = pc).length = 1 := by
      have := List.length_pos_of_mem hin
      rw [count_portClock] at hfew
      omega
    obtain ⟨only, honly⟩ := List.length_eq_one_iff.1 hone
    rw [honly, List.mem_singleton] at hin
    rw [Option.getD_none, List.getElem?_append_left hlt, List.getElem?_eq_getElem hlt, hin, honly]
    rfl

/-- more edges leave second occurrences where they are -/
theorem order_append (h : index.Covers before) (later : List Edge) : index.repeated.keys.Pairwise fun pc pc' =>
    ∃ i j, IsSecond ((before ++ later).map Edge.portClock) i pc ∧
      IsSecond ((before ++ later).map Edge.portClock) j pc' ∧ i < j := by
  refine h.order.imp ?_
  rintro pc pc' ⟨i, j, hi, hj, hlt⟩
  rw [List.map_append]
  exact ⟨i, j, hi.append _, hj.append _, hlt⟩

/-- the first edge of a port-clock -/
theorem add_first (h : index.Covers before) (hnew : index.byPortClock.lookup? e.portClock = none) :
    (index.add edges (e, before.length)).Covers (before ++ [e]) := by
  have hcount := h.lookup?_eq_none_iff.1 hnew
  have hunfound : before.findIdx? (fun e' => e'.portClock = e.portClock) = none := (h.first _).symm.trans hnew
  have hfew : e.portClock ∉ index.repeated.keys := by
    rw [h.again, hcount]
    omega
  rw [EdgeIndex.add, hnew]
  constructor
  case first =>
    intro pc
    rw [Table.lookup?_put, List.findIdx?_append, List.findIdx?_singleton, h.first]
    by_cases hpc : pc = e.portClock
    · subst hpc
      simp [hunfound]
    · simp [hpc, Ne.symm hpc]
  case again =>
    intro pc
    rw [h.again, List.map_append, List.map_singleton, List.count_append, List.count_singleton]
    by_cases hpc : e.portClock = pc
    · subst hpc
      simp [hcount]
    · simp [hpc]
  case once => exact h.once
  case order => exact h.order_append [e]
  case listed =>
    intro pc paths hpaths
    have hpc : e.portClock ≠ pc := by
      rintro rfl
      exact hfew (Table.mem_keys_of_lookup? hpaths)
    rw [List.filter_append, List.filter_singleton, h.listed pc paths hpaths]
    simp [hpc]
  case paths =>
    intro hnodup
    rw [List.map_append] at hnodup
    rw [Table.keys_put, h.paths hnodup.of_append_left, List.map_append, List.map_singleton, Wiring.firsts_concat]
    simp
  case places =>
    intro hnodup path
    rw [List.map_append] at hnodup
    have hplaces := h.places hnodup.of_append_left
    rw [Table.lookup?_put, hplaces, List.zipIdx_append, List.filter_append]
    by_cases hpath : path = e.channel
    · subst hpath
      simp
    · simp [hpath, Ne.symm hpath, hplaces]

/-- another edge of a port-clock that was there before -/
theorem add_again (h : index.Covers before) (hfirst : index.byPortClock.lookup? e.portClock = some first)
    (hedges : edges = before ++ e :: rest) : (index.add edges (e, before.length)).Covers (before ++ [e]) := by
  have hcount : (before.map Edge.portClock).count e.portClock ≠ 0 := by
    intro hnone
    rw [h.lookup?_eq_none_iff.2 hnone] at hfirst
    cases hfirst
  have hrepeats : ¬((before ++ [e]).map Edge.portClock).Nodup := by
    intro hnodup
    rw [List.map_append, List.nodup_append] at hnodup
    exact hcount (List.count_eq_zero.2 fun hin => hnodup.2.2 _ hin _ List.mem_cons_self rfl)
  simp only [EdgeIndex.add, hfirst, hedges, h.known hfirst]
  constructor
  case first =>
    intro pc
    rw [List.findIdx?_append, List.findIdx?_singleton, h.first]
    by_cases hpc : e.portClock = pc
    · subst hpc
      rw [← h.first, hfirst]
      rfl
    · simp [hpc]
  case again =>
    intro pc
    rw [Table.mem_keys_put, h.again, List.map_append, List.map_singleton, List.count_append, List.count_singleton]
    by_cases hpc : e.portClock = pc
    · subst hpc
      rw [if_pos (beq_self_eq_true _)]
      exact iff_of_true (Or.inr rfl) (by omega)
    · simp [hpc, Ne.symm hpc]
  case once => exact Table.nodup_keys_put h.once _ _
  case order =>
    rw [Table.keys_put]
    split
    · exact h.order_append [e]
    · rename_i hnew
      rw [h.again] at hnew
      have hone : (before.map Edge.portClock).count e.portClock = 1 := by omega
      refine List.pairwise_append.2 ⟨h.order_append [e], List.pairwise_singleton _ _, fun pc hpc pc' hpc' => ?_⟩
      obtain rfl := List.mem_singleton.1 hpc'
      obtain ⟨i, hi⟩ := Wiring.exists_isSecond ((h.again pc).1 hpc)
      rw [List.map_append]
      exact ⟨i, _, hi.append _, Wiring.isSecond_concat hone, hi.lt_length⟩
  case listed =>
    intro pc paths hpaths
    rw [Table.lookup?_put] at hpaths
    rw [List.filter_append, List.map_append]
    by_cases hpc : pc = e.portClock
    · subst hpc
      rw [if_pos rfl, Option.some.injEq] at hpaths
      simp [← hpaths]
    · rw [if_neg hpc] at hpaths
      simp [h.listed pc paths hpaths, Ne.symm hpc]
  case paths => exact fun hnodup => absurd hnodup hrepeats
  case places => exact fun hnodup => absurd hnodup hrepeats

/-- **One more edge.** -/
theorem add (h : index.Covers before) (hedges : edges = before ++ e :: rest) :
    (index.add edges (e, before.length)).Covers (before ++ [e]) := by
  cases hlookup : index.byPortClock.lookup? e.portClock with
  | none => exact h.add_first hlookup
  | some first => exact h.add_again hlookup hedges

end Covers

theorem covers_nil : (⟨[], [], []⟩ : EdgeIndex).Covers [] where
  first _ := rfl
  again pc := by simp [Table.keys]
  once := List.nodup_nil
  order := List.Pairwise.nil
  listed pc paths h := by cases h
  paths _ := rfl
  places _ _ := rfl

theorem covers_foldl (h : index.Covers before) (hedges : edges = before ++ rest) :
    ((rest.zipIdx before.length).foldl (add edges) index).Covers edges := by
  induction rest generalizing before index with
  | nil =>
    rw [List.append_nil] at hedges
    exact hedges ▸ h
  | cons e rest ih =>
    have hrest := ih (h.add hedges) (hedges.trans (List.append_cons _ _ _))
    rw [List.length_append, List.length_singleton] at hrest
    rwa [List.zipIdx_cons, List.foldl_cons]

/-- **All edges.** -/
theorem covers_ofEdges (edges : List Edge) : (ofEdges edges).Covers edges :=
  covers_foldl covers_nil rfl

/-- nothing is repeated iff the port-clocks are pairwise different -/
theorem repeated_eq_nil_iff : (ofEdges edges).repeated = [] ↔ (edges.map Edge.portClock).Nodup := by
  rw [List.nodup_iff_count_le_one, ← List.map_eq_nil_iff, List.eq_nil_iff_forall_not_mem]
  refine forall_congr' fun pc => ?_
  have hagain := (covers_ofEdges edges).again pc
  rw [Table.keys] at hagain
  rw [hagain]
  omega

end EdgeIndex

/-! ## Wirings -/

namespace Wiring

variable {edges : List Edge} {w w' : Wiring}

/-- no two edges of a wiring have the same port-clock -/
theorem distinct (w : Wiring) : (w.edges.map Edge.portClock).Nodup :=
  EdgeIndex.repeated_eq_nil_iff.1 (w.indexed ▸ w.unrepeated)

/-- the wiring with edges that are known to have different port-clocks -/
def ofDistinct (edges : List Edge) (h : (edges.map Edge.portClock).Nodup) : Wiring :=
  ⟨edges, .ofEdges edges, rfl, EdgeIndex.repeated_eq_nil_iff.2 h⟩

@[simp] theorem edges_ofDistinct (h : (edges.map Edge.portClock).Nodup) : (ofDistinct edges h).edges = edges := rfl

/-- a wiring is told by its edges -/
theorem eq_of_edges_eq (h : w.edges = w'.edges) : w = w' := by
  obtain ⟨edges, index, rfl, hrepeated⟩ := w
  obtain ⟨edges', index', rfl, hrepeated'⟩ := w'
  cases h
  rfl

theorem ofEdges_eq_ok_iff : ofEdges edges = .ok w ↔ w.edges = edges := by
  rw [ofEdges]
  constructor
  · intro h
    split at h
    · cases h; rfl
    · cases h
  · rintro rfl
    rw [dif_pos (w.indexed ▸ w.unrepeated)]
    exact congrArg _ (eq_of_edges_eq rfl)

theorem covers (w : Wiring) : w.index.Covers w.edges := w.indexed ▸ EdgeIndex.covers_ofEdges w.edges

/-- the edge of a port-clock is the first one that a search finds -/
theorem edge?_eq (w : Wiring) (pc : PortClock) : w.edge? pc = w.edges.find? fun e => e.portClock = pc := by
  rw [edge?, w.covers.first, List.find?_eq_bind_findIdx?_getElem?]

/-- items that are looked up again at their places -/
theorem filterMap_places {α β : Type} (items : List α) (wanted : α → Bool) (f : α → β) :
    (((items.zipIdx.filter fun p => wanted p.1).map Prod.snd).filterMap fun i => items[i]?.map f) =
      (items.filter wanted).map f := by
  have hfound : ((items.zipIdx.filter fun p => wanted p.1).filterMap fun p => items[p.2]?.map f) =
      (items.zipIdx.filter fun p => wanted p.1).map fun p => f p.1 := by
    refine List.filterMap_eq_map_iff_forall_eq_some.2 fun p hp => ?_
    rw [List.mem_zipIdx_iff_getElem?.1 (List.mem_filter.1 hp).1, Option.map_some]
  have hitems : items.filter wanted = (items.zipIdx.filter fun p => wanted p.1).map Prod.fst := by
    conv_lhs => rw [← List.zipIdx_map_fst 0 items, List.filter_map]
    rfl
  rw [List.filterMap_map, hitems, List.map_map]
  exact hfound

theorem portClocksOn_eq (w : Wiring) (path : ChannelPath) :
    w.portClocksOn path = (w.edges.filter fun e => e.channel = path).map Edge.portClock := by
  rw [portClocksOn, w.covers.places w.distinct]
  exact filterMap_places w.edges (fun e => e.channel = path) Edge.portClock

theorem channels_eq (w : Wiring) : w.channels = firsts (w.edges.map Edge.channel) := w.covers.paths w.distinct

theorem nodup_channels (w : Wiring) : w.channels.Nodup := w.channels_eq ▸ nodup_firsts _

/-- channels stand in the order of their first edges -/
theorem pairwise_channels (w : Wiring) : w.channels.Pairwise fun path path' =>
    (w.edges.map Edge.channel).idxOf path < (w.edges.map Edge.channel).idxOf path' := by
  rw [channels_eq]
  exact pairwise_idxOf_firsts _

end Wiring

end RackMap
