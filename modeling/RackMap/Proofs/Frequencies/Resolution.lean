/-
The frequencies of a wiring in closed form.

`resolution` says what the frequencies are without the bookkeeping of groups, and `resolve_eq_of_finite` that resolving
a wiring gives it, or else fails for the first oscillator whose members disagree. What is looked up in it:
- `lo?_resolution`: a tuned port-clock is fed by the oscillator of its edge;
- `split_resolution`: it has the frequencies it asks for, and takes over that of its oscillator if it asks for none;
- `frequency?_resolution`: an oscillator has the first frequency that a member asks for.
-/
import Mathlib.Tactic
import RackMap.Proofs.Frequencies.Groups
import RackMap.Proofs.OptionTable
import RackMap.Proofs.Table

namespace RackMap

open RackMap.Decimal (Double)

/-! ## Agreement -/

/-- whether all frequencies that are asked for are the same number -/
def agreed (asked : List (PortClock × Double)) : Bool := asked.all fun a => asked.all fun b => a.2.same b.2

theorem agreed_iff {asked : List (PortClock × Double)} :
    agreed asked = true ↔ ∀ a ∈ asked, ∀ b ∈ asked, a.2.same b.2 = true := by
  simp [agreed]

/-- comparing with the first request is enough -/
theorem agreed_cons (r : PortClock × Double) (rest : List (PortClock × Double)) :
    agreed (r :: rest) = (r :: rest).all fun a => a.2.same r.2 := by
  rw [Bool.eq_iff_iff, agreed_iff, List.all_eq_true]
  constructor
  · intro h a ha
    exact h a ha r List.mem_cons_self
  · intro h a ha b hb
    have hb' : r.2.same b.2 = true := by rw [Double.same_comm]; exact h b hb
    exact Double.same_trans (h a ha) hb'

namespace LoGroup

variable (options : OptionTable) (g : LoGroup)

variable {options g} in
theorem mem_explicit {pc : PortClock} {f : Double} :
    (pc, f) ∈ g.explicit options ↔ pc ∈ g.members ∧ (options.modulation pc).lo? = some f := by
  simp only [explicit, List.mem_filterMap, Option.map_eq_some_iff, Prod.mk.injEq]
  constructor
  · rintro ⟨pc', hmem, f', hf, rfl, rfl⟩
    exact ⟨hmem, hf⟩
  · rintro ⟨hmem, hf⟩
    exact ⟨pc, hmem, f, hf, rfl, rfl⟩

/-- the group with the first frequency that a member asks for -/
def settled : LoGroup := { g with frequency? := (g.explicit options).head?.map Prod.snd }

/-- the failure of a group whose members disagree -/
def disagreement : Failure :=
  match g.lo? with
  | some lo => .conflict (.oscillator lo (g.explicit options))
  | none => .looseConflict

theorem settle_eq :
    g.settle options =
      if agreed (g.explicit options) then .ok (g.settled options) else .error (g.disagreement options) := by
  unfold settle settled disagreement
  simp only
  cases hr : g.explicit options with
  | nil => rfl
  | cons r rest =>
    rw [agreed_cons]
    cases g.lo? <;> rfl

end LoGroup

namespace Frequencies

/-! ## Members -/

/-- the port-clocks that an oscillator feeds, in the order of the edges -/
def members (inv : Inventory) (edges : List Edge) (lo : OscillatorRef) : List PortClock :=
  (edges.filter fun e => e.isTuned inv ∧ e.fedBy? inv = some lo).map Edge.portClock

/-- the members that ask for a frequency, with what they ask for -/
def requests (inv : Inventory) (options : OptionTable) (edges : List Edge) (lo : OscillatorRef) :
    List (PortClock × Double) :=
  (members inv edges lo).filterMap fun pc => (options.modulation pc).lo?.map fun f => (pc, f)

/-- the first frequency that a member asks for -/
def firstRequest? (inv : Inventory) (options : OptionTable) (edges : List Edge) (lo : OscillatorRef) : Option Double :=
  (requests inv options edges lo).head?.map Prod.snd

variable {inv : Inventory} {options : OptionTable} {edges : List Edge} {e : Edge} {pc : PortClock} {feed : Feed}
  {lo : OscillatorRef} {f : Double}

theorem mem_members :
    pc ∈ members inv edges lo ↔
      ∃ e ∈ edges, e.isTuned inv = true ∧ e.fedBy? inv = some lo ∧ e.portClock = pc := by
  simp only [members, List.mem_map, List.mem_filter, decide_eq_true_eq, and_assoc]

theorem members_eq (inv : Inventory) (edges : List Edge) (lo : OscillatorRef) :
    members inv edges lo = fedMembers inv edges (.oscillator lo) := by
  simp only [members, fedMembers, tuned, List.filter_filter, feed_eq_oscillator_iff, Bool.decide_and, Bool.and_comm,
    Bool.decide_eq_true]

theorem explicit_groupOf (feed : Feed) :
    (groupOf inv edges feed).explicit options =
      (fedMembers inv edges feed).filterMap fun pc => (options.modulation pc).lo?.map fun f => (pc, f) := rfl

theorem explicit_oscillator (lo : OscillatorRef) :
    (groupOf inv edges (.oscillator lo)).explicit options = requests inv options edges lo := by
  rw [explicit_groupOf, requests, members_eq]

theorem mem_requests :
    (pc, f) ∈ requests inv options edges lo ↔ pc ∈ members inv edges lo ∧ (options.modulation pc).lo? = some f := by
  rw [← explicit_oscillator, LoGroup.mem_explicit, members_eq]
  rfl

/-! ## Resolving -/

/-- the group of a feed, settled -/
def settledGroup (inv : Inventory) (options : OptionTable) (edges : List Edge) (feed : Feed) : LoGroup :=
  (groupOf inv edges feed).settled options

/-- the feeds whose members do not agree -/
def disagree (inv : Inventory) (options : OptionTable) (edges : List Edge) (feed : Feed) : Bool :=
  !agreed ((groupOf inv edges feed).explicit options)

/-- the frequencies of a wiring whose members agree -/
def resolution (inv : Inventory) (options : OptionTable) (edges : List Edge) : Resolution :=
  ofGroups options ((feeds inv edges).map (settledGroup inv options edges))

/-- **Resolving a wiring.** It fails for the first feed whose members disagree, and gives `resolution` if there is
none. -/
theorem resolve_eq {w : Wiring} (hdescribed : ∀ e ∈ w.edges, ∃ channel, inv.channel? e.channel = some channel) :
    resolve inv options w =
      match (feeds inv w.edges).find? (disagree inv options w.edges) with
      | some feed => .error ((groupOf inv w.edges feed).disagreement options)
      | none => .ok (resolution inv options w.edges) := by
  unfold resolve
  rw [groups_eq hdescribed, ok_bind, List.mapM_map]
  have hsettle : (fun feed => (groupOf inv w.edges feed).settle options) = fun feed =>
      if agreed ((groupOf inv w.edges feed).explicit options) then .ok (settledGroup inv options w.edges feed)
      else .error ((groupOf inv w.edges feed).disagreement options) := by
    funext feed
    exact LoGroup.settle_eq options _
  rw [Function.comp_def, hsettle, mapM_ite]
  unfold disagree
  cases (feeds inv w.edges).find? fun feed => !agreed ((groupOf inv w.edges feed).explicit options) <;> rfl

/-- a wiring whose channels are described is resolved iff the members of every feed agree -/
theorem resolve_eq_ok_iff_agreed {w : Wiring} {r : Resolution}
    (hdescribed : ∀ e ∈ w.edges, ∃ channel, inv.channel? e.channel = some channel) :
    resolve inv options w = .ok r ↔
      (∀ feed ∈ feeds inv w.edges, agreed ((groupOf inv w.edges feed).explicit options) = true) ∧
        r = resolution inv options w.edges := by
  have hagreed : (feeds inv w.edges).find? (disagree inv options w.edges) = none ↔
      ∀ feed ∈ feeds inv w.edges, agreed ((groupOf inv w.edges feed).explicit options) = true := by
    rw [List.find?_eq_none]
    exact forall₂_congr fun feed _ => by rw [disagree, Bool.not_eq_true, Bool.not_eq_false']
  rw [resolve_eq hdescribed, ← hagreed]
  cases (feeds inv w.edges).find? (disagree inv options w.edges) with
  | some feed => simp
  | none => simp [eq_comm]

/-- frequencies are resolved only where all channels are described -/
theorem described_of_resolve {w : Wiring} {r : Resolution} (h : resolve inv options w = .ok r) :
    ∀ e ∈ w.edges, ∃ channel, inv.channel? e.channel = some channel := by
  intro e he
  obtain ⟨groups, hgroups, -⟩ := bind_eq_ok_iff.1 h
  obtain ⟨before, after, hadd⟩ := exists_of_foldlM_eq_ok hgroups he
  unfold addEdge at hadd
  split at hadd
  · cases hadd
  · rename_i channel hchannel
    exact ⟨channel, hchannel⟩

/-- what is resolved, if anything is -/
theorem eq_resolution_of_resolve {w : Wiring} {r : Resolution} (h : resolve inv options w = .ok r) :
    r = resolution inv options w.edges :=
  ((resolve_eq_ok_iff_agreed (described_of_resolve h)).1 h).2

/-! ## Disagreement -/

/-- the oscillators that feed a tuned edge, each once, by first member -/
def oscillators (inv : Inventory) (edges : List Edge) : List OscillatorRef :=
  Wiring.firsts ((tuned inv edges).filterMap (Edge.fedBy? inv))

theorem mem_oscillators :
    lo ∈ oscillators inv edges ↔ ∃ e ∈ edges, e.isTuned inv = true ∧ e.fedBy? inv = some lo := by
  simp only [oscillators, Wiring.mem_firsts, List.mem_filterMap, mem_tuned, and_assoc]

/-- an oscillator that feeds nothing has no members -/
theorem requests_eq_nil (h : lo ∉ oscillators inv edges) : requests inv options edges lo = [] := by
  rw [List.eq_nil_iff_forall_not_mem]
  rintro ⟨pc, f⟩ hr
  obtain ⟨e, he, ht, hlo, -⟩ := mem_members.1 (mem_requests.1 hr).1
  exact h (mem_oscillators.2 ⟨e, he, ht, hlo⟩)

theorem oscillators_eq (inv : Inventory) (edges : List Edge) :
    oscillators inv edges = (feeds inv edges).filterMap Feed.lo? := by
  rw [feeds, oscillators, ← Wiring.firsts_filterMap, List.filterMap_map]
  · congr 1
    exact List.filterMap_congr fun e _ => (feed_lo? inv e).symm
  · intro f _ f' _ heq hsome
    cases f with
    | alone pc => exact absurd rfl hsome
    | oscillator lo =>
      cases f' with
      | alone pc => cases heq
      | oscillator lo' => cases heq; rfl

/-- a port-clock that nothing feeds is alone in its group -/
theorem request_of_alone {r : PortClock × Double} (h : r ∈ (groupOf inv edges (.alone pc)).explicit options) :
    (options.modulation pc).lo? = some r.2 := by
  obtain ⟨hmem, hf⟩ := LoGroup.mem_explicit.1 h
  obtain ⟨e, -, -, hfeed, hpc⟩ := mem_fedMembers.1 hmem
  rw [← portClock_of_feed_eq_alone hfeed, hpc]
  exact hf

theorem disagree_alone (hfinite : options.AsksFinite) :
    disagree inv options edges (.alone pc) = false := by
  rw [disagree, Bool.not_eq_false', agreed_iff]
  intro a ha b hb
  have hsame := (request_of_alone ha).symm.trans (request_of_alone hb)
  rw [Option.some.injEq] at hsame
  rw [← hsame]
  exact Double.same_self_of_isFinite (hfinite pc a.2 (request_of_alone ha))

/-- the first oscillator whose members disagree -/
def firstConflict? (inv : Inventory) (options : OptionTable) (edges : List Edge) : Option OscillatorRef :=
  (oscillators inv edges).find? fun lo => !agreed (requests inv options edges lo)

theorem firstConflict?_eq_none_iff :
    firstConflict? inv options edges = none ↔ ∀ lo, agreed (requests inv options edges lo) = true := by
  rw [firstConflict?, List.find?_eq_none]
  constructor
  · intro h lo
    by_cases hlo : lo ∈ oscillators inv edges
    · simpa using h lo hlo
    · rw [requests_eq_nil hlo]
      rfl
  · intro h lo _
    simp [h lo]

/-- **Frequencies and conflicts.** If the frequencies that are asked for are finite, resolving fails for the first
oscillator whose members do not agree, with all that they ask for. -/
theorem resolve_eq_of_finite {w : Wiring}
    (hdescribed : ∀ e ∈ w.edges, ∃ channel, inv.channel? e.channel = some channel)
    (hfinite : options.AsksFinite) :
    resolve inv options w =
      match firstConflict? inv options w.edges with
      | some lo => .error (.conflict (.oscillator lo (requests inv options w.edges lo)))
      | none => .ok (resolution inv options w.edges) := by
  have hfeed : ∀ feed, (feed.lo?.any fun lo => !agreed (requests inv options w.edges lo)) =
      disagree inv options w.edges feed := by
    intro feed
    cases feed with
    | alone pc => exact (disagree_alone hfinite).symm
    | oscillator lo => rw [disagree, explicit_oscillator]; rfl
  rw [resolve_eq hdescribed, firstConflict?, oscillators_eq, List.find?_filterMap]
  simp only [hfeed]
  cases hfind : (feeds inv w.edges).find? (disagree inv options w.edges) with
  | none => rfl
  | some feed =>
    cases feed with
    | alone pc =>
      have hdisagree := List.find?_some hfind
      rw [disagree_alone hfinite] at hdisagree
      cases hdisagree
    | oscillator lo =>
      simp only [Option.bind_some, Feed.lo?, ← explicit_oscillator lo]
      rfl

/-! ## Looking up -/

/-- a port-clock is in the group of its feed and in no other, if the edges have different port-clocks -/
theorem mem_fedMembers_iff (hnodup : (edges.map Edge.portClock).Nodup) (he : e ∈ edges) :
    e.portClock ∈ fedMembers inv edges feed ↔ e.isTuned inv = true ∧ e.feed inv = feed := by
  rw [mem_fedMembers]
  constructor
  · rintro ⟨e', he', ht, hfeed, hpc⟩
    obtain rfl := List.inj_on_of_nodup_map hnodup he' he hpc
    exact ⟨ht, hfeed⟩
  · rintro ⟨ht, hfeed⟩
    exact ⟨e, he, ht, hfeed, rfl⟩

/-- a search for one item only -/
theorem find?_of_iff_eq {α : Type} [DecidableEq α] {p : α → Bool} {a : α} (hp : ∀ b, p b = true ↔ b = a)
    (items : List α) : items.find? p = if a ∈ items then some a else none := by
  cases hfind : items.find? p with
  | none =>
    have hnot : a ∉ items := fun hin => List.find?_eq_none.1 hfind a hin ((hp a).2 rfl)
    rw [if_neg hnot]
  | some b =>
    obtain rfl := (hp b).1 (List.find?_some hfind)
    rw [if_pos (List.mem_of_find?_eq_some hfind)]

/-! ### Tables of frequencies -/

@[simp] theorem groups_ofGroups (options : OptionTable) (groups : List LoGroup) :
    (ofGroups options groups).groups = groups := rfl

theorem keys_splits (options : OptionTable) (groups : List LoGroup) :
    (ofGroups options groups).splits.keys = groups.flatMap LoGroup.members := by
  have hplaced : (ofGroups options groups).splits.keys = groups.zipIdx.flatMap fun p => p.1.members := by
    simp only [ofGroups, Table.keys, List.map_flatMap, List.map_map]
    exact List.flatMap_congr fun p _ => List.map_id _
  have hgroups : (groups.zipIdx.map Prod.fst).flatMap LoGroup.members = groups.zipIdx.flatMap fun p => p.1.members :=
    List.flatMap_map ..
  rw [hplaced, ← hgroups, List.zipIdx_map_fst]

/-- the entry of a member: the frequencies that its group gives it, and the place of the group -/
theorem lookup?_splits_iff {groups : List LoGroup} (hnodup : (groups.flatMap LoGroup.members).Nodup) {split : Split}
    {index : Nat} :
    (ofGroups options groups).splits.lookup? pc = some (split, index) ↔
      ∃ g, groups[index]? = some g ∧ pc ∈ g.members ∧ split = g.split options pc := by
  rw [← keys_splits options] at hnodup
  rw [Table.lookup?_eq_some_iff hnodup]
  simp only [ofGroups, List.mem_flatMap, List.mem_map, Prod.exists, List.mem_zipIdx_iff_getElem?, Prod.mk.injEq]
  constructor
  · rintro ⟨g, index', hg, pc', hpc, rfl, rfl, rfl⟩
    exact ⟨g, hg, hpc, rfl⟩
  · rintro ⟨g, hg, hpc, rfl⟩
    exact ⟨g, index, hg, pc, hpc, rfl, rfl, rfl⟩

theorem lookup?_splits_eq_none_iff {groups : List LoGroup} :
    (ofGroups options groups).splits.lookup? pc = none ↔ ∀ g ∈ groups, pc ∉ g.members := by
  rw [Table.lookup?_eq_none_iff, keys_splits, List.mem_flatMap]
  push Not
  rfl

/-- the port-clocks of all groups are pairwise different -/
theorem nodup_groups (hnodup : (edges.map Edge.portClock).Nodup) :
    ((feeds inv edges).flatMap (fedMembers inv edges)).Nodup := by
  rw [List.nodup_flatMap]
  constructor
  · intro f _
    exact hnodup.sublist (((List.filter_sublist).trans List.filter_sublist).map Edge.portClock)
  · refine (nodup_feeds inv edges).imp fun {f f'} hne => ?_
    intro pc hpc hpc'
    obtain ⟨e, he, -, hfeed, rfl⟩ := mem_fedMembers.1 hpc
    exact hne (hfeed.symm.trans ((mem_fedMembers_iff hnodup he).1 hpc').2)

theorem nodup_members_resolution (hnodup : (edges.map Edge.portClock).Nodup) :
    ((resolution inv options edges).groups.flatMap LoGroup.members).Nodup := by
  rw [resolution, ofGroups, List.flatMap_map]
  exact nodup_groups hnodup

/-- the entry of a tuned port-clock: it is placed at its feed -/
theorem lookup?_splits_tuned (options : OptionTable) (hnodup : (edges.map Edge.portClock).Nodup) (he : e ∈ edges)
    (ht : e.isTuned inv = true) :
    ∃ index, (resolution inv options edges).groups[index]? = some (settledGroup inv options edges (e.feed inv)) ∧
      (resolution inv options edges).splits.lookup? e.portClock =
        some ((settledGroup inv options edges (e.feed inv)).split options e.portClock, index) := by
  have hgroup : settledGroup inv options edges (e.feed inv) ∈ (resolution inv options edges).groups :=
    List.mem_map_of_mem (mem_feeds.2 ⟨e, he, ht, rfl⟩)
  obtain ⟨index, hindex⟩ := List.mem_iff_getElem?.1 hgroup
  refine ⟨index, hindex, (lookup?_splits_iff (nodup_members_resolution hnodup)).2 ⟨_, hindex, ?_, rfl⟩⟩
  exact (mem_fedMembers_iff hnodup he).2 ⟨ht, rfl⟩

theorem lookup?_splits_untuned (hnodup : (edges.map Edge.portClock).Nodup) (he : e ∈ edges)
    (ht : e.isTuned inv = false) : (resolution inv options edges).splits.lookup? e.portClock = none := by
  refine lookup?_splits_eq_none_iff.2 fun g hg hpc => ?_
  obtain ⟨feed, -, rfl⟩ := List.mem_map.1 hg
  rw [((mem_fedMembers_iff hnodup he).1 hpc).1] at ht
  cases ht

/-! ### What is found -/

theorem lo?_resolution (hnodup : (edges.map Edge.portClock).Nodup) (he : e ∈ edges) :
    (resolution inv options edges).lo? e.portClock = if e.isTuned inv then e.fedBy? inv else none := by
  unfold Resolution.lo? Resolution.groupIndex?
  cases ht : e.isTuned inv with
  | true =>
    obtain ⟨index, hindex, hlookup⟩ := lookup?_splits_tuned options hnodup he ht
    rw [hlookup, Option.map_some, Option.bind_some, hindex, Option.bind_some]
    exact feed_lo? inv e
  | false =>
    rw [lookup?_splits_untuned hnodup he ht]
    rfl

theorem frequency?_resolution (lo : OscillatorRef) :
    (resolution inv options edges).frequency? lo = firstRequest? inv options edges lo := by
  have hgroup : ∀ f, decide ((settledGroup inv options edges f).lo? = some lo) = true ↔ f = .oscillator lo := by
    intro f
    cases f <;> simp [settledGroup, LoGroup.settled, groupOf, Feed.lo?]
  simp only [Resolution.frequency?, resolution, ofGroups, List.find?_map, Function.comp_def]
  rw [find?_of_iff_eq hgroup]
  split
  · rw [Option.map_some, Option.bind_some, settledGroup, LoGroup.settled, explicit_oscillator]
    rfl
  · rename_i hin
    rw [firstRequest?, requests, members_eq, fedMembers_eq_nil hin]
    rfl

/-- the frequencies of a port-clock are those its group gives it -/
theorem split_group (hnodup : (edges.map Edge.portClock).Nodup) (he : e ∈ edges) :
    (resolution inv options edges).split e.portClock =
      if e.isTuned inv then (settledGroup inv options edges (e.feed inv)).split options e.portClock else .none := by
  unfold Resolution.split
  cases ht : e.isTuned inv with
  | true =>
    obtain ⟨index, -, hlookup⟩ := lookup?_splits_tuned options hnodup he ht
    rw [hlookup]
    rfl
  | false =>
    rw [lookup?_splits_untuned hnodup he ht]
    rfl

/-- the frequencies of a tuned port-clock: what it asks for, and else that of its oscillator -/
theorem split_resolution (hnodup : (edges.map Edge.portClock).Nodup) (he : e ∈ edges) (ht : e.isTuned inv = true) :
    (resolution inv options edges).split e.portClock =
      ⟨(options.modulation e.portClock).interm?,
        (options.modulation e.portClock).lo?.or ((e.fedBy? inv).bind (firstRequest? inv options edges))⟩ := by
  rw [split_group hnodup he, if_pos ht, LoGroup.split, settledGroup, LoGroup.settled]
  cases hown : (options.modulation e.portClock).lo? with
  | some f => rfl
  | none =>
    simp only [Option.none_or]
    congr 1
    cases hfed : e.fedBy? inv with
    | some lo =>
      rw [feed_eq_oscillator_iff.2 hfed, explicit_oscillator]
      rfl
    | none =>
      have hfeed : e.feed inv = .alone e.portClock := by simp only [Edge.feed, hfed]
      rw [hfeed, Option.bind_none, Option.map_eq_none_iff]
      cases hhead : ((groupOf inv edges (.alone e.portClock)).explicit options).head? with
      | none => rfl
      | some r =>
        rw [request_of_alone (List.mem_of_mem_head? hhead)] at hown
        cases hown

/-- a port-clock that is not tuned has no frequencies -/
theorem split_resolution_untuned (hnodup : (edges.map Edge.portClock).Nodup) (he : e ∈ edges)
    (ht : e.isTuned inv = false) : (resolution inv options edges).split e.portClock = .none := by
  rw [split_group hnodup he, ht]
  rfl

/-- what stays open, feed by feed and member by member -/
theorem unresolved_resolution (inv : Inventory) (options : OptionTable) (edges : List Edge) :
    (resolution inv options edges).unresolved = (feeds inv edges).flatMap fun feed =>
      (fedMembers inv edges feed).flatMap ((settledGroup inv options edges feed).openOf options) := by
  simp only [resolution, ofGroups, List.flatMap_map]
  rfl

end Frequencies

end RackMap
