/-
The groups of port-clocks that share an oscillator, told edge by edge.

An edge is tuned if its channel carries frequencies, and is fed by the oscillator built into the channel or else by the
one it names. `Feed` is what puts edges into one group: the oscillator, or the port-clock itself if none feeds it.
- `groups_eq`: the groups are those of the feeds of the tuned edges, by first occurrence; the members of a group are the
  port-clocks of its edges, in the order of the edges.
- `mem_fedMembers`: a port-clock is a member of a group iff a tuned edge with that feed connects it.
-/
import Mathlib.Tactic
import RackMap.Frequencies
import RackMap.Proofs.Outcome
import RackMap.Proofs.Wiring.Index

namespace RackMap

open RackMap.Decimal (Double)

namespace Edge

/-- the oscillator that feeds an edge: the one built into its channel, or else the one it names -/
def fedBy? (inv : Inventory) (e : Edge) : Option OscillatorRef :=
  (inv.channel? e.channel).bind fun channel => Frequencies.effectiveLo? channel e

/-- whether the channel of an edge is described and carries frequencies -/
def isTuned (inv : Inventory) (e : Edge) : Bool :=
  (inv.channel? e.channel).any fun channel => channel.kind.carriesFrequencies

end Edge

/-- what puts port-clocks into one group: the oscillator that feeds them; one that none feeds is alone -/
inductive Feed where
  | oscillator (lo : OscillatorRef)
  | alone (portClock : PortClock)
deriving DecidableEq, Repr

def Feed.lo? : Feed → Option OscillatorRef
  | oscillator lo => some lo
  | alone _ => none

/-- the feed of an edge -/
def Edge.feed (inv : Inventory) (e : Edge) : Feed :=
  match e.fedBy? inv with
  | some lo => .oscillator lo
  | none => .alone e.portClock

namespace Frequencies

/-- the edges that carry frequencies -/
def tuned (inv : Inventory) (edges : List Edge) : List Edge := edges.filter (Edge.isTuned inv)

/-- the feeds of the edges, by first occurrence -/
def feeds (inv : Inventory) (edges : List Edge) : List Feed := Wiring.firsts ((tuned inv edges).map (Edge.feed inv))

/-- the port-clocks with a feed, in the order of the edges -/
def fedMembers (inv : Inventory) (edges : List Edge) (feed : Feed) : List PortClock :=
  ((tuned inv edges).filter fun e => e.feed inv = feed).map Edge.portClock

/-- the group of a feed, not settled yet -/
def groupOf (inv : Inventory) (edges : List Edge) (feed : Feed) : LoGroup :=
  ⟨feed.lo?, fedMembers inv edges feed, none⟩

variable {inv : Inventory} {edges : List Edge} {e : Edge} {pc : PortClock} {feed : Feed} {lo : OscillatorRef}

theorem feed_lo? (inv : Inventory) (e : Edge) : (e.feed inv).lo? = e.fedBy? inv := by
  unfold Edge.feed
  cases e.fedBy? inv <;> rfl

theorem feed_eq_oscillator_iff : e.feed inv = .oscillator lo ↔ e.fedBy? inv = some lo := by
  unfold Edge.feed
  cases e.fedBy? inv <;> simp

theorem portClock_of_feed_eq_alone (h : e.feed inv = .alone pc) : e.portClock = pc := by
  unfold Edge.feed at h
  split at h
  · cases h
  · cases h; rfl

theorem mem_tuned : e ∈ tuned inv edges ↔ e ∈ edges ∧ e.isTuned inv = true := List.mem_filter

theorem mem_feeds : feed ∈ feeds inv edges ↔ ∃ e ∈ edges, e.isTuned inv = true ∧ e.feed inv = feed := by
  simp only [feeds, Wiring.mem_firsts, List.mem_map, mem_tuned, and_assoc]

theorem mem_fedMembers :
    pc ∈ fedMembers inv edges feed ↔
      ∃ e ∈ edges, e.isTuned inv = true ∧ e.feed inv = feed ∧ e.portClock = pc := by
  simp only [fedMembers, List.mem_map, List.mem_filter, mem_tuned, decide_eq_true_eq, and_assoc]

theorem nodup_feeds (inv : Inventory) (edges : List Edge) : (feeds inv edges).Nodup := Wiring.nodup_firsts _

/-! ## One more edge -/

/-- the group of a feed with one more member -/
def withMember (g : LoGroup) (pc : PortClock) : LoGroup := { g with members := g.members ++ [pc] }

/-- a member goes to the group of its feed, or to a new group at the end; a port-clock that none feeds is always new -/
theorem addMember_map {fs : List Feed} (hfs : fs.Nodup) {G : Feed → LoGroup} (hG : ∀ f, (G f).lo? = f.lo?)
    (halone : feed.lo? = none → feed ∉ fs) :
    addMember pc feed.lo? (fs.map G) =
      if feed ∈ fs then fs.map fun f => if f = feed then withMember (G f) pc else G f
      else fs.map G ++ [⟨feed.lo?, [pc], none⟩] := by
  induction fs with
  | nil => simp [addMember]
  | cons f fs ih =>
    obtain ⟨hf, hrest⟩ := List.nodup_cons.1 hfs
    rw [List.map_cons, addMember, hG]
    by_cases hfeed : f = feed
    · subst hfeed
      have hlo : f.lo?.isSome := by
        cases hl : f.lo? with
        | some lo => rfl
        | none => exact absurd List.mem_cons_self (halone hl)
      have hothers : ∀ f' ∈ fs, (if f' = f then withMember (G f') pc else G f') = G f' := by
        intro f' hf'
        rw [if_neg]
        rintro rfl
        exact hf hf'
      rw [if_pos ⟨hlo, rfl⟩, if_pos List.mem_cons_self, List.map_cons, if_pos rfl, List.map_congr_left hothers]
      simp only [withMember, hG]
    · have hne : ¬(feed.lo?.isSome ∧ f.lo? = feed.lo?) := by
        rintro ⟨hlo, heq⟩
        cases feed with
        | alone pc' => cases hlo
        | oscillator lo =>
          cases f with
          | alone pc' => cases heq
          | oscillator lo' => cases heq; exact hfeed rfl
      rw [if_neg hne, ih hrest fun h hin => halone h (List.mem_cons_of_mem f hin)]
      by_cases hin : feed ∈ fs
      · rw [if_pos hin, if_pos (List.mem_cons_of_mem f hin), List.map_cons, if_neg hfeed]
      · have hcons : feed ∉ f :: fs := by simp [hin, Ne.symm hfeed]
        rw [if_neg hin, if_neg hcons, List.cons_append]

theorem tuned_concat (inv : Inventory) (edges : List Edge) (e : Edge) :
    tuned inv (edges ++ [e]) = if e.isTuned inv then tuned inv edges ++ [e] else tuned inv edges := by
  rw [tuned, List.filter_append, List.filter_singleton]
  cases e.isTuned inv <;> simp [tuned]

/-- one more tuned edge adds its port-clock to the group of its feed and leaves the other groups alone -/
theorem groupOf_concat (ht : e.isTuned inv = true) (feed : Feed) :
    groupOf inv (edges ++ [e]) feed =
      if feed = e.feed inv then withMember (groupOf inv edges feed) e.portClock else groupOf inv edges feed := by
  unfold groupOf fedMembers
  rw [tuned_concat, if_pos ht, List.filter_append, List.filter_singleton]
  by_cases h : feed = e.feed inv
  · simp [h, withMember]
  · simp [h, Ne.symm h]

theorem fedMembers_eq_nil (h : feed ∉ feeds inv edges) : fedMembers inv edges feed = [] := by
  rw [List.eq_nil_iff_forall_not_mem]
  intro pc hpc
  obtain ⟨e, he, ht, hfeed, -⟩ := mem_fedMembers.1 hpc
  exact h (mem_feeds.2 ⟨e, he, ht, hfeed⟩)

/-! ## All edges -/

/-- adding one edge to the groups of the edges before it gives the groups of all of them -/
theorem addEdge_groups {channel : Channel} (hchannel : inv.channel? e.channel = some channel)
    (hnew : e.portClock ∉ edges.map Edge.portClock) :
    addEdge inv ((feeds inv edges).map (groupOf inv edges)) e =
      .ok ((feeds inv (edges ++ [e])).map (groupOf inv (edges ++ [e]))) := by
  have ht : e.isTuned inv = channel.kind.carriesFrequencies := by simp [Edge.isTuned, hchannel]
  have hlo : effectiveLo? channel e = (e.feed inv).lo? := by simp [feed_lo?, Edge.fedBy?, hchannel]
  unfold addEdge
  rw [hchannel]
  simp only
  cases hc : channel.kind.carriesFrequencies with
  | false =>
    have hsame : tuned inv (edges ++ [e]) = tuned inv edges := by rw [tuned_concat, ht, hc]; rfl
    have hgroup : groupOf inv (edges ++ [e]) = groupOf inv edges := by
      funext f
      simp only [groupOf, fedMembers, hsame]
    simp only [Bool.false_eq_true, if_false, feeds, hgroup, hsame]
  | true =>
    rw [hc] at ht
    have halone : (e.feed inv).lo? = none → e.feed inv ∉ feeds inv edges := by
      intro hnone hin
      obtain ⟨e', he', -, hfeed⟩ := mem_feeds.1 hin
      cases hf : e.feed inv with
      | oscillator lo => rw [hf] at hnone; cases hnone
      | alone pc =>
        have hpc := portClock_of_feed_eq_alone hf
        rw [hf] at hfeed
        have hpc' := portClock_of_feed_eq_alone hfeed
        exact hnew (List.mem_map.2 ⟨e', he', hpc'.trans hpc.symm⟩)
    have hfeeds : feeds inv (edges ++ [e]) =
        if e.feed inv ∈ feeds inv edges then feeds inv edges else feeds inv edges ++ [e.feed inv] := by
      unfold feeds
      rw [tuned_concat, if_pos ht, List.map_append, List.map_singleton, Wiring.firsts_concat]
      simp only [Wiring.mem_firsts]
    rw [if_pos rfl, hlo, addMember_map (nodup_feeds inv edges) (fun _ => rfl) halone, hfeeds]
    congr 1
    by_cases hin : e.feed inv ∈ feeds inv edges
    · rw [if_pos hin, if_pos hin]
      exact List.map_congr_left fun f _ => (groupOf_concat ht f).symm
    · have hothers : ∀ f ∈ feeds inv edges, groupOf inv (edges ++ [e]) f = groupOf inv edges f := by
        intro f hf
        rw [groupOf_concat ht, if_neg]
        rintro rfl
        exact hin hf
      have hnewGroup : groupOf inv (edges ++ [e]) (e.feed inv) = ⟨(e.feed inv).lo?, [e.portClock], none⟩ := by
        rw [groupOf_concat ht, if_pos rfl, withMember, groupOf, fedMembers_eq_nil hin, List.nil_append]
      rw [if_neg hin, if_neg hin, List.map_append, List.map_singleton, hnewGroup, List.map_congr_left hothers]

/-- **The groups of a wiring.** If every channel is described, the groups are those of the feeds of the tuned edges. -/
theorem groups_eq {w : Wiring} (hdescribed : ∀ e ∈ w.edges, ∃ channel, inv.channel? e.channel = some channel) :
    groups inv w = .ok ((feeds inv w.edges).map (groupOf inv w.edges)) := by
  have hnodup := w.distinct
  unfold groups
  generalize w.edges = edges at hdescribed hnodup ⊢
  -- induction from the end of the list: the groups so far are those of the edges so far
  induction edges using List.reverseRecOn with
  | nil => rfl
  | append_singleton edges e ih =>
    rw [List.map_append, List.map_singleton] at hnodup
    obtain ⟨hbefore, -, hdisjoint⟩ := List.nodup_append.1 hnodup
    obtain ⟨channel, hchannel⟩ := hdescribed e (by simp)
    have hnew : e.portClock ∉ edges.map Edge.portClock := fun hin => hdisjoint _ hin _ (List.mem_singleton_self _) rfl
    rw [List.foldlM_append, ih (fun e' he' => hdescribed e' (List.mem_append_left _ he')) hbefore, ok_bind,
      List.foldlM_cons, addEdge_groups hchannel hnew, ok_bind, List.foldlM_nil]
    rfl

end Frequencies

end RackMap
