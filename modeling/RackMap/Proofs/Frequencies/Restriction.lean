/-
The frequencies of some of the edges.

`Closed` says of the edges that are kept that with one member of an oscillator they hold all of them. What is asked of
an oscillator is asked by its members, so then the oscillators that are kept get what they got before.
- `requests_restrict`, `split_restrict`: the requests for an oscillator that is kept, and the frequencies of a
  port-clock that is kept, are those of all edges;
- `agreed_restrict`: members that agree still do, whatever is left out;
- `unresolved_restrict`: the open frequencies are those of the port-clocks that are kept, in the same order.
-/
import Mathlib.Tactic
import RackMap.Proofs.Frequencies.Resolution

namespace RackMap.Frequencies

/-- with an edge that is kept, all edges are kept that the same oscillator feeds -/
def Closed (inv : Inventory) (edges : List Edge) (kept : Edge → Bool) : Prop :=
  ∀ e ∈ edges, ∀ e' ∈ edges, ∀ lo, e.fedBy? inv = some lo → e'.fedBy? inv = some lo → kept e = true → kept e' = true

variable {inv : Inventory} {options : OptionTable} {edges : List Edge} {kept : Edge → Bool} {e e' : Edge} {feed : Feed}
  {lo : OscillatorRef}

/-! ## Feeds -/

/-- edges with one feed are kept together: a port-clock that nothing feeds has one edge -/
theorem Closed.kept_of_feed (h : Closed inv edges kept) (hnodup : (edges.map Edge.portClock).Nodup) (he : e ∈ edges)
    (he' : e' ∈ edges) (hfeed : e.feed inv = e'.feed inv) (hkept : kept e = true) : kept e' = true := by
  cases hf : e.feed inv with
  | oscillator lo =>
    have hlo : e.fedBy? inv = some lo := feed_eq_oscillator_iff.1 hf
    have hlo' : e'.fedBy? inv = some lo := feed_eq_oscillator_iff.1 (hfeed.symm.trans hf)
    exact h e he e' he' lo hlo hlo' hkept
  | alone pc =>
    have hpc : e.portClock = e'.portClock :=
      (portClock_of_feed_eq_alone hf).trans (portClock_of_feed_eq_alone (hfeed.symm.trans hf)).symm
    obtain rfl := List.inj_on_of_nodup_map hnodup he he' hpc
    exact hkept

/-- whether an edge that is kept has this feed -/
def keepsFeed (inv : Inventory) (edges : List Edge) (kept : Edge → Bool) (feed : Feed) : Bool :=
  (edges.filter kept).any fun e => e.feed inv = feed

theorem keepsFeed_iff : keepsFeed inv edges kept feed = true ↔ ∃ e ∈ edges, kept e = true ∧ e.feed inv = feed := by
  simp only [keepsFeed, List.any_eq_true, List.mem_filter, decide_eq_true_eq, and_assoc]

/-- an edge is kept iff its feed is -/
theorem Closed.keepsFeed_eq (h : Closed inv edges kept) (hnodup : (edges.map Edge.portClock).Nodup) (he : e ∈ edges) :
    keepsFeed inv edges kept (e.feed inv) = kept e := by
  rw [Bool.eq_iff_iff, keepsFeed_iff]
  constructor
  · rintro ⟨e', he', hkept, hfeed⟩
    exact h.kept_of_feed hnodup he' he hfeed hkept
  · intro hkept
    exact ⟨e, he, hkept, rfl⟩

theorem tuned_restrict (inv : Inventory) (edges : List Edge) (kept : Edge → Bool) :
    tuned inv (edges.filter kept) = (tuned inv edges).filter kept :=
  List.filter_comm _ _ _

/-- the feeds of the kept edges are those that are kept, in the same order -/
theorem feeds_restrict (h : Closed inv edges kept) (hnodup : (edges.map Edge.portClock).Nodup) :
    feeds inv (edges.filter kept) = (feeds inv edges).filter (keepsFeed inv edges kept) := by
  have hkept : ((tuned inv edges).filter kept).map (Edge.feed inv) =
      ((tuned inv edges).map (Edge.feed inv)).filter (keepsFeed inv edges kept) := by
    rw [List.filter_map]
    refine congrArg (List.map (Edge.feed inv)) (List.filter_congr fun e he => ?_)
    exact (h.keepsFeed_eq hnodup (mem_tuned.1 he).1).symm
  rw [feeds, feeds, tuned_restrict, hkept, Wiring.firsts_filter]

/-- a feed that is kept keeps all its members -/
theorem fedMembers_restrict (h : Closed inv edges kept) (hnodup : (edges.map Edge.portClock).Nodup)
    (hfeed : keepsFeed inv edges kept feed = true) :
    fedMembers inv (edges.filter kept) feed = fedMembers inv edges feed := by
  have hall : ((tuned inv edges).filter fun e => e.feed inv = feed).filter kept =
      (tuned inv edges).filter fun e => e.feed inv = feed := by
    refine List.filter_eq_self.2 fun e he => ?_
    obtain ⟨he, hf⟩ := List.mem_filter.1 he
    rw [← h.keepsFeed_eq hnodup (mem_tuned.1 he).1, of_decide_eq_true hf, hfeed]
  rw [fedMembers, tuned_restrict, List.filter_comm, hall, fedMembers]

/-! ## Requests -/

/-- **An oscillator that is kept.** It gets the same requests. -/
theorem requests_restrict (h : Closed inv edges kept) (hnodup : (edges.map Edge.portClock).Nodup) (he : e ∈ edges)
    (hkept : kept e = true) (hlo : e.fedBy? inv = some lo) :
    requests inv options (edges.filter kept) lo = requests inv options edges lo := by
  have hfeed : keepsFeed inv edges kept (.oscillator lo) = true :=
    keepsFeed_iff.2 ⟨e, he, hkept, feed_eq_oscillator_iff.2 hlo⟩
  rw [requests, requests, members_eq, members_eq, fedMembers_restrict h hnodup hfeed]

/-- members that agree still do when some are left out -/
theorem agreed_restrict (hagreed : agreed (requests inv options edges lo) = true) :
    agreed (requests inv options (edges.filter kept) lo) = true := by
  have hsub : (requests inv options (edges.filter kept) lo).Sublist (requests inv options edges lo) :=
    ((List.filter_sublist.filter _).map Edge.portClock).filterMap _
  rw [agreed_iff] at hagreed ⊢
  intro a ha b hb
  exact hagreed a (hsub.subset ha) b (hsub.subset hb)

/-- **A port-clock that is kept.** It has the same frequencies. -/
theorem split_restrict (h : Closed inv edges kept) (hnodup : (edges.map Edge.portClock).Nodup) (he : e ∈ edges)
    (hkept : kept e = true) :
    (resolution inv options (edges.filter kept)).split e.portClock = (resolution inv options edges).split e.portClock := by
  have hnodup' : ((edges.filter kept).map Edge.portClock).Nodup := hnodup.sublist (List.filter_sublist.map _)
  have he' : e ∈ edges.filter kept := List.mem_filter.2 ⟨he, hkept⟩
  cases ht : e.isTuned inv with
  | false => rw [split_resolution_untuned hnodup he ht, split_resolution_untuned hnodup' he' ht]
  | true =>
    rw [split_resolution hnodup he ht, split_resolution hnodup' he' ht]
    cases hlo : e.fedBy? inv with
    | none => rfl
    | some lo => rw [Option.bind_some, Option.bind_some, firstRequest?, requests_restrict h hnodup he hkept hlo,
        firstRequest?]

/-! ## Open frequencies -/

theorem flatMap_filter {α β : Type} (wanted : α → Bool) (f : α → List β) (items : List α) :
    (items.filter wanted).flatMap f = items.flatMap fun a => if wanted a then f a else [] := by
  induction items with
  | nil => rfl
  | cons a items ih =>
    rw [List.filter_cons, List.flatMap_cons, ← ih]
    split
    · rw [List.flatMap_cons]
    · rw [List.nil_append]

/-- what stays open of a port-clock is told of it -/
theorem portClock_of_mem_openOf {g : LoGroup} {pc : PortClock} {u : OpenFrequency} (h : u ∈ g.openOf options pc) :
    u.portClock = pc := by
  unfold LoGroup.openOf at h
  rcases List.mem_append.1 h with h | h
  · split at h
    · rw [List.mem_singleton.1 h]
    · cases h
  · split at h
    · rw [List.mem_singleton.1 h]
    · cases h

/-- a feed that is kept leaves its members open as before -/
theorem openOf_restrict (h : Closed inv edges kept) (hnodup : (edges.map Edge.portClock).Nodup)
    (hfeed : keepsFeed inv edges kept feed = true) :
    (fedMembers inv (edges.filter kept) feed).flatMap
        ((settledGroup inv options (edges.filter kept) feed).openOf options) =
      (fedMembers inv edges feed).flatMap ((settledGroup inv options edges feed).openOf options) := by
  have hmembers := fedMembers_restrict h hnodup hfeed
  have hgroup : settledGroup inv options (edges.filter kept) feed = settledGroup inv options edges feed := by
    rw [settledGroup, settledGroup, groupOf, groupOf, hmembers]
  rw [hmembers, hgroup]

/-- the members of a feed are kept iff the feed is -/
theorem mem_portClocks_iff (h : Closed inv edges kept) (hnodup : (edges.map Edge.portClock).Nodup) {pc : PortClock}
    (hpc : pc ∈ fedMembers inv edges feed) :
    pc ∈ (edges.filter kept).map Edge.portClock ↔ keepsFeed inv edges kept feed = true := by
  obtain ⟨e, he, -, rfl, rfl⟩ := mem_fedMembers.1 hpc
  rw [h.keepsFeed_eq hnodup he, List.mem_map]
  constructor
  · rintro ⟨e', he', heq⟩
    obtain ⟨he', hkept⟩ := List.mem_filter.1 he'
    obtain rfl := List.inj_on_of_nodup_map hnodup he' he heq
    exact hkept
  · intro hkept
    exact ⟨e, List.mem_filter.2 ⟨he, hkept⟩, rfl⟩

/-- **Open frequencies.** They are those of the port-clocks that are kept, in the same order. -/
theorem unresolved_restrict (h : Closed inv edges kept) (hnodup : (edges.map Edge.portClock).Nodup) :
    (resolution inv options (edges.filter kept)).unresolved =
      (resolution inv options edges).unresolved.filter fun u =>
        u.portClock ∈ (edges.filter kept).map Edge.portClock := by
  rw [unresolved_resolution, unresolved_resolution, feeds_restrict h hnodup, flatMap_filter, List.filter_flatMap]
  refine List.flatMap_congr fun feed _ => ?_
  have hkept : ∀ u ∈ (fedMembers inv edges feed).flatMap ((settledGroup inv options edges feed).openOf options),
      u.portClock ∈ (edges.filter kept).map Edge.portClock ↔ keepsFeed inv edges kept feed = true := by
    intro u hu
    obtain ⟨pc, hpc, hopen⟩ := List.mem_flatMap.1 hu
    rw [portClock_of_mem_openOf hopen]
    exact mem_portClocks_iff h hnodup hpc
  split
  · rename_i hfeed
    rw [openOf_restrict h hnodup hfeed]
    exact (List.filter_eq_self.2 fun u hu => decide_eq_true ((hkept u hu).2 hfeed)).symm
  · rename_i hfeed
    exact (List.filter_eq_nil_iff.2 fun u hu hin => hfeed ((hkept u hu).1 (of_decide_eq_true hin))).symm

end RackMap.Frequencies
