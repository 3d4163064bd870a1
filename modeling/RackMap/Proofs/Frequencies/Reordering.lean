/-
The frequencies of edges in another order.

The members of an oscillator come in another order then, and so do the oscillators. Since numeric equality is an
equivalence on what the members of an oscillator that agree ask for, it does not matter who asks first.
- `sameFrequency_of_fed`: an oscillator and all that it feeds have the same number;
- `requests_perm`: every oscillator gets the same requests, so the members agree or disagree as before;
- `firstRequest?_reordered`, `split_reordered`: every oscillator gets the same number, and so does every port-clock;
- `unresolved_perm`: the same frequencies stay open.
-/
import Mathlib.Tactic
import RackMap.Proofs.Oscillators

namespace RackMap

open RackMap.Decimal (Double)

/-- the same frequency, or none; the two zeros are the same -/
def SameFrequency (a b : Option Double) : Prop := Option.Rel (fun f g => f.same g = true) a b

namespace Frequencies

variable {inv : Inventory} {options : OptionTable} {edges edges' : List Edge} {e : Edge} {feed : Feed}
  {lo : OscillatorRef}

/-- the frequency of an oscillator is that of every port-clock that it feeds -/
theorem sameFrequency_of_fed {description : HardwareDescription} {backend : Backend}
    (hinventory : Inventory.build description backend = .ok inv) (hnodup : (edges.map Edge.portClock).Nodup)
    (hfits : ∀ e ∈ edges, ∃ channel, Crosscheck.Fits inv e channel) (hfinite : options.AsksFinite)
    (hagreed : agreed (requests inv options edges lo) = true) (he : e ∈ edges) (hfed : e.fedBy? inv = some lo) :
    SameFrequency ((resolution inv options edges).frequency? lo)
      ((resolution inv options edges).split e.portClock).lo? := by
  have htuned : e.isTuned inv = true := by
    by_contra hdigital
    obtain ⟨channel, hchannel⟩ := hfits e he
    rw [Edge.fedBy?_eq_none_of_fits hinventory hchannel (Bool.eq_false_iff.2 hdigital)] at hfed
    cases hfed
  have hmember : e.portClock ∈ members inv edges lo := mem_members.2 ⟨e, he, htuned, hfed, rfl⟩
  rw [frequency?_resolution, split_resolution hnodup he htuned, hfed, Option.bind_some]
  cases hfirst : firstRequest? inv options edges lo with
  | none =>
    rw [firstRequest?_eq_none_iff.1 hfirst _ hmember]
    exact .none
  | some f =>
    obtain ⟨g, hg, hsame⟩ := same_firstRequest? hagreed hfirst hmember hfinite
    rw [hg]
    rw [Double.same_comm] at hsame
    exact .some hsame

/-! ## Members -/

theorem fedMembers_perm (h : edges.Perm edges') (feed : Feed) :
    (fedMembers inv edges feed).Perm (fedMembers inv edges' feed) :=
  ((h.filter _).filter _).map Edge.portClock

theorem requests_perm (h : edges.Perm edges') (lo : OscillatorRef) :
    (requests inv options edges lo).Perm (requests inv options edges' lo) :=
  ((h.filter _).map Edge.portClock).filterMap _

theorem agreed_reordered (h : edges.Perm edges') :
    agreed (requests inv options edges lo) = agreed (requests inv options edges' lo) := by
  rw [Bool.eq_iff_iff, agreed_iff, agreed_iff]
  simp only [(requests_perm h lo).mem_iff]

/-- **Who asks first.** If the members of an oscillator agree, it does not matter. -/
theorem firstRequest?_reordered (h : edges.Perm edges') (hagreed : agreed (requests inv options edges lo) = true) :
    SameFrequency (firstRequest? inv options edges lo) (firstRequest? inv options edges' lo) := by
  have hperm : (requests inv options edges lo).Perm (requests inv options edges' lo) := requests_perm h lo
  unfold firstRequest?
  generalize requests inv options edges lo = asked, requests inv options edges' lo = asked' at hperm hagreed
  cases asked with
  | nil =>
    rw [← hperm.nil_eq]
    exact .none
  | cons r rest =>
    cases asked' with
    | nil => exact absurd hperm.symm.nil_eq (by simp)
    | cons r' rest' =>
      have hr' : r' ∈ r :: rest := hperm.mem_iff.2 List.mem_cons_self
      exact .some (agreed_iff.1 hagreed r List.mem_cons_self r' hr')

/-- **Frequencies of a port-clock.** -/
theorem split_reordered (h : edges.Perm edges') (hnodup : (edges.map Edge.portClock).Nodup)
    (hagreed : ∀ lo, agreed (requests inv options edges lo) = true) (hfinite : options.AsksFinite) (he : e ∈ edges) :
    ((resolution inv options edges).split e.portClock).interm? =
        ((resolution inv options edges').split e.portClock).interm? ∧
      SameFrequency ((resolution inv options edges).split e.portClock).lo?
        ((resolution inv options edges').split e.portClock).lo? := by
  have hnodup' : (edges'.map Edge.portClock).Nodup := (h.map Edge.portClock).nodup_iff.1 hnodup
  have he' : e ∈ edges' := h.mem_iff.1 he
  cases ht : e.isTuned inv with
  | false =>
    rw [split_resolution_untuned hnodup he ht, split_resolution_untuned hnodup' he' ht]
    exact ⟨rfl, .none⟩
  | true =>
    rw [split_resolution hnodup he ht, split_resolution hnodup' he' ht]
    refine ⟨rfl, ?_⟩
    cases hown : (options.modulation e.portClock).lo? with
    | some f => exact .some (Double.same_self_of_isFinite (hfinite _ f hown))
    | none =>
      cases e.fedBy? inv with
      | none => exact .none
      | some lo => exact firstRequest?_reordered h (hagreed lo)

/-! ## Open frequencies -/

theorem feeds_perm (h : edges.Perm edges') : (feeds inv edges).Perm (feeds inv edges') := by
  rw [List.perm_ext_iff_of_nodup (nodup_feeds inv edges) (nodup_feeds inv edges')]
  intro feed
  simp only [mem_feeds, h.mem_iff]

/-- what stays open of a member depends on the oscillator of its group, and on whether that has a frequency -/
theorem openOf_congr_frequency {g g' : LoGroup} (hlo : g.lo? = g'.lo?)
    (hopen : g.frequency? = none ↔ g'.frequency? = none) (pc : PortClock) :
    g.openOf options pc = g'.openOf options pc := by
  have hsplit : (g.split options pc).lo? = none ↔ (g'.split options pc).lo? = none := by
    simp only [LoGroup.split, Option.or_eq_none_iff, hopen]
  unfold LoGroup.openOf
  simp only [hlo, hsplit]
  rfl

theorem openOf_reordered (h : edges.Perm edges') (feed : Feed) (pc : PortClock) :
    (settledGroup inv options edges feed).openOf options pc =
      (settledGroup inv options edges' feed).openOf options pc := by
  have hlo : (settledGroup inv options edges feed).lo? = (settledGroup inv options edges' feed).lo? := rfl
  refine openOf_congr_frequency hlo ?_ pc
  have hmembers : (fedMembers inv edges feed).Perm (fedMembers inv edges' feed) := fedMembers_perm h feed
  have hasked := hmembers.filterMap fun pc => (options.modulation pc).lo?.map fun f => (pc, f)
  simp only [settledGroup, LoGroup.settled, Option.map_eq_none_iff, List.head?_eq_none_iff, explicit_groupOf]
  constructor
  · intro hnil
    rw [hnil] at hasked
    exact hasked.nil_eq.symm
  · intro hnil
    rw [hnil] at hasked
    exact hasked.eq_nil

/-- **Open frequencies.** -/
theorem unresolved_perm (h : edges.Perm edges') :
    (resolution inv options edges).unresolved.Perm (resolution inv options edges').unresolved := by
  have hgroup : ∀ feed,
      ((fedMembers inv edges feed).flatMap ((settledGroup inv options edges feed).openOf options)).Perm
        ((fedMembers inv edges' feed).flatMap ((settledGroup inv options edges' feed).openOf options)) := by
    intro feed
    have hopen : (settledGroup inv options edges feed).openOf options =
        (settledGroup inv options edges' feed).openOf options := funext (openOf_reordered h feed)
    rw [hopen]
    exact (fedMembers_perm h feed).flatMap_right _
  rw [unresolved_resolution, unresolved_resolution]
  exact ((feeds_perm h).flatMap_right _).trans (List.Perm.flatMap_left _ fun feed _ => hgroup feed)

end Frequencies

end RackMap
