/-
Resolving what was resolved: once every port-clock asks for the frequencies that it got, it gets them again.

`OptionTable.adopt` makes resolved frequencies the ones that are asked for. More members ask for the frequency of their
oscillator then, and others may be first, but each of them asks for what the first one asked for before, or for its own.
- `LoGroup.settled_adopted`: a group is settled with the frequency that it had, since the first member to ask now asks
  for it;
- `LoGroup.agreed_adopted`: its members agree as they did, since nothing is asked for that was not;
- `resolve_adopted`: so the groups, the frequencies of all port-clocks and what stays open are what they were.
-/
import Mathlib.Tactic
import RackMap.Proofs.OptionFrame
import RackMap.Proofs.OscillatorGroups

namespace RackMap

namespace OptionTable

variable {t : OptionTable} {r : Resolution} {pcs : List PortClock} {pc : PortClock}

/-- the options of a port-clock, which asks for these frequencies and no others -/
def asking (t : OptionTable) (pc : PortClock) (split : Split) : CorrectionSet :=
  { t.corrections pc with modulation? := some ⟨split.interm?, split.lo?⟩ }

/-- the options where each of these port-clocks asks for the frequencies that it is resolved to -/
def adopt (t : OptionTable) (r : Resolution) (pcs : List PortClock) : OptionTable :=
  ⟨(pcs.map fun pc => (pc.text, t.asking pc (r.split pc))).foldl (fun entries p => entries.put p.1 p.2) t.entries⟩

theorem corrections_adopt (hdistinct : (pcs.map PortClock.text).Nodup) (hpc : pc ∈ pcs) :
    (t.adopt r pcs).corrections pc = t.asking pc (r.split pc) := by
  have hkeys : (Table.keys (pcs.map fun pc => (pc.text, t.asking pc (r.split pc)))).Nodup := by
    rw [Table.keys, List.map_map]
    exact hdistinct
  rw [adopt, corrections, Table.lookup?_foldl_put, Table.latest_eq_self hkeys,
    Table.lookup?_of_mem hkeys (List.mem_map_of_mem hpc)]
  rfl

theorem modulation_adopt (hdistinct : (pcs.map PortClock.text).Nodup) (hpc : pc ∈ pcs) :
    (t.adopt r pcs).modulation pc = ⟨(r.split pc).interm?, (r.split pc).lo?⟩ := by
  rw [modulation, corrections_adopt hdistinct hpc]
  rfl

/-- the options of the others are left alone -/
theorem corrections_adopt_of_notMem (hpc : pc.text ∉ pcs.map PortClock.text) :
    (t.adopt r pcs).corrections pc = t.corrections pc := by
  have hnone : Table.lookup? (Table.latest (pcs.map fun pc => (pc.text, t.asking pc (r.split pc)))) pc.text = none := by
    rw [Table.lookup?_eq_none_iff, Table.mem_keys_latest, Table.keys, List.map_map]
    exact hpc
  rw [adopt, corrections, Table.lookup?_foldl_put, hnone]
  rfl

end OptionTable

/-! ## One group -/

/-- the first value is the first again once it stands wherever there was none -/
theorem head?_filterMap_or {α β : Type} (f : α → Option β) (items : List α) :
    (items.filterMap fun a => (f a).or (items.filterMap f).head?).head? = (items.filterMap f).head? := by
  cases hfirst : (items.filterMap f).head? with
  | none => simp only [Option.or_none, hfirst]
  | some b =>
    cases items with
    | nil => cases hfirst
    | cons a items =>
      cases ha : f a with
      | none => simp [ha]
      | some c => simpa [ha] using hfirst

namespace LoGroup

variable {a b : OptionTable} {g : LoGroup} {pc : PortClock}

/-- a group is settled with the first frequency that a member asks for -/
theorem frequency?_settled (options : OptionTable) (g : LoGroup) :
    (g.settled options).frequency? = (g.members.filterMap fun pc => (options.modulation pc).lo?).head? := by
  rw [settled, ← List.head?_map, explicit, List.map_filterMap]
  simp only [Option.map_map, Function.comp_def, Option.map_id']

/-- by `b` every member asks for the frequencies that the group, settled by `a`, gives it -/
def Adopted (a b : OptionTable) (g : LoGroup) : Prop :=
  ∀ pc ∈ g.members, b.modulation pc = ⟨((g.settled a).split a pc).interm?, ((g.settled a).split a pc).lo?⟩

/-- members ask for what they asked for, or else for the frequency of the group -/
theorem Adopted.lo? (h : g.Adopted a b) (hpc : pc ∈ g.members) :
    (b.modulation pc).lo? = (a.modulation pc).lo?.or (g.settled a).frequency? := by
  rw [h pc hpc]
  rfl

theorem settled_adopted (h : g.Adopted a b) : g.settled b = g.settled a := by
  have hfrequency : (g.settled b).frequency? = (g.settled a).frequency? := by
    have hasked : g.members.filterMap (fun pc => (b.modulation pc).lo?) = g.members.filterMap fun pc =>
        (a.modulation pc).lo?.or (g.members.filterMap fun pc => (a.modulation pc).lo?).head? :=
      List.filterMap_congr fun pc hpc => by rw [h.lo? hpc, frequency?_settled]
    rw [frequency?_settled, frequency?_settled, hasked, head?_filterMap_or]
  exact congrArg (fun frequency? => ({ g with frequency? } : LoGroup)) hfrequency

/-- nothing is asked for that no member asked for before -/
theorem agreed_adopted (h : g.Adopted a b) (hagreed : agreed (g.explicit a) = true) :
    agreed (g.explicit b) = true := by
  have hasked : ∀ x ∈ g.explicit b, ∃ y ∈ g.explicit a, y.2 = x.2 := by
    rintro ⟨pc, f⟩ hx
    obtain ⟨hpc, hf⟩ := mem_explicit.1 hx
    rw [h.lo? hpc, Option.or_eq_some_iff] at hf
    rcases hf with hown | ⟨-, hshared⟩
    · exact ⟨(pc, f), mem_explicit.2 ⟨hpc, hown⟩, rfl⟩
    · obtain ⟨y, hy, hvalue⟩ := Option.map_eq_some_iff.1 hshared
      exact ⟨y, List.mem_of_mem_head? hy, hvalue⟩
  refine agreed_iff.2 fun x hx x' hx' => ?_
  obtain ⟨y, hy, hvalue⟩ := hasked x hx
  obtain ⟨y', hy', hvalue'⟩ := hasked x' hx'
  rw [← hvalue, ← hvalue']
  exact agreed_iff.1 hagreed y hy y' hy'

theorem split_adopted (h : g.Adopted a b) (hpc : pc ∈ g.members) :
    (g.settled a).split b pc = (g.settled a).split a pc := by
  rw [split, h pc hpc]
  simp only [split, Option.or_assoc, Option.or_self]

end LoGroup

/-! ## All groups -/

namespace Frequencies

variable {inv : Inventory} {options options' : OptionTable} {w : Wiring} {r : Resolution}

/-- **Resolving again.** Options that ask for the frequencies that were resolved are resolved to the same ones. -/
theorem resolve_again (hr : resolve inv options w = .ok r)
    (hasks : ∀ e ∈ w.edges, e.isTuned inv = true →
      options'.modulation e.portClock = ⟨(r.split e.portClock).interm?, (r.split e.portClock).lo?⟩) :
    resolve inv options' w = .ok r := by
  have hdescribed := described_of_resolve hr
  obtain ⟨hagreed, rfl⟩ := (resolve_eq_ok_iff_agreed hdescribed).1 hr
  have hadopted : ∀ feed, (groupOf inv w.edges feed).Adopted options options' := by
    intro feed pc hpc
    obtain ⟨e, he, ht, rfl, rfl⟩ := mem_fedMembers.1 hpc
    rw [hasks e he ht, split_group w.distinct he, if_pos ht]
    rfl
  refine (resolve_eq_ok_iff_agreed hdescribed).2 ⟨fun feed hfeed => ?_, ?_⟩
  · exact LoGroup.agreed_adopted (hadopted feed) (hagreed feed hfeed)
  · have hgroups : settledGroup inv options' w.edges = settledGroup inv options w.edges :=
      funext fun feed => LoGroup.settled_adopted (hadopted feed)
    rw [resolution, resolution, hgroups]
    refine ofGroups_congr fun g hg pc hpc => ?_
    obtain ⟨feed, -, rfl⟩ := List.mem_map.1 hg
    exact (LoGroup.split_adopted (hadopted feed) hpc).symm

/-- the port-clocks that carry frequencies -/
def tunedPortClocks (inv : Inventory) (w : Wiring) : List PortClock := (tuned inv w.edges).map Edge.portClock

theorem mem_tunedPortClocks {pc : PortClock} :
    pc ∈ tunedPortClocks inv w ↔ ∃ e ∈ w.edges, e.isTuned inv = true ∧ e.portClock = pc := by
  simp only [tunedPortClocks, List.mem_map, mem_tuned, and_assoc]

/-- **Resolution is idempotent.** Wherever the port-clocks that carry frequencies are written differently, each can be
made to ask for what it is resolved to, with its other options and those of all others left alone; and resolving again
gives the same groups, the same frequencies and the same gaps. -/
theorem resolve_adopted (hr : resolve inv options w = .ok r)
    (hdistinct : ((tunedPortClocks inv w).map PortClock.text).Nodup) :
    (∀ pc ∈ tunedPortClocks inv w, (options.adopt r (tunedPortClocks inv w)).corrections pc =
      { options.corrections pc with modulation? := some ⟨(r.split pc).interm?, (r.split pc).lo?⟩ }) ∧
    (∀ pc : PortClock, pc.text ∉ (tunedPortClocks inv w).map PortClock.text →
      (options.adopt r (tunedPortClocks inv w)).corrections pc = options.corrections pc) ∧
    resolve inv (options.adopt r (tunedPortClocks inv w)) w = .ok r := by
  refine ⟨fun pc hpc => OptionTable.corrections_adopt hdistinct hpc,
    fun pc hpc => OptionTable.corrections_adopt_of_notMem hpc, resolve_again hr fun e he ht => ?_⟩
  exact OptionTable.modulation_adopt hdistinct (mem_tunedPortClocks.2 ⟨e, he, ht, rfl⟩)

/-- the frequency that one of two port-clocks asks for is handed to the other, and both ask for it afterwards -/
theorem mixedConfig_adopted :
    ∃ p r, Parsed.ofConfig (mixedConfig [("q1:res-q1.ro", ⟨none, some (.finite false 5)⟩)]) {} = .ok p ∧
      resolve p.inventory p.options p.wiring = .ok r ∧
      ((tunedPortClocks p.inventory p.wiring).map PortClock.text).Nodup ∧
      p.options.modulation ⟨"q0:res", "q0.ro"⟩ = .none ∧
      (p.options.adopt r (tunedPortClocks p.inventory p.wiring)).modulation ⟨"q0:res", "q0.ro"⟩ =
        ⟨none, some (.finite false 5)⟩ ∧
      (∀ pc ∈ tunedPortClocks p.inventory p.wiring,
        (p.options.adopt r (tunedPortClocks p.inventory p.wiring)).corrections pc =
          { p.options.corrections pc with modulation? := some ⟨(r.split pc).interm?, (r.split pc).lo?⟩ }) ∧
      (∀ pc : PortClock, pc.text ∉ (tunedPortClocks p.inventory p.wiring).map PortClock.text →
        (p.options.adopt r (tunedPortClocks p.inventory p.wiring)).corrections pc = p.options.corrections pc) ∧
      resolve p.inventory (p.options.adopt r (tunedPortClocks p.inventory p.wiring)) p.wiring = .ok r := by
  obtain ⟨p, hp, hchecked⟩ := exists_eq_ok
    (x := Parsed.ofConfig (mixedConfig [("q1:res-q1.ro", ⟨none, some (.finite false 5)⟩)]) {})
    (c := fun p => (resolve p.inventory p.options p.wiring).toOption.any fun r =>
      ((tunedPortClocks p.inventory p.wiring).map PortClock.text).Nodup &&
        p.options.modulation ⟨"q0:res", "q0.ro"⟩ = .none &&
        (p.options.adopt r (tunedPortClocks p.inventory p.wiring)).modulation ⟨"q0:res", "q0.ro"⟩ =
          ⟨none, some (.finite false 5)⟩)
    (by decide +kernel)
  obtain ⟨r, hr, hchecked⟩ := exists_eq_ok hchecked
  simp only [Bool.and_eq_true, decide_eq_true_eq] at hchecked
  obtain ⟨⟨hdistinct, hopen⟩, hadopted⟩ := hchecked
  exact ⟨p, r, hp, hr, hdistinct, hopen, hadopted, resolve_adopted hr hdistinct⟩

end Frequencies

end RackMap
