/-
The groups of port-clocks that are reported for one intermediate frequency.

Clashes are looked for channel by channel, and the groups of the oscillators are not asked. A channel has one oscillator
for all of its edges or none, so what is reported shares an oscillator iff the channel has one. On a complex channel
without oscillator each of the port-clocks is in a group of its own, and they are reported nevertheless.
- `built_of_compile`: a compilation that ends with a clash has resolved its documents before;
- `compile_clash_groups`: the reported port-clocks are in one group iff an oscillator feeds their channel, and alone
  otherwise.
-/
import Mathlib.Tactic
import RackMap.Proofs.IntermediateFrequencies
import RackMap.Proofs.OscillatorGroups
import RackMap.Proofs.Oscillators

namespace RackMap

open RackMap.Decimal (Double)

variable {config : Config} {settings : Settings} {inv : Inventory} {edges : List Edge} {path : ChannelPath}
  {frequency : Double} {reported : List PortClock} {groups : List LoGroup} {g g' : LoGroup} {lo : OscillatorRef}
  {e e' : Edge}

/-- an oscillator feeds all edges on the channel -/
def Feeds (inv : Inventory) (edges : List Edge) (path : ChannelPath) (lo : OscillatorRef) : Prop :=
  ∀ e ∈ edges, e.channel = path → e.fedBy? inv = some lo

/-- the port-clocks are members of one group -/
def Together (groups : List LoGroup) (pcs : List PortClock) : Prop := ∃ g ∈ groups, ∀ pc ∈ pcs, pc ∈ g.members

instance (groups : List LoGroup) (pcs : List PortClock) : Decidable (Together groups pcs) :=
  inferInstanceAs (Decidable (∃ g ∈ groups, ∀ pc ∈ pcs, pc ∈ g.members))

/-- the port-clock is the only member of a group without oscillator -/
def Alone (groups : List LoGroup) (pc : PortClock) : Prop := ∃ g ∈ groups, g.lo? = none ∧ g.members = [pc]

/-! ## Groups -/

namespace Frequencies.Partitions

/-- the group of an oscillator is the only one with it -/
theorem eq_of_lo? (h : Partitions inv edges groups) (hg : g ∈ groups) (hg' : g' ∈ groups) (hlo : g.lo? = some lo)
    (hlo' : g'.lo? = some lo) : g = g' :=
  Option.some.inj ((find?_lo?_eq h.oscillators hg hlo).symm.trans (find?_lo?_eq h.oscillators hg' hlo'))

/-- the group of an edge that carries frequencies has its oscillator -/
theorem exists_group (h : Partitions inv edges groups) (he : e ∈ edges) (ht : e.isTuned inv = true) :
    ∃ g ∈ groups, e.portClock ∈ g.members ∧ g.lo? = e.fedBy? inv := by
  obtain ⟨g, hg, hpc⟩ := (h.members e.portClock).2 ⟨e, he, rfl, isTuned_iff.1 ht⟩
  exact ⟨g, hg, hpc, (h.fed g hg e he hpc).symm⟩

/-- what one oscillator feeds is in one group -/
theorem together_of_fed (h : Partitions inv edges groups) (hne : reported ≠ [])
    (hfed : ∀ pc ∈ reported, ∃ e ∈ edges, e.isTuned inv = true ∧ e.portClock = pc ∧ e.fedBy? inv = some lo) :
    Together groups reported := by
  have hgroup : ∀ pc ∈ reported, ∃ g ∈ groups, pc ∈ g.members ∧ g.lo? = some lo := by
    intro pc hpc
    obtain ⟨e, he, ht, rfl, hlo⟩ := hfed pc hpc
    rw [← hlo]
    exact h.exists_group he ht
  obtain ⟨first, hfirst⟩ := List.exists_mem_of_ne_nil reported hne
  obtain ⟨g, hg, -, hlo⟩ := hgroup first hfirst
  refine ⟨g, hg, fun pc hpc => ?_⟩
  obtain ⟨g', hg', hin, hlo'⟩ := hgroup pc hpc
  rwa [h.eq_of_lo? hg hg' hlo hlo']

/-- what nothing feeds is alone -/
theorem alone_of_unfed (h : Partitions inv edges groups) (he : e ∈ edges) (ht : e.isTuned inv = true)
    (hunfed : e.fedBy? inv = none) : Alone groups e.portClock := by
  obtain ⟨g, hg, hpc, hlo⟩ := h.exists_group he ht
  rw [hunfed] at hlo
  obtain ⟨pc, hmembers⟩ := h.alone g hg hlo
  rw [hmembers, List.mem_singleton] at hpc
  exact ⟨g, hg, hlo, hpc ▸ hmembers⟩

end Frequencies.Partitions

/-! ## Compilations that end with a clash -/

theorem built_of_compile (h : compile config settings = .error (.conflict (.intermediate path frequency reported))) :
    ∃ p v frequencies, Parsed.ofConfig config settings.sanitize.2 = .ok p ∧ p.validate = .ok v ∧
      Frequencies.resolve v.inventory v.options v.wiring = .ok frequencies ∧
      Resolved.build ⟨v, frequencies⟩ = .error (.conflict (.intermediate path frequency reported)) := by
  rcases bind_eq_error_iff.1 h with h | ⟨p, hp, h⟩
  · rcases Parsed.unreadable_of_ofConfig h with ⟨_, heq⟩ | ⟨_, heq⟩ <;> cases heq
  rcases bind_eq_error_iff.1 h with h | ⟨v, hv, h⟩
  · rcases Parsed.unfitting_of_validate h with ⟨_, heq⟩ | ⟨_, heq⟩ <;> cases heq
  rcases bind_eq_error_iff.1 h with h | ⟨resolved, hresolved, h⟩
  · obtain ⟨_, _, heq⟩ := (Validated.sound_of_validate hp hv).resolve_eq_error h
    cases heq
  · obtain ⟨frequencies, hresolve, rfl⟩ := map_eq_ok_iff.1 hresolved
    exact ⟨p, v, frequencies, hp, hv, hresolve, h⟩

/-- the port-clocks that are reported carry frequencies, since their channel has several -/
theorem Validated.Sound.reported_tuned {v : Validated} (hv : v.Sound)
    (hclash : EarliestClash v.options.interm? (portClocksAt v.wiring.edges path) frequency reported) :
    ∀ pc ∈ reported, ∃ e ∈ v.wiring.edges, e.isTuned v.inventory = true ∧ e.channel = path ∧ e.portClock = pc := by
  have hlisted : ∀ pc ∈ reported, pc ∈ v.wiring.portClocksOn path := by
    rw [hclash.all, portClocksAt_eq]
    exact fun pc hpc => List.mem_of_mem_filter hpc
  obtain ⟨first, hfirst, second, hsecond, hne⟩ := hclash.several
  intro pc hpc
  by_cases hsame : pc = first
  · exact hv.exists_tuned (hlisted pc hpc) (hlisted second hsecond) (hsame ▸ hne)
  · exact hv.exists_tuned (hlisted pc hpc) (hlisted first hfirst) hsame

/-- **The groups of a clash.** Port-clocks that are reported for one intermediate frequency are on one channel. They are
in one group iff an oscillator feeds this channel; otherwise each of them is alone in a group without oscillator. -/
theorem compile_clash_groups
    (h : compile config settings = .error (.conflict (.intermediate path frequency reported))) :
    ∃ p r, Parsed.ofConfig config settings.sanitize.2 = .ok p ∧
      Frequencies.resolve p.inventory p.options p.wiring = .ok r ∧
      (∀ pc ∈ reported, pc ∈ portClocksAt config.connectivity.edges path) ∧
      (Together r.groups reported ↔ ∃ lo, Feeds p.inventory config.connectivity.edges path lo) ∧
      ((¬∃ lo, Feeds p.inventory config.connectivity.edges path lo) → ∀ pc ∈ reported, Alone r.groups pc) := by
  obtain ⟨p, v, frequencies, hp, hv, hresolve, hbuild⟩ := built_of_compile h
  have hsound := Validated.sound_of_validate hp hv
  have hclash := (hsound.reportsClash hresolve hbuild).2.clash
  have htuned := hsound.reported_tuned hclash
  obtain ⟨first, hfirst, second, hsecond, hne⟩ := hclash.several
  obtain ⟨backend, -, -, -, hwiring, -⟩ := Parsed.ofConfig_eq_ok_iff.1 hp
  obtain ⟨warnings, -, rfl⟩ := map_eq_ok_iff.1 hv
  obtain rfl := Frequencies.eq_resolution_of_resolve hresolve
  have hgroups := Frequencies.partitions_resolution p.inventory p.options p.wiring.distinct
  have hfeeds : ∀ {e lo}, e ∈ p.wiring.edges → e.channel = path → e.fedBy? p.inventory = some lo →
      Feeds p.inventory p.wiring.edges path lo := by
    intro e lo he hpath hlo e' he' hpath'
    rw [Edge.fedBy?_eq_of_channel_eq hwiring he' he (hpath'.trans hpath.symm), hlo]
  rw [← Wiring.build_edges hwiring]
  refine ⟨p, _, hp, hresolve, ?_, ⟨?_, ?_⟩, ?_⟩
  · intro pc hpc
    obtain ⟨e, he, -, hpath, rfl⟩ := htuned pc hpc
    rw [portClocksAt_eq]
    exact Compile.mem_portClocksOn.2 ⟨e, he, hpath, rfl⟩
  · rintro ⟨g, hg, hmembers⟩
    obtain ⟨e, he, ht, hpath, rfl⟩ := htuned first hfirst
    obtain ⟨e', he', ht', -, rfl⟩ := htuned second hsecond
    have hedges : e ≠ e' := fun heq => hne (congrArg Edge.portClock heq)
    obtain ⟨lo, hlo, -⟩ := (hgroups.together e he e' he' hedges ht ht').1
      ⟨g, hg, hmembers _ hfirst, hmembers _ hsecond⟩
    exact ⟨lo, hfeeds he hpath hlo⟩
  · rintro ⟨lo, hlo⟩
    have hfed : ∀ pc ∈ reported, ∃ e ∈ p.wiring.edges, e.isTuned p.inventory = true ∧ e.portClock = pc ∧
        e.fedBy? p.inventory = some lo := by
      intro pc hpc
      obtain ⟨e, he, ht, hpath, rfl⟩ := htuned pc hpc
      exact ⟨e, he, ht, rfl, hlo e he hpath⟩
    exact hgroups.together_of_fed (List.ne_nil_of_mem hfirst) hfed
  · intro hunfed pc hpc
    obtain ⟨e, he, ht, hpath, rfl⟩ := htuned pc hpc
    refine hgroups.alone_of_unfed he ht (Option.eq_none_iff_forall_ne_some.2 fun lo hlo => ?_)
    exact hunfed ⟨lo, hfeeds he hpath hlo⟩

/-- two port-clocks that ask for the same intermediate frequency -/
def equalRequests : Entries Modulation :=
  [("q0:mw-q0.01", ⟨some (.ofInt 50000000), none⟩), ("q1:mw-q1.01", ⟨some (.ofInt 50000000), none⟩)]

/-- what is reported of them -/
def equalClash : Conflict :=
  .intermediate ⟨"cluster0.module1.complex_output_0"⟩ (.ofInt 50000000) [⟨"q0:mw", "q0.01"⟩, ⟨"q1:mw", "q1.01"⟩]

/-- on a channel with an oscillator they share it -/
theorem multiplexedConfig_together :
    ∃ p r lo, compile (multiplexedConfig (some "lo0") equalRequests) {} = .error (.conflict equalClash) ∧
      Parsed.ofConfig (multiplexedConfig (some "lo0") equalRequests) (Settings.sanitize {}).2 = .ok p ∧
      Frequencies.resolve p.inventory p.options p.wiring = .ok r ∧ Together r.groups equalClash.portClocks ∧
      Feeds p.inventory (multiplexedConfig (some "lo0") equalRequests).connectivity.edges
        ⟨"cluster0.module1.complex_output_0"⟩ lo := by
  have hfails : compile (multiplexedConfig (some "lo0") equalRequests) {} = .error (.conflict equalClash) :=
    conflict?_eq_some_iff.1 (by decide +kernel)
  obtain ⟨p, hp, hchecked⟩ := exists_eq_ok
    (x := Parsed.ofConfig (multiplexedConfig (some "lo0") equalRequests) (Settings.sanitize {}).2)
    (c := fun p => (Frequencies.resolve p.inventory p.options p.wiring).toOption.any fun r =>
      Together r.groups equalClash.portClocks)
    (by decide +kernel)
  obtain ⟨r, hr, htogether⟩ := exists_eq_ok hchecked
  obtain ⟨p', r', hp', hr', -, hgroups, -⟩ := compile_clash_groups hfails
  obtain rfl : p' = p := Except.ok.inj (hp'.symm.trans hp)
  obtain rfl : r' = r := Except.ok.inj (hr'.symm.trans hr)
  obtain ⟨lo, hlo⟩ := hgroups.1 (of_decide_eq_true htogether)
  exact ⟨p', r', lo, hfails, hp, hr, of_decide_eq_true htogether, hlo⟩

/-- **Nothing shared.** On a channel without oscillator they are reported as well, though no group has both. -/
theorem multiplexedConfig_apart :
    ∃ p r, compile (multiplexedConfig none equalRequests) {} = .error (.conflict equalClash) ∧
      Parsed.ofConfig (multiplexedConfig none equalRequests) (Settings.sanitize {}).2 = .ok p ∧
      Frequencies.resolve p.inventory p.options p.wiring = .ok r ∧ ¬Together r.groups equalClash.portClocks := by
  have hfails : compile (multiplexedConfig none equalRequests) {} = .error (.conflict equalClash) :=
    conflict?_eq_some_iff.1 (by decide +kernel)
  obtain ⟨p, hp, hchecked⟩ := exists_eq_ok
    (x := Parsed.ofConfig (multiplexedConfig none equalRequests) (Settings.sanitize {}).2)
    (c := fun p => (Frequencies.resolve p.inventory p.options p.wiring).toOption.any fun r =>
      ¬Together r.groups equalClash.portClocks)
    (by decide +kernel)
  obtain ⟨r, hr, hapart⟩ := exists_eq_ok hchecked
  exact ⟨p, r, hfails, hp, hr, of_decide_eq_true hapart⟩

end RackMap
