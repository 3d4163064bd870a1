/-
What an oscillator and everything that it feeds agree on.

The members of an oscillator are scattered over the channels and modules of a map, and a channel takes the oscillator
of its first port-clock only. `Tunes` says that nothing depends on that choice: a channel cites the oscillator that
feeds all of its port-clocks, and whatever cites or is fed by one oscillator has the same frequency. `compile_tunes`
proves it for every config that compiles.
-/
import Mathlib.Tactic
import RackMap.Proofs.Compilation

namespace RackMap

open RackMap.Decimal (Double)

/-- the described power of an external oscillator -/
def Inventory.power? (inv : Inventory) : OscillatorRef → Option Double
  | .external name => (inv.oscillator? name).bind Oscillator.power?
  | .integrated _ _ => none

/-- an entry on one of the channels -/
def CompiledMap.Lists (m : CompiledMap) (entry : CompiledPortClock) : Prop :=
  ∃ path c, m.channel? path = some c ∧ entry ∈ c.portClocks

variable {config : Config} {settings : Settings} {p : Parsed} {warnings : List String} {m : CompiledMap}
  {edges : List Edge} {inv : Inventory} {options : OptionTable} {path : ChannelPath} {c : CompiledChannel} {e e' : Edge}
  {pc : PortClock} {lo : OscillatorRef} {f : Double} {entry : CompiledPortClock}

/-- what the channels that cite an oscillator and the port-clocks that it feeds have in common -/
structure Shares (edges : List Edge) (inv : Inventory) (options : OptionTable) (m : CompiledMap) (lo : OscillatorRef)
    (frequency? : Option Double) : Prop where
  channels : ∀ path c o, m.channel? path = some c → c.oscillator? = some o → o.lo = lo →
    o.frequency? = frequency? ∧ o.power? = inv.power? lo
  unasked : frequency? = none ↔ ∀ pc ∈ Frequencies.members inv edges lo, (options.modulation pc).lo? = none
  asked : ∀ f, frequency? = some f → ∃ pc ∈ Frequencies.members inv edges lo, (options.modulation pc).lo? = some f
  members : ∀ f, frequency? = some f → ∀ entry, m.Lists entry → entry.portClock ∈ Frequencies.members inv edges lo →
    ∃ g, entry.frequencies.lo? = some g ∧ g.same f = true
  unset : frequency? = none → ∀ entry, m.Lists entry → entry.portClock ∈ Frequencies.members inv edges lo →
    entry.frequencies.lo? = none

/-- the channels cite the oscillators that feed them, and no frequency is derived -/
structure Tunes (edges : List Edge) (inv : Inventory) (options : OptionTable) (m : CompiledMap) : Prop where
  listed : ∀ e ∈ edges, ∃ c entry, m.channel? e.channel = some c ∧ entry ∈ c.portClocks ∧ entry.portClock = e.portClock
  cites : ∀ path c lo, m.channel? path = some c →
    (c.oscillator?.map CompiledOscillator.lo = some lo ↔ ∀ e ∈ edges, e.channel = path → e.fedBy? inv = some lo)
  shared : ∀ lo, ∃ frequency?, Shares edges inv options m lo frequency?
  unfed : ∀ e ∈ edges, e.isTuned inv = true → e.fedBy? inv = none → ∀ entry, m.Lists entry →
    entry.portClock = e.portClock → entry.frequencies.lo? = (options.modulation e.portClock).lo?
  intermediate : ∀ e ∈ edges, e.isTuned inv = true → ∀ entry, m.Lists entry →
    entry.portClock = e.portClock → entry.frequencies.interm? = (options.modulation e.portClock).interm?

/-! ## The first request -/

namespace Frequencies

theorem firstRequest?_eq_none_iff :
    firstRequest? inv options edges lo = none ↔ ∀ pc ∈ members inv edges lo, (options.modulation pc).lo? = none := by
  rw [firstRequest?, Option.map_eq_none_iff, List.head?_eq_none_iff, requests, List.filterMap_eq_nil_iff]
  simp only [Option.map_eq_none_iff]

theorem mem_requests_of_firstRequest? (h : firstRequest? inv options edges lo = some f) :
    ∃ pc, (pc, f) ∈ requests inv options edges lo := by
  obtain ⟨⟨pc, g⟩, hhead, rfl⟩ := Option.map_eq_some_iff.1 h
  exact ⟨pc, List.mem_of_mem_head? hhead⟩

/-- if the members agree, each asks for the first request or takes it over -/
theorem same_firstRequest? (hagreed : agreed (requests inv options edges lo) = true)
    (hfirst : firstRequest? inv options edges lo = some f) (hpc : pc ∈ members inv edges lo)
    (hfinite : options.AsksFinite) :
    ∃ g, (options.modulation pc).lo?.or (some f) = some g ∧ g.same f = true := by
  obtain ⟨pc', hrequest⟩ := mem_requests_of_firstRequest? hfirst
  cases hown : (options.modulation pc).lo? with
  | some g => exact ⟨g, rfl, agreed_iff.1 hagreed (pc, g) (mem_requests.2 ⟨hpc, hown⟩) (pc', f) hrequest⟩
  | none => exact ⟨f, rfl, Double.same_self_of_isFinite (hfinite pc' f (mem_requests.1 hrequest).2)⟩

end Frequencies

/-! ## Edges that fit -/

/-- nothing feeds a digital channel -/
theorem Edge.fedBy?_eq_none_of_fits {description : HardwareDescription} {backend : Backend} {channel : Channel}
    (hinventory : Inventory.build description backend = .ok inv) (hfits : Crosscheck.Fits inv e channel)
    (ht : e.isTuned inv = false) : e.fedBy? inv = none := by
  have hkind : channel.kind = .digital := by
    rw [isTuned, hfits.described, Option.any_some] at ht
    cases hk : channel.kind <;> rw [hk] at ht <;> first | rfl | cases ht
  have hlo : e.lo? = none := by
    by_contra hne
    obtain ⟨name, hname⟩ := Option.ne_none_iff_exists'.1 hne
    exact (hfits.oscillator name hname).2.1 hkind
  rw [fedBy?, hfits.described, Option.bind_some, Frequencies.effectiveLo?, hlo,
    Inventory.oscillator?_eq_none_of_digital hinventory hfits.described hkind]
  rfl

/-- a resolution tells of a port-clock the oscillator that feeds its edge -/
theorem Frequencies.lo?_resolution_of_fits {description : HardwareDescription} {backend : Backend}
    (hinventory : Inventory.build description backend = .ok inv) (hnodup : (edges.map Edge.portClock).Nodup)
    (hfits : ∀ e ∈ edges, ∃ channel, Crosscheck.Fits inv e channel) (he : e ∈ edges) :
    (resolution inv options edges).lo? e.portClock = e.fedBy? inv := by
  rw [lo?_resolution hnodup he]
  split
  · rfl
  · rename_i ht
    obtain ⟨channel, hchannel⟩ := hfits e he
    rw [Edge.fedBy?_eq_none_of_fits hinventory hchannel (Bool.eq_false_iff.2 ht)]

/-! ## A compiled map -/

/-- edges on one channel have the same oscillator -/
theorem Edge.fedBy?_eq_of_channel_eq {connectivity : Connectivity} {w : Wiring}
    (hw : Wiring.build connectivity = .ok w) (he : e ∈ w.edges) (he' : e' ∈ w.edges)
    (hchannel : e.channel = e'.channel) : e.fedBy? inv = e'.fedBy? inv := by
  unfold fedBy? Frequencies.effectiveLo?
  rw [hchannel, Wiring.lo?_eq_of_channel_eq hw he he' hchannel]

namespace Compiled

/-- the frequencies that a map is compiled with -/
abbrev resolution (p : Parsed) : Resolution := Frequencies.resolution p.inventory p.options p.wiring.edges

theorem fedBy?_eq (hc : Compiled config p warnings m) (he : e ∈ p.wiring.edges) (he' : e' ∈ p.wiring.edges)
    (hchannel : e.channel = e'.channel) : e.fedBy? p.inventory = e'.fedBy? p.inventory :=
  Edge.fedBy?_eq_of_channel_eq hc.wiring he he' hchannel

theorem lo?_resolution (hc : Compiled config p warnings m) (he : e ∈ p.wiring.edges) :
    (resolution p).lo? e.portClock = e.fedBy? p.inventory :=
  Frequencies.lo?_resolution_of_fits hc.inventory p.wiring.distinct hc.fits he

/-- the oscillator of a channel is that of each of its edges, not only of the first -/
theorem oscillator?_eq (hc : Compiled config p warnings m) (hchannel : m.channel? e.channel = some c)
    (he : e ∈ p.wiring.edges) :
    c.oscillator? = (e.fedBy? p.inventory).map (Compile.oscillator p.inventory (resolution p)) := by
  obtain ⟨-, described, -, rfl⟩ := (Compile.channel?_eq_some_iff hc.map).1 hchannel
  cases hhead : (p.wiring.portClocksOn e.channel).head? with
  | none =>
    rw [List.head?_eq_none_iff] at hhead
    have hmem := (Compile.portClock_mem_portClocksOn he).2 rfl
    rw [hhead] at hmem
    cases hmem
  | some pc =>
    obtain ⟨first, hfirst, hpath, rfl⟩ := Compile.mem_portClocksOn.1 (List.mem_of_mem_head? hhead)
    simp only [Compile.compiledChannel, hhead, Option.bind_some]
    rw [lo?_resolution hc hfirst, fedBy?_eq hc hfirst he hpath]

theorem lo_of_oscillator? (hc : Compiled config p warnings m) (hchannel : m.channel? e.channel = some c)
    (he : e ∈ p.wiring.edges) : c.oscillator?.map CompiledOscillator.lo = e.fedBy? p.inventory := by
  rw [oscillator?_eq hc hchannel he, Option.map_map]
  exact Option.map_id_apply

/-- the frequencies of an entry on a map, by the edge of its port-clock -/
theorem entry_eq (hc : Compiled config p warnings m) (hentry : m.Lists entry) :
    ∃ e ∈ p.wiring.edges, e.portClock = entry.portClock ∧
      entry.frequencies = (resolution p).split e.portClock := by
  obtain ⟨path, c, hchannel, hin⟩ := hentry
  obtain ⟨-, described, -, rfl⟩ := (Compile.channel?_eq_some_iff hc.map).1 hchannel
  obtain ⟨pc, hpc, rfl⟩ := List.mem_map.1 hin
  obtain ⟨e, he, -, rfl⟩ := Compile.mem_portClocksOn.1 hpc
  exact ⟨e, he, rfl, rfl⟩

/-- the frequencies of an entry on a tuned channel: what it asks for, and else that of its oscillator -/
theorem frequencies_eq (hc : Compiled config p warnings m) (hentry : m.Lists entry) (he : e ∈ p.wiring.edges)
    (hpc : entry.portClock = e.portClock) (ht : e.isTuned p.inventory = true) :
    entry.frequencies = ⟨(p.options.modulation e.portClock).interm?,
      (p.options.modulation e.portClock).lo?.or
        ((e.fedBy? p.inventory).bind (Frequencies.firstRequest? p.inventory p.options p.wiring.edges))⟩ := by
  obtain ⟨e', he', hpc', hsplit⟩ := entry_eq hc hentry
  obtain rfl := List.inj_on_of_nodup_map p.wiring.distinct he' he (hpc'.trans hpc)
  rw [hsplit, Frequencies.split_resolution p.wiring.distinct he ht]

/-- the oscillator of a map and all that it feeds have the frequency that is asked for first -/
theorem shares (hc : Compiled config p warnings m) (lo : OscillatorRef) :
    Shares p.wiring.edges p.inventory p.options m lo
      (Frequencies.firstRequest? p.inventory p.options p.wiring.edges lo) := by
  have hmember : ∀ entry, m.Lists entry → entry.portClock ∈ Frequencies.members p.inventory p.wiring.edges lo →
      entry.frequencies.lo? = (p.options.modulation entry.portClock).lo?.or
        (Frequencies.firstRequest? p.inventory p.options p.wiring.edges lo) := by
    intro entry hentry hmem
    obtain ⟨e, he, ht, hfed, hpc⟩ := Frequencies.mem_members.1 hmem
    rw [frequencies_eq hc hentry he hpc.symm ht, hfed, hpc]
    rfl
  refine ⟨?_, Frequencies.firstRequest?_eq_none_iff, ?_, ?_, ?_⟩
  · intro path c o hchannel ho hlo
    obtain ⟨⟨e, he, rfl⟩, -⟩ := (Compile.channel?_eq_some_iff hc.map).1 hchannel
    rw [oscillator?_eq hc hchannel he] at ho
    obtain ⟨lo', -, rfl⟩ := Option.map_eq_some_iff.1 ho
    obtain rfl : lo' = lo := hlo
    refine ⟨Frequencies.frequency?_resolution lo', ?_⟩
    cases lo' <;> rfl
  · intro f hf
    obtain ⟨pc, hrequest⟩ := Frequencies.mem_requests_of_firstRequest? hf
    exact ⟨pc, Frequencies.mem_requests.1 hrequest⟩
  · intro f hf entry hentry hmem
    rw [hmember entry hentry hmem, hf]
    exact Frequencies.same_firstRequest? (hc.agreed lo) hf hmem (OptionTable.asksFinite_of_build hc.options)
  · intro hf entry hentry hmem
    rw [hmember entry hentry hmem, hf, Frequencies.firstRequest?_eq_none_iff.1 hf _ hmem]
    rfl

theorem tunes (hc : Compiled config p warnings m) : Tunes p.wiring.edges p.inventory p.options m := by
  refine ⟨?_, ?_, fun lo => ⟨_, shares hc lo⟩, ?_, ?_⟩
  · intro e he
    obtain ⟨c, hchannel, hentry⟩ := Compile.entry_of_edge hc.map he
    exact ⟨c, _, hchannel, hentry, rfl⟩
  · intro path c lo hchannel
    obtain ⟨⟨e, he, rfl⟩, -⟩ := (Compile.channel?_eq_some_iff hc.map).1 hchannel
    rw [lo_of_oscillator? hc hchannel he]
    constructor
    · intro hlo e' he' hpath
      rw [fedBy?_eq hc he' he hpath]
      exact hlo
    · intro hall
      exact hall e he rfl
  · intro e he ht hfed entry hentry hpc
    rw [frequencies_eq hc hentry he hpc ht, hfed]
    exact Option.or_none
  · intro e he ht entry hentry hpc
    rw [frequencies_eq hc hentry he hpc ht]

end Compiled

/-- **Oscillators of a compiled map.** A channel cites the oscillator of all its port-clocks. Whatever cites or is fed
by one oscillator has one frequency, the first that a member asks for, and no frequency is made up. -/
theorem compile_tunes (h : compile config settings = .ok m) :
    ∃ inv options, Inventory.build config.description m.backend = .ok inv ∧
      OptionTable.build (Parsed.optionsOf config) = .ok options ∧
      Tunes config.connectivity.edges inv options m := by
  obtain ⟨p, warnings, hc⟩ := compile_compiled h
  refine ⟨p.inventory, p.options, hc.inventory, hc.options, ?_⟩
  rw [← hc.edges]
  exact hc.tunes

/-- two port-clocks on one oscillator, of which the first asks for its frequency; the second takes it over -/
theorem sharedConfig_tuned :
    ∃ m, compile (sharedConfig (some (.finite false 5)) none) {} = .ok m ∧
      (m.channels.map fun q => (q.1, q.2.oscillator?)) =
        [(⟨"cluster0.module1.complex_output_0"⟩, some ⟨.external "lo0", some (.finite false 5), none⟩)] ∧
      (m.channels.flatMap fun q => q.2.portClocks.map fun entry => (entry.portClock, entry.frequencies.lo?)) =
        [(⟨"q0:mw", "q0.01"⟩, some (.finite false 5)), (⟨"q1:mw", "q1.01"⟩, some (.finite false 5))] ∧
      ∃ inv options, Inventory.build (sharedConfig (some (.finite false 5)) none).description m.backend = .ok inv ∧
        OptionTable.build (Parsed.optionsOf (sharedConfig (some (.finite false 5)) none)) = .ok options ∧
        Tunes (sharedConfig (some (.finite false 5)) none).connectivity.edges inv options m := by
  obtain ⟨m, hm, htuned⟩ := exists_eq_ok (x := compile (sharedConfig (some (.finite false 5)) none) {})
    (c := fun m => (m.channels.map fun q => (q.1, q.2.oscillator?)) =
        [(⟨"cluster0.module1.complex_output_0"⟩, some ⟨.external "lo0", some (.finite false 5), none⟩)] ∧
      (m.channels.flatMap fun q => q.2.portClocks.map fun entry => (entry.portClock, entry.frequencies.lo?)) =
        [(⟨"q0:mw", "q0.01"⟩, some (.finite false 5)), (⟨"q1:mw", "q1.01"⟩, some (.finite false 5))])
    (by decide +kernel)
  obtain ⟨hoscillators, hfrequencies⟩ := of_decide_eq_true htuned
  exact ⟨m, hm, hoscillators, hfrequencies, compile_tunes hm⟩

end RackMap
