/-
Channels and the oscillators of their port-clocks, whatever edges they are wired with.

A map cites one oscillator for a channel, that of its first port-clock. The edges of a document name one oscillator for
each channel; edges that are put together otherwise need not, and no stage of a compilation asks them to. `FedAsCited` says
that the cited oscillator feeds all port-clocks of the channel.
- `Staged.cites`: a channel cites the oscillator of its first edge;
- `Staged.tuned`: a port-clock has the frequency of the oscillator that feeds it, cited or not;
- `compileEdges_feeds`: a cited oscillator feeds the whole channel iff the edges of the channel name the same one, which
  those of a document do.
-/
import Mathlib.Tactic
import RackMap.Proofs.Frequencies.Reordering

namespace RackMap

open RackMap.Decimal (Double)

/-- the stages of a compilation one after the other, for edges from anywhere -/
def compileEdges (settings : Settings) (backend : Backend) (description : HardwareDescription)
    (given : HardwareOptions) (edges : List Edge) : Except Failure (Resolved × CompiledMap) := do
  let inventory ← Inventory.build description backend
  let options ← OptionTable.build given
  let wiring ← Wiring.ofEdges edges
  let validated ← Parsed.validate ⟨settings, inventory, options, wiring⟩
  let resolved ← validated.resolve
  let m ← resolved.build
  return (resolved, m)

/-- what a map is compiled from, with the edges that it is compiled for -/
structure Staged (edges : List Edge) (s : Resolved) (m : CompiledMap) : Prop where
  inventory : ∃ description backend, Inventory.build description backend = .ok s.inventory
  finite : s.options.AsksFinite
  edges_eq : s.wiring.edges = edges
  fits : ∀ e ∈ edges, ∃ channel, Crosscheck.Fits s.inventory e channel
  agreed : ∀ lo, agreed (Frequencies.requests s.inventory s.options edges lo) = true
  frequencies_eq : s.frequencies = Frequencies.resolution s.inventory s.options edges
  map : Compile.map s.inventory s.options s.wiring s.settings s.frequencies s.warnings = .ok m

/-- the oscillator that a channel cites feeds all port-clocks on it, and they have its frequency; a channel that cites
none has port-clocks that nothing feeds -/
structure FedAsCited (inv : Inventory) (edges : List Edge) (path : ChannelPath) (c : CompiledChannel) : Prop where
  fed : ∀ entry ∈ c.portClocks, ∃ e ∈ edges, e.portClock = entry.portClock ∧ e.channel = path ∧
    e.fedBy? inv = c.oscillator?.map CompiledOscillator.lo
  frequency : ∀ o, c.oscillator? = some o → ∀ entry ∈ c.portClocks, SameFrequency o.frequency? entry.frequencies.lo?

variable {settings : Settings} {backend : Backend} {description : HardwareDescription} {given : HardwareOptions}
  {edges : List Edge} {s : Resolved} {m : CompiledMap} {inv : Inventory} {e e' : Edge} {path : ChannelPath}
  {c : CompiledChannel} {channel : Channel} {lo : OscillatorRef} {entry : CompiledPortClock}

/-- edges that fit their channel are fed by one oscillator there iff they name the same one -/
theorem Edge.fedBy?_eq_iff_lo?_eq (hfits : Crosscheck.Fits inv e channel)
    (hfits' : ∃ channel, Crosscheck.Fits inv e' channel) (hchannel : e.channel = e'.channel) :
    e.fedBy? inv = e'.fedBy? inv ↔ e.lo? = e'.lo? := by
  obtain ⟨channel', hfits'⟩ := hfits'
  obtain rfl : channel = channel' := by
    have hsame := hfits.described
    rw [hchannel, hfits'.described, Option.some.injEq] at hsame
    exact hsame.symm
  rw [fedBy?, fedBy?, hfits.described, hfits'.described, Option.bind_some, Option.bind_some, Frequencies.effectiveLo?,
    Frequencies.effectiveLo?]
  cases hbuiltIn : channel.oscillator? with
  | none =>
    rw [Option.none_or, Option.none_or]
    exact (Option.map_injective fun a b h => OscillatorRef.external.inj h).eq_iff
  | some builtIn =>
    -- where an oscillator is built in, no edge names another one
    have hnone : ∀ {e : Edge}, Crosscheck.Fits inv e channel → e.lo? = none := by
      intro e hfits
      refine Option.eq_none_iff_forall_ne_some.2 fun name hname => ?_
      rw [(hfits.oscillator name hname).1] at hbuiltIn
      cases hbuiltIn
    rw [hnone hfits, hnone hfits']
    exact iff_of_true rfl rfl

theorem staged_of_compileEdges (h : compileEdges settings backend description given edges = .ok (s, m)) :
    Staged edges s m := by
  obtain ⟨inventory, hinventory, h⟩ := bind_eq_ok_iff.1 h
  obtain ⟨options, hoptions, h⟩ := bind_eq_ok_iff.1 h
  obtain ⟨wiring, hwiring, h⟩ := bind_eq_ok_iff.1 h
  obtain ⟨validated, hvalidated, h⟩ := bind_eq_ok_iff.1 h
  obtain ⟨resolved, hresolved, h⟩ := bind_eq_ok_iff.1 h
  obtain ⟨built, hbuilt, h⟩ := bind_eq_ok_iff.1 h
  cases h
  obtain ⟨warnings, hwarnings, rfl⟩ := map_eq_ok_iff.1 hvalidated
  obtain ⟨frequencies, hfrequencies, rfl⟩ := map_eq_ok_iff.1 hresolved
  obtain rfl := Wiring.ofEdges_eq_ok_iff.1 hwiring
  obtain ⟨-, hfits, -, -⟩ := Crosscheck.validate_eq_ok_iff.1 hwarnings
  have hresolve := hfrequencies
  rw [Frequencies.resolve_of_fits hoptions hfits] at hresolve
  cases hfind : Frequencies.firstConflict? inventory options wiring.edges with
  | some lo =>
    rw [hfind] at hresolve
    cases hresolve
  | none =>
    exact {
      inventory := ⟨description, backend, hinventory⟩
      finite := OptionTable.asksFinite_of_build hoptions
      edges_eq := rfl
      fits := hfits
      agreed := Frequencies.firstConflict?_eq_none_iff.1 hfind
      frequencies_eq := Frequencies.eq_resolution_of_resolve hfrequencies
      map := hbuilt }

namespace Staged

theorem distinct (h : Staged edges s m) : (edges.map Edge.portClock).Nodup := h.edges_eq ▸ s.wiring.distinct

/-- the port-clocks on a channel are those of its edges -/
theorem mem_portClocks_iff (h : Staged edges s m) (hchannel : m.channel? path = some c) :
    entry ∈ c.portClocks ↔ ∃ e ∈ edges, e.channel = path ∧ Compile.entry s.options s.frequencies e.portClock = entry := by
  obtain ⟨-, described, -, rfl⟩ := (Compile.channel?_eq_some_iff h.map).1 hchannel
  change entry ∈ (s.wiring.portClocksOn path).map (Compile.entry s.options s.frequencies) ↔ _
  rw [List.mem_map]
  constructor
  · rintro ⟨pc, hpc, rfl⟩
    obtain ⟨e, he, hpath, rfl⟩ := Compile.mem_portClocksOn.1 hpc
    exact ⟨e, h.edges_eq ▸ he, hpath, rfl⟩
  · rintro ⟨e, he, hpath, rfl⟩
    exact ⟨e.portClock, Compile.mem_portClocksOn.2 ⟨e, h.edges_eq.symm ▸ he, hpath, rfl⟩, rfl⟩

/-- a channel cites the oscillator of its first edge -/
theorem oscillator?_eq (h : Staged edges s m) (hchannel : m.channel? path = some c) :
    c.oscillator? = ((edges.find? fun e => e.channel = path).bind (Edge.fedBy? s.inventory)).map
      (Compile.oscillator s.inventory s.frequencies) := by
  obtain ⟨-, described, -, rfl⟩ := (Compile.channel?_eq_some_iff h.map).1 hchannel
  have hhead : (s.wiring.portClocksOn path).head? = (edges.find? fun e => e.channel = path).map Edge.portClock := by
    rw [Wiring.portClocksOn_eq, h.edges_eq, List.head?_map, List.head?_filter]
  simp only [Compile.compiledChannel, hhead]
  congr 1
  cases hfind : edges.find? fun e => e.channel = path with
  | none => rfl
  | some first =>
    obtain ⟨description, backend, hinventory⟩ := h.inventory
    rw [Option.map_some, Option.bind_some, Option.bind_some, h.frequencies_eq]
    exact Frequencies.lo?_resolution_of_fits hinventory h.distinct h.fits (List.mem_of_find?_eq_some hfind)

theorem cites (h : Staged edges s m) (hchannel : m.channel? path = some c) :
    c.oscillator?.map CompiledOscillator.lo =
      (edges.find? fun e => e.channel = path).bind (Edge.fedBy? s.inventory) := by
  rw [h.oscillator?_eq hchannel, Option.map_map]
  exact Option.map_id_apply

/-- a port-clock has the frequency of the oscillator that feeds it -/
theorem tuned (h : Staged edges s m) (he : e ∈ edges) (hfed : e.fedBy? s.inventory = some lo) :
    SameFrequency (s.frequencies.frequency? lo) (s.frequencies.split e.portClock).lo? := by
  obtain ⟨description, backend, hinventory⟩ := h.inventory
  rw [h.frequencies_eq]
  exact Frequencies.sameFrequency_of_fed hinventory h.distinct h.fits h.finite (h.agreed lo) he hfed

/-- **One oscillator for a channel.** The oscillator that is cited feeds the channel iff the edges name the same one. -/
theorem feeds_iff (h : Staged edges s m) (hchannel : m.channel? path = some c) :
    FedAsCited s.inventory edges path c ↔
      ∀ e ∈ edges, ∀ e' ∈ edges, e.channel = path → e'.channel = path → e.lo? = e'.lo? := by
  constructor
  · intro hfeeds e he e' he' hpath hpath'
    have hcited : ∀ e ∈ edges, e.channel = path →
        e.fedBy? s.inventory = c.oscillator?.map CompiledOscillator.lo := by
      intro e he hpath
      obtain ⟨other, hother, hpc, -, hfed⟩ :=
        hfeeds.fed _ ((h.mem_portClocks_iff hchannel).2 ⟨e, he, hpath, rfl⟩)
      obtain rfl := List.inj_on_of_nodup_map h.distinct hother he hpc
      exact hfed
    obtain ⟨channel, hfits⟩ := h.fits e he
    exact (Edge.fedBy?_eq_iff_lo?_eq hfits (h.fits e' he') (hpath.trans hpath'.symm)).1
      ((hcited e he hpath).trans (hcited e' he' hpath').symm)
  · intro hsame
    have hcited : ∀ e ∈ edges, e.channel = path →
        e.fedBy? s.inventory = c.oscillator?.map CompiledOscillator.lo := by
      intro e he hpath
      obtain ⟨first, hfirst⟩ : ∃ first, (edges.find? fun e => e.channel = path) = some first :=
        Option.isSome_iff_exists.1 (List.find?_isSome.2 ⟨e, he, decide_eq_true hpath⟩)
      have hin := List.mem_of_find?_eq_some hfirst
      have hon : first.channel = path := by simpa using List.find?_some hfirst
      obtain ⟨channel, hfits⟩ := h.fits e he
      rw [h.cites hchannel, hfirst, Option.bind_some]
      exact (Edge.fedBy?_eq_iff_lo?_eq hfits (h.fits first hin) (hpath.trans hon.symm)).2
        (hsame e he first hin hpath hon)
    constructor
    · intro entry hentry
      obtain ⟨e, he, hpath, rfl⟩ := (h.mem_portClocks_iff hchannel).1 hentry
      exact ⟨e, he, rfl, hpath, hcited e he hpath⟩
    · intro o ho entry hentry
      obtain ⟨e, he, hpath, rfl⟩ := (h.mem_portClocks_iff hchannel).1 hentry
      have hfed := hcited e he hpath
      rw [ho, Option.map_some] at hfed
      rw [h.oscillator?_eq hchannel] at ho
      obtain ⟨lo, -, rfl⟩ := Option.map_eq_some_iff.1 ho
      exact h.tuned he hfed

end Staged

/-- **Channels and oscillators.** Whatever edges a map is compiled for, a channel cites the oscillator of its first edge,
and a port-clock has the frequency of the oscillator that feeds it. The cited oscillator feeds the whole channel iff the
edges of the channel name the same one, which the edges of a document do. -/
theorem compileEdges_feeds (h : compileEdges settings backend description given edges = .ok (s, m)) :
    (∀ path c, m.channel? path = some c →
      (FedAsCited s.inventory edges path c ↔
        ∀ e ∈ edges, ∀ e' ∈ edges, e.channel = path → e'.channel = path → e.lo? = e'.lo?)) ∧
      (∀ path c, m.channel? path = some c → c.oscillator?.map CompiledOscillator.lo =
        (edges.find? fun e => e.channel = path).bind (Edge.fedBy? s.inventory)) ∧
      (∀ e ∈ edges, ∀ lo, e.fedBy? s.inventory = some lo → ∀ entry, m.Lists entry → entry.portClock = e.portClock →
        SameFrequency (s.frequencies.frequency? lo) entry.frequencies.lo?) ∧
      ∀ connectivity, Wiring.build connectivity = .ok s.wiring → ∀ path c, m.channel? path = some c →
        FedAsCited s.inventory edges path c := by
  have hstaged := staged_of_compileEdges h
  refine ⟨fun path c => hstaged.feeds_iff, fun path c => hstaged.cites, ?_, ?_⟩
  · rintro e he lo hfed entry ⟨path, c, hchannel, hentry⟩ hpc
    obtain ⟨e', he', -, rfl⟩ := (hstaged.mem_portClocks_iff hchannel).1 hentry
    obtain rfl := List.inj_on_of_nodup_map hstaged.distinct he' he hpc
    exact hstaged.tuned he hfed
  · intro connectivity hw path c hchannel
    refine (hstaged.feeds_iff hchannel).2 fun e he e' he' hpath hpath' => ?_
    rw [← hstaged.edges_eq] at he he'
    exact Wiring.lo?_eq_of_channel_eq hw he he' (hpath.trans hpath'.symm)

/-- two port-clocks on one channel, the first with the oscillator `lo0` and the second with this one -/
def pairEdges (second : String) : List Edge :=
  [⟨⟨"q0:mw", "q0.01"⟩, ⟨"cluster0.module1.complex_output_0"⟩, some "lo0", none, "edges[0]"⟩,
    ⟨⟨"q1:mw", "q1.01"⟩, ⟨"cluster0.module1.complex_output_0"⟩, some second, none, "edges[1]"⟩]

/-- a rack with the channel and two oscillators -/
def pairDescription : HardwareDescription :=
  [("cluster0", { (default : InstrumentDescription) with type := "Cluster", modules? := some [("1", ⟨"QCM", []⟩)] }),
    ("lo0", { (default : InstrumentDescription) with type := "LocalOscillator" }),
    ("lo1", { (default : InstrumentDescription) with type := "LocalOscillator" })]

/-- the first port-clock asks for a frequency of its oscillator -/
def pairOptions : HardwareOptions where
  modulation? := some [("q0:mw-q0.01", ⟨none, some (.finite false 5)⟩)]

/-- both port-clocks with `lo0`: it is cited and feeds both, with the frequency that the first one asks for -/
theorem pairEdges_fed :
    ∃ s m c, compileEdges {} .qblox pairDescription pairOptions (pairEdges "lo0") = .ok (s, m) ∧
      m.channel? ⟨"cluster0.module1.complex_output_0"⟩ = some c ∧
      FedAsCited s.inventory (pairEdges "lo0") ⟨"cluster0.module1.complex_output_0"⟩ c ∧
      c.oscillator? = some ⟨.external "lo0", some (.finite false 5), none⟩ ∧ c.portClocks.length = 2 := by
  obtain ⟨⟨s, m⟩, h, hcompiled⟩ := exists_eq_ok
    (x := compileEdges {} .qblox pairDescription pairOptions (pairEdges "lo0"))
    (c := fun p => (p.2.channel? ⟨"cluster0.module1.complex_output_0"⟩).any fun c =>
      c.oscillator? = some ⟨.external "lo0", some (.finite false 5), none⟩ ∧ c.portClocks.length = 2)
    (by decide +kernel)
  obtain ⟨c, hchannel, hcited⟩ := (Option.any_eq_true _ _).1 hcompiled
  obtain ⟨hoscillator, hlength⟩ := of_decide_eq_true hcited
  refine ⟨s, m, c, h, hchannel, ?_, hoscillator, hlength⟩
  refine ((compileEdges_feeds h).1 _ c hchannel).2 ?_
  decide

/-- **Two oscillators on one channel.** The second port-clock is fed by `lo1`, and no stage refuses that. The map cites
`lo0` only. -/
theorem pairEdges_crossed :
    ∃ s m c, compileEdges {} .qblox pairDescription pairOptions (pairEdges "lo1") = .ok (s, m) ∧
      m.channel? ⟨"cluster0.module1.complex_output_0"⟩ = some c ∧
      c.oscillator? = some ⟨.external "lo0", some (.finite false 5), none⟩ ∧
      c.portClocks.map (fun entry => entry.frequencies.lo?) = [some (.finite false 5), none] ∧
      (pairEdges "lo1").map (Edge.fedBy? s.inventory) = [some (.external "lo0"), some (.external "lo1")] ∧
      ¬FedAsCited s.inventory (pairEdges "lo1") ⟨"cluster0.module1.complex_output_0"⟩ c := by
  obtain ⟨⟨s, m⟩, h, hcompiled⟩ := exists_eq_ok
    (x := compileEdges {} .qblox pairDescription pairOptions (pairEdges "lo1"))
    (c := fun p => (p.2.channel? ⟨"cluster0.module1.complex_output_0"⟩).any fun c =>
      c.oscillator? = some ⟨.external "lo0", some (.finite false 5), none⟩ ∧
        c.portClocks.map (fun entry => entry.frequencies.lo?) = [some (.finite false 5), none] ∧
        (pairEdges "lo1").map (Edge.fedBy? p.1.inventory) = [some (.external "lo0"), some (.external "lo1")])
    (by decide +kernel)
  obtain ⟨c, hchannel, hcited⟩ := (Option.any_eq_true _ _).1 hcompiled
  obtain ⟨hoscillator, hopen, hfed⟩ := of_decide_eq_true hcited
  refine ⟨s, m, c, h, hchannel, hoscillator, hopen, hfed, fun hfeeds => ?_⟩
  have hsame := ((staged_of_compileEdges h).feeds_iff hchannel).1 hfeeds
  revert hsame
  decide

end RackMap
