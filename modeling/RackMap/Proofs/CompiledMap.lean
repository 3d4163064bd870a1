/-
What a compiled map holds: one channel for each path that is connected, made of its description and its port-clocks.

`compiledChannel` is the channel that is compiled for a path, and `channel?_eq_some_iff` says that a map holds these and
nothing else. The table is kept in the order of the paths, so it is told as a set. `nodup_entries` says that no
port-clock has two entries on it.
-/
import Mathlib.Tactic
import RackMap.CompiledMap
import RackMap.Proofs.Outcome
import RackMap.Proofs.Table
import RackMap.Proofs.Wiring.Index

namespace RackMap

/-- the entries of all channels -/
def CompiledMap.entries (m : CompiledMap) : List CompiledPortClock := m.channels.flatMap fun q => q.2.portClocks

namespace Compile

variable {inv : Inventory} {options : OptionTable} {wiring : Wiring} {settings : Settings} {r : Resolution}
  {warnings : List String} {m : CompiledMap} {path : ChannelPath} {c : CompiledChannel} {described : Channel}
  {q : ChannelPath × CompiledChannel} {pc : PortClock} {lo : OscillatorRef} {asked : List (PortClock × Decimal.Double)}

/-- the channel that is compiled for a path with this description -/
def compiledChannel (inv : Inventory) (options : OptionTable) (wiring : Wiring) (r : Resolution) (path : ChannelPath)
    (described : Channel) : CompiledChannel :=
  { unitType := described.unitType
    kind := described.kind
    direction := described.direction
    oscillator? := ((wiring.portClocksOn path).head?.bind r.lo?).map (oscillator inv r)
    mixLo? := described.mixLo?
    downconverter? := described.downconverter?
    markerDebug? := described.markerDebug?
    portClocks := entries options wiring r path }

theorem channel_eq_ok (h : channel inv options wiring settings r path = .ok q) :
    ∃ described, inv.channel? path = some described ∧
      q = (path, compiledChannel inv options wiring r path described) := by
  unfold channel at h
  cases hd : inv.channel? path with
  | none => rw [hd] at h; cases h
  | some described =>
    rw [hd] at h
    simp only at h
    split at h
    · cases h
    · split at h
      · cases h
      · cases h; exact ⟨described, rfl, rfl⟩

/-- why a channel is not compiled: it is not described, it is overloaded, or intermediate frequencies clash -/
theorem channel_eq_error {failure : Failure} (h : channel inv options wiring settings r path = .error failure) :
    (inv.channel? path = none ∧ failure = .undescribed path none) ∨
      (∃ violation, Crosscheck.overload? inv wiring path = some violation ∧ failure = .duplicates [violation]) ∨
      ∃ frequency pcs, failure = .conflict (.intermediate path frequency pcs) := by
  unfold channel at h
  split at h
  · rename_i hnone
    cases h
    exact Or.inl ⟨hnone, rfl⟩
  · split at h
    · rename_i violation hviolation
      cases h
      exact Or.inr (Or.inl ⟨violation, hviolation, rfl⟩)
    · simp only at h
      split at h
      · rename_i frequency pcs _
        cases h
        exact Or.inr (Or.inr ⟨frequency, pcs, rfl⟩)
      · cases h

/-- the channels before the first one that fails are compiled -/
theorem map_eq_error_iff {failure : Failure} :
    map inv options wiring settings r warnings = .error failure ↔
      ∃ before path after, wiring.channels = before ++ path :: after ∧
        (∀ other ∈ before, ∃ q, channel inv options wiring settings r other = .ok q) ∧
        channel inv options wiring settings r path = .error failure := by
  rw [map, ← mapM_eq_error_iff]
  cases wiring.channels.mapM (channel inv options wiring settings r) <;> simp

theorem map_eq_error {failure : Failure} (h : map inv options wiring settings r warnings = .error failure) :
    ∃ path ∈ wiring.channels, channel inv options wiring settings r path = .error failure := by
  obtain ⟨before, path, after, hsplit, -, hpath⟩ := map_eq_error_iff.1 h
  exact ⟨path, hsplit ▸ List.mem_append_right before List.mem_cons_self, hpath⟩

/-- compiling a map never finds fault with the frequency of an oscillator -/
theorem map_ne_oscillator_conflict :
    map inv options wiring settings r warnings ≠ .error (.conflict (.oscillator lo asked)) := by
  intro h
  obtain ⟨path, -, hpath⟩ := map_eq_error h
  rcases channel_eq_error hpath with ⟨-, heq⟩ | ⟨_, -, heq⟩ | ⟨_, _, heq⟩ <;> cases heq

/-- the table of a compiled map: the channels that were compiled, by path -/
theorem map_eq_ok (h : map inv options wiring settings r warnings = .ok m) :
    m.backend = inv.backend ∧ ∃ channels, m.channels.Perm channels ∧ channels.map Prod.fst = wiring.channels ∧
      wiring.channels.mapM (channel inv options wiring settings r) = .ok channels := by
  obtain ⟨channels, hchannels, h⟩ := bind_eq_ok_iff.1 h
  cases h
  have hpaths : channels.map Prod.fst = wiring.channels := by
    rw [map_of_mapM_eq_ok hchannels (g := Prod.fst) (k := id), List.map_id]
    intro path q hq
    obtain ⟨described, -, rfl⟩ := channel_eq_ok hq
    rfl
  have hnodup : (channels.map Prod.fst).Nodup := by
    rw [hpaths]
    exact wiring.nodup_channels
  exact ⟨rfl, channels, Table.sortedOfPairs_perm hnodup, hpaths, hchannels⟩

/-- the paths of a compiled map are the connected ones, each once -/
theorem keys_perm (h : map inv options wiring settings r warnings = .ok m) :
    m.channels.keys.Perm wiring.channels := by
  obtain ⟨-, channels, hperm, hpaths, -⟩ := map_eq_ok h
  rw [← hpaths]
  exact hperm.map Prod.fst

theorem nodup_keys (h : map inv options wiring settings r warnings = .ok m) : m.channels.keys.Nodup :=
  (keys_perm h).nodup_iff.2 wiring.nodup_channels

theorem mem_channels : path ∈ wiring.channels ↔ ∃ e ∈ wiring.edges, e.channel = path := by
  rw [Wiring.channels_eq, Wiring.mem_firsts, List.mem_map]

/-- **The channels of a compiled map.** -/
theorem channel?_eq_some_iff (h : map inv options wiring settings r warnings = .ok m) :
    m.channel? path = some c ↔
      (∃ e ∈ wiring.edges, e.channel = path) ∧
        ∃ described, inv.channel? path = some described ∧ c = compiledChannel inv options wiring r path described := by
  obtain ⟨-, channels, hperm, hpaths, hchannels⟩ := map_eq_ok h
  have hmem : ∀ q, q ∈ channels → ∃ described, inv.channel? q.1 = some described ∧
      q = (q.1, compiledChannel inv options wiring r q.1 described) := by
    intro q hq
    obtain ⟨path', -, hok⟩ := (mem_of_mapM_eq_ok hchannels).1 hq
    obtain ⟨described, hd, rfl⟩ := channel_eq_ok hok
    exact ⟨described, hd, rfl⟩
  rw [CompiledMap.channel?, Table.lookup?_eq_some_iff (nodup_keys h), hperm.mem_iff, ← mem_channels, ← hpaths]
  constructor
  · intro hq
    obtain ⟨described, hd, heq⟩ := hmem _ hq
    exact ⟨List.mem_map_of_mem hq, described, hd, (Prod.mk.inj heq).2⟩
  · rintro ⟨hpath, described, hd, rfl⟩
    obtain ⟨q, hq, rfl⟩ := List.mem_map.1 hpath
    obtain ⟨described', hd', heq⟩ := hmem q hq
    rw [hd, Option.some.injEq] at hd'
    rw [hd', ← heq]
    exact hq

/-! ## Port-clocks -/

/-- the entry of a port-clock, whichever channel it is on -/
def entry (options : OptionTable) (r : Resolution) (pc : PortClock) : CompiledPortClock :=
  ⟨pc, r.split pc, options.corrections pc⟩

theorem portClocks_entries (options : OptionTable) (wiring : Wiring) (r : Resolution) (path : ChannelPath) :
    (entries options wiring r path).map CompiledPortClock.portClock = wiring.portClocksOn path := by
  rw [entries, List.map_map]
  exact List.map_id _

theorem mem_portClocksOn : pc ∈ wiring.portClocksOn path ↔ ∃ e ∈ wiring.edges, e.channel = path ∧ e.portClock = pc := by
  simp only [Wiring.portClocksOn_eq, List.mem_map, List.mem_filter, decide_eq_true_eq, and_assoc]

theorem nodup_portClocksOn (wiring : Wiring) (path : ChannelPath) : (wiring.portClocksOn path).Nodup := by
  rw [Wiring.portClocksOn_eq]
  exact wiring.distinct.sublist (List.filter_sublist.map Edge.portClock)

/-- a connected port-clock is on the channel of its edge only -/
theorem portClock_mem_portClocksOn {e : Edge} (he : e ∈ wiring.edges) :
    e.portClock ∈ wiring.portClocksOn path ↔ path = e.channel := by
  rw [mem_portClocksOn]
  constructor
  · rintro ⟨e', he', hpath, hpc⟩
    obtain rfl := List.inj_on_of_nodup_map wiring.distinct he' he hpc
    exact hpath.symm
  · rintro rfl
    exact ⟨e, he, rfl, rfl⟩

/-- the entries of a channel are those that are compiled for its path -/
theorem portClocks_of_mem (h : map inv options wiring settings r warnings = .ok m) (hq : q ∈ m.channels) :
    q.2.portClocks = entries options wiring r q.1 := by
  have hchannel : m.channel? q.1 = some q.2 := Table.lookup?_of_mem (nodup_keys h) hq
  obtain ⟨-, described, -, hc⟩ := (channel?_eq_some_iff h).1 hchannel
  rw [hc]
  rfl

/-- the port-clock of an edge has its entry on the channel of the edge -/
theorem entry_of_edge (h : map inv options wiring settings r warnings = .ok m) {e : Edge} (he : e ∈ wiring.edges) :
    ∃ c, m.channel? e.channel = some c ∧ entry options r e.portClock ∈ c.portClocks := by
  have hkey : e.channel ∈ m.channels.keys := (keys_perm h).mem_iff.2 (mem_channels.2 ⟨e, he, rfl⟩)
  obtain ⟨c, hc⟩ := Table.exists_lookup? hkey
  obtain ⟨-, described, -, rfl⟩ := (channel?_eq_some_iff h).1 hc
  exact ⟨_, hc, List.mem_map_of_mem ((portClock_mem_portClocksOn he).2 rfl)⟩

/-- what a search for a port-clock finds: its entry on the channel of an edge with this port-clock -/
theorem edge_of_find? (h : map inv options wiring settings r warnings = .ok m) {found : CompiledPortClock}
    (hfind : m.find? pc = some (path, found)) :
    found = entry options r pc ∧ ∃ e ∈ wiring.edges, e.channel = path ∧ e.portClock = pc := by
  obtain ⟨q, hq, hfound⟩ := List.exists_of_findSome?_eq_some hfind
  obtain ⟨found', hin, heq⟩ := Option.map_eq_some_iff.1 hfound
  cases heq
  have hmem : found ∈ entries options wiring r q.1 := by
    rw [← portClocks_of_mem h hq]
    exact List.mem_of_find?_eq_some hin
  obtain ⟨pc', hpc', rfl⟩ := List.mem_map.1 hmem
  have heq := List.find?_some hin
  simp only [decide_eq_true_eq] at heq
  subst heq
  exact ⟨rfl, mem_portClocksOn.1 hpc'⟩

/-- **Searching a compiled map.** The port-clock of an edge is found on the channel of the edge. -/
theorem find?_of_edge (h : map inv options wiring settings r warnings = .ok m) {e : Edge} (he : e ∈ wiring.edges) :
    m.find? e.portClock = some (e.channel, entry options r e.portClock) := by
  cases hfind : m.find? e.portClock with
  | some q =>
    obtain ⟨hentry, e', he', hpath, hpc⟩ := edge_of_find? h hfind
    obtain rfl := List.inj_on_of_nodup_map wiring.distinct he' he hpc
    rw [hpath, ← hentry]
  | none =>
    obtain ⟨c, hc, hentry⟩ := entry_of_edge h he
    have hnone := List.findSome?_eq_none_iff.1 hfind (e.channel, c) (Table.mem_of_lookup? hc)
    rw [Option.map_eq_none_iff, List.find?_eq_none] at hnone
    exact absurd (decide_eq_true rfl) (hnone _ hentry)

theorem find?_eq_none (h : map inv options wiring settings r warnings = .ok m)
    (hpc : pc ∉ wiring.edges.map Edge.portClock) : m.find? pc = none := by
  cases hfind : m.find? pc with
  | none => rfl
  | some q =>
    obtain ⟨-, e, he, -, heq⟩ := edge_of_find? h hfind
    exact absurd (List.mem_map.2 ⟨e, he, heq⟩) hpc

/-! ## All entries -/

theorem mem_entries (h : map inv options wiring settings r warnings = .ok m) {found : CompiledPortClock}
    (hfound : found ∈ m.entries) :
    ∃ q ∈ m.channels, found.portClock ∈ wiring.portClocksOn q.1 ∧ found = entry options r found.portClock := by
  obtain ⟨q, hq, hin⟩ := List.mem_flatMap.1 hfound
  rw [portClocks_of_mem h hq] at hin
  obtain ⟨pc, hpc, rfl⟩ := List.mem_map.1 hin
  exact ⟨q, hq, hpc, rfl⟩

/-- **One entry for each port-clock.** No port-clock has entries on two channels, or two on one. -/
theorem nodup_entries (h : map inv options wiring settings r warnings = .ok m) :
    (m.entries.map CompiledPortClock.portClock).Nodup := by
  have hlisted : ∀ q ∈ m.channels, q.2.portClocks.map CompiledPortClock.portClock = wiring.portClocksOn q.1 := by
    intro q hq
    rw [portClocks_of_mem h hq, portClocks_entries]
  rw [CompiledMap.entries, List.map_flatMap, List.nodup_flatMap]
  constructor
  · intro q hq
    rw [hlisted q hq]
    exact nodup_portClocksOn wiring q.1
  · have hkeys : m.channels.Pairwise fun a b => a.1 ≠ b.1 := List.pairwise_map.1 (nodup_keys h)
    refine hkeys.imp_of_mem fun {a b} ha hb hne => ?_
    rw [Function.onFun, hlisted a ha, hlisted b hb]
    intro pc hpa hpb
    -- a port-clock on both paths has one edge only, so the paths are the same
    obtain ⟨e, he, hpath, rfl⟩ := mem_portClocksOn.1 hpa
    rw [portClock_mem_portClocksOn he] at hpb
    exact hne (hpath.symm.trans hpb.symm)

end Compile

end RackMap
