/-
The sequencers of a module.

A channel appends a sequencer for each of its port-clocks and numbers it by how many its module has already, whichever
channels brought those. The channels of all modules come in one run, but only those of a module touch its sequencers.
- `unitEntries`: the port-clocks of a unit, channel by channel, which is the order of its sequencers;
- `sequencers_of_applyChannel` is one channel, `unitEntries_addChannel` one step of the run, and
  `unitEntries_of_modules` all of it: the sequencers of a module are those of the port-clocks of its unit, each numbered
  by its place;
- `compile_sequences`: so it is in all settings of a config; too many are reported only of a module that has too many.
-/
import Mathlib.Tactic
import RackMap.Proofs.Instrument.Programs
import RackMap.Proofs.Instrument.Provided
import RackMap.Proofs.Instrument.Registers

namespace RackMap.Instrument.Qblox

open RackMap.Decimal (Double)

variable {config : Config} {settings : Settings} {p : Parsed} {warnings : List String} {m : CompiledMap}
  {s : QbloxSettings} {path : ChannelPath} {channel : CompiledChannel} {ms ms' : ModuleSettings} {ioName unit : String}
  {entries : List CompiledPortClock} {entry : CompiledPortClock} {q : ChannelPath × CompiledChannel}
  {channels done : List (ChannelPath × CompiledChannel)} {modules modules' : Table String ModuleSettings}
  {index : Nat} {made : SequencerSettings}

/-! ## One channel -/

/-- the port-clocks of a channel with the name of the channel -/
def channelEntries (q : ChannelPath × CompiledChannel) : List (String × CompiledPortClock) :=
  q.2.portClocks.map fun entry => (q.1.name, entry)

/-- the sequencers of port-clocks, numbered from `start` on -/
def numbered (start : Nat) (entries : List (String × CompiledPortClock)) : List (Except Fault SequencerSettings) :=
  entries.mapIdx fun i x => sequencer (start + i) x.1 x.2

theorem numbered_cons (start : Nat) (x : String × CompiledPortClock) (rest : List (String × CompiledPortClock)) :
    numbered start (x :: rest) = sequencer start x.1 x.2 :: numbered (start + 1) rest := by
  simp only [numbered, List.mapIdx_cons, Nat.add_zero, Nat.add_right_comm start 1, Nat.add_assoc start]

theorem numbered_append (start : Nat) (before after : List (String × CompiledPortClock)) :
    numbered start (before ++ after) = numbered start before ++ numbered (start + before.length) after := by
  simp only [numbered, List.mapIdx_append, Nat.add_assoc, Nat.add_comm before.length]

/-- port-clocks are taken iff each has a sequencer, and these are appended -/
theorem foldlM_addSequencer_eq_ok_iff :
    entries.foldlM (addSequencer ioName) ms = .ok ms' ↔
      ∃ added, numbered ms.sequencers.length (entries.map fun entry => (ioName, entry)) = added.map .ok ∧
        ms' = { ms with sequencers := ms.sequencers ++ added } := by
  induction entries generalizing ms with
  | nil => simp [numbered, eq_comm]
  | cons entry entries ih =>
    rw [List.map_cons, numbered_cons, List.foldlM_cons, addSequencer]
    cases sequencer ms.sequencers.length ioName entry with
    | error fault =>
      simp only [error_bind, reduceCtorEq, false_iff, not_exists, not_and]
      intro added hadded
      cases added <;> cases hadded
    | ok made =>
      simp only [ok_bind, pure_eq_ok, ih, List.length_append, List.length_singleton, List.append_assoc]
      constructor
      · rintro ⟨added, hadded, rfl⟩
        exact ⟨made :: added, by rw [hadded, List.map_cons], rfl⟩
      · rintro ⟨added, hadded, rfl⟩
        obtain ⟨made', rest, rfl, hmade, hrest⟩ := List.map_eq_cons_iff.1 hadded.symm
        cases hmade
        exact ⟨rest, hrest.symm, rfl⟩

/-- **One channel.** It appends the sequencers of its port-clocks, numbered from those that are there. -/
theorem sequencers_of_applyChannel (h : applyChannel q.1 q.2 ms = .ok ms') :
    ms'.unitType = ms.unitType ∧ ∃ added, numbered ms.sequencers.length (channelEntries q) = added.map .ok ∧
      ms'.sequencers = ms.sequencers ++ added := by
  refine ⟨(applied_of_applyChannel h).unitType, ?_⟩
  obtain ⟨index, m₁, m₂, m₃, -, h₁, h₂, h₃, h⟩ := applyChannel_eq_ok_iff.1 h
  have hbefore : m₃.sequencers = ms.sequencers := by
    obtain ⟨lo0?, lo1?, hframe⟩ := applyOscillator_frame q.2 ms
    have hadjusts := ((adjusts_of_applyAttenuation h₁).trans (adjusts_of_applyGain h₂)).trans
      (adjusts_of_applyOffsets h₃)
    rw [hadjusts.sequencers, hframe]
  obtain ⟨added, hadded, rfl⟩ := foldlM_addSequencer_eq_ok_iff.1 h
  rw [hbefore] at hadded
  exact ⟨added, hadded, by rw [← hbefore]⟩

/-! ## The channels of a unit -/

/-- the port-clocks on the channels of a unit, in the order of the channels -/
def unitEntries (channels : List (ChannelPath × CompiledChannel)) (unit : String) :
    List (String × CompiledPortClock) :=
  (channels.filter fun q => q.1.parent? = some unit).flatMap channelEntries

theorem unitEntries_concat (hparent : q.1.parent? = some unit) :
    unitEntries (done ++ [q]) unit = unitEntries done unit ++ channelEntries q := by
  simp [unitEntries, List.filter_append, hparent]

theorem unitEntries_concat_of_ne (hparent : q.1.parent? ≠ some unit) :
    unitEntries (done ++ [q]) unit = unitEntries done unit := by
  simp [unitEntries, hparent]

/-- the sequencers of a module, none before its first channel is taken -/
def sequencersOf (modules : Table String ModuleSettings) (unit : String) : List SequencerSettings :=
  ((modules.lookup? unit).map ModuleSettings.sequencers).getD []

/-- **One channel more.** -/
theorem unitEntries_addChannel
    (hdone : ∀ unit, numbered 0 (unitEntries done unit) = (sequencersOf modules unit).map .ok)
    (hadd : addChannel modules q = .ok modules') (unit : String) :
    numbered 0 (unitEntries (done ++ [q]) unit) = (sequencersOf modules' unit).map .ok := by
  obtain ⟨module, ms', hparent, happly, rfl⟩ := addChannel_eq_ok_iff.1 hadd
  rw [sequencersOf, Table.lookup?_putSorted]
  split
  · rename_i hunit
    subst hunit
    have hstart : ((modules.lookup? unit).getD { unitType := q.2.unitType }).sequencers =
        sequencersOf modules unit := by
      unfold sequencersOf
      cases modules.lookup? unit <;> rfl
    have hlength : (unitEntries done unit).length = (sequencersOf modules unit).length := by
      have := congrArg List.length (hdone unit)
      simpa [numbered] using this
    obtain ⟨-, added, hadded, hsequencers⟩ := sequencers_of_applyChannel happly
    rw [hstart] at hadded hsequencers
    rw [unitEntries_concat hparent, numbered_append, hdone, hlength, Nat.zero_add, hadded, Option.map_some,
      Option.getD_some, hsequencers, List.map_append]
  · rename_i hother
    have hne : q.1.parent? ≠ some unit := by
      intro hsame
      exact hother (Option.some.inj (hsame.symm.trans hparent))
    rw [unitEntries_concat_of_ne hne, hdone, sequencersOf]

/-- **All channels.** The sequencers of a module are those of the port-clocks of its unit, numbered from 0. -/
theorem unitEntries_of_modules (hmodules : channels.foldlM addChannel [] = .ok modules) (unit : String) :
    numbered 0 (unitEntries channels unit) = (sequencersOf modules unit).map .ok :=
  foldlM_induction (fun done (modules : Table String ModuleSettings) =>
      ∀ unit, numbered 0 (unitEntries done unit) = (sequencersOf modules unit).map .ok)
    (fun _ => rfl) (fun _ _ _ _ _ hdone hadd => unitEntries_addChannel hdone hadd) hmodules unit

/-- a module has the type of one of its channels -/
theorem exists_unitType_of_modules (hmodules : channels.foldlM addChannel [] = .ok modules)
    (hms : modules.lookup? unit = some ms) : ∃ q ∈ channels, q.1.parent? = some unit ∧ ms.unitType = q.2.unitType := by
  refine foldlM_induction (fun done (modules : Table String ModuleSettings) => ∀ unit ms,
    modules.lookup? unit = some ms → ∃ q ∈ done, q.1.parent? = some unit ∧ ms.unitType = q.2.unitType)
    (by simp) ?_ hmodules unit ms hms
  intro done q modules modules' _ hdone hadd unit ms hms
  obtain ⟨module, ms', hparent, happly, rfl⟩ := addChannel_eq_ok_iff.1 hadd
  have hbefore : ∀ ms, modules.lookup? unit = some ms →
      ∃ q' ∈ done ++ [q], q'.1.parent? = some unit ∧ ms.unitType = q'.2.unitType := by
    intro ms hms
    obtain ⟨q', hq', hfound⟩ := hdone unit ms hms
    exact ⟨q', List.mem_append_left _ hq', hfound⟩
  rw [Table.lookup?_putSorted] at hms
  split at hms
  · rename_i hunit
    subst hunit
    cases hms
    rw [(sequencers_of_applyChannel happly).1]
    cases hlookup : modules.lookup? unit with
    | some ms => exact hbefore ms hlookup
    | none => exact ⟨q, by simp, hparent, rfl⟩
  · exact hbefore ms hms

/-! ## Settings of a map -/

/-- sequencers are missing only on a module all of whose channels are taken -/
theorem tooMany_of_generate (hbackend : m.backend = .qblox) {required available : Nat}
    (h : generate m = .error (.tooManySequencers unit required available)) :
    ∃ modules ms, m.channels.foldlM addChannel [] = .ok modules ∧ (unit, ms) ∈ modules ∧
      required = ms.sequencers.length ∧ available = sequencerCount ms.unitType ∧ available < required := by
  rw [generate_eq hbackend] at h
  rcases bind_eq_error_iff.1 h with h | ⟨modules, hmodules, h⟩
  · obtain ⟨q, -, modules, hadd⟩ := exists_of_foldlM_eq_error h
    rcases addChannel_eq_error hadd with ⟨-, hfault⟩ | hrefused
    · cases hfault
    · cases hrefused
  · rcases bind_eq_error_iff.1 h with h | ⟨checked, -, h⟩
    · obtain ⟨⟨unit', ms⟩, hin, hcheck⟩ := exists_of_mapM_eq_error h
      obtain ⟨hmany, hfault⟩ := checkSequencers_eq_error hcheck
      cases hfault
      exact ⟨modules, ms, hmodules, hin, rfl, rfl, hmany⟩
    · cases h

/-- the sequencer of a port-clock on the channel with this name; its oscillator runs at any frequency but 0 -/
structure Drives (index : Nat) (ioName : String) (entry : CompiledPortClock) (made : SequencerSettings) : Prop where
  index : made.index = index
  portClock : made.portClock = entry.portClock
  ioName : made.ioName = ioName
  modulation : made.modulation? = entry.frequencies.interm?
  enabled : made.ncoEnabled = true ↔ ∃ f, entry.frequencies.interm? = some f ∧ f.same .zero = false

theorem drives_of_sequencer (h : sequencer index ioName entry = .ok made) : Drives index ioName entry made := by
  unfold sequencer at h
  obtain ⟨gainRatio, -, h⟩ := bind_eq_ok_iff.1 h
  obtain ⟨phaseOffset, -, h⟩ := bind_eq_ok_iff.1 h
  cases h
  exact ⟨rfl, rfl, rfl, rfl, by simp [Option.any_eq_true]⟩

/-- the sequencers of all modules -/
structure Sequences (edges : List Edge) (m : CompiledMap) (s : QbloxSettings) : Prop where
  /-- the modules are the units that have a channel, each once -/
  units : ∀ unit, unit ∈ s.modules.keys ↔ ∃ q ∈ m.channels, q.1.parent? = some unit
  distinct : s.modules.keys.Nodup
  /-- there is a sequencer for each port-clock of a unit, numbered by its place -/
  count : ∀ unit ms, s.modules.lookup? unit = some ms → ms.sequencers.length = (unitEntries m.channels unit).length
  drives : ∀ unit ms, s.modules.lookup? unit = some ms → ∀ i x, (unitEntries m.channels unit)[i]? = some x →
    ∃ made, ms.sequencers[i]? = some made ∧ Drives i x.1 x.2 made
  once : ∀ unit, ((unitEntries m.channels unit).map fun x => x.2.portClock).Nodup
  /-- the channels stand in the order of their paths, and the port-clocks of a channel in that of the document -/
  paths : m.channels.Ascending
  listed : ∀ q ∈ m.channels,
    q.2.portClocks.map CompiledPortClock.portClock = (edges.filter (·.channel = q.1)).map Edge.portClock
  /-- no module has more than its type provides -/
  provided : ∀ unit ms, s.modules.lookup? unit = some ms → ∀ q ∈ m.channels, q.1.parent? = some unit →
    ms.sequencers.length ≤ sequencerCount q.2.unitType

/-- all units with channels have the same number of sequencers -/
theorem sequencers_slot : ∀ type ∈ Backend.qblox.unitTypes, ∀ slot ∈ type.channels, type.sequencers? = some 6 := by
  decide

/-- the sequencers of a module are those of the port-clocks of its unit -/
theorem sequencers_of_modules (hmodules : channels.foldlM addChannel [] = .ok modules)
    (hms : modules.lookup? unit = some ms) : numbered 0 (unitEntries channels unit) = ms.sequencers.map .ok := by
  rw [unitEntries_of_modules hmodules, sequencersOf, hms]
  rfl

theorem length_sequencers (hmodules : channels.foldlM addChannel [] = .ok modules)
    (hms : modules.lookup? unit = some ms) : ms.sequencers.length = (unitEntries channels unit).length := by
  have hlength := congrArg List.length (sequencers_of_modules hmodules hms)
  simpa [numbered] using hlength.symm

theorem exists_drives (hmodules : channels.foldlM addChannel [] = .ok modules) (hms : modules.lookup? unit = some ms)
    {i : Nat} {x : String × CompiledPortClock} (hx : (unitEntries channels unit)[i]? = some x) :
    ∃ made, ms.sequencers[i]? = some made ∧ Drives i x.1 x.2 made := by
  have hmade := congrArg (·[i]?) (sequencers_of_modules hmodules hms)
  simp only [numbered, List.getElem?_mapIdx, hx, Option.map_some, Nat.zero_add, List.getElem?_map] at hmade
  obtain ⟨made, hin, hok⟩ := Option.map_eq_some_iff.1 hmade.symm
  exact ⟨made, hin, drives_of_sequencer hok.symm⟩

section Compiled

variable (hc : Compiled config p warnings m)

include hc

/-- the port-clocks of a unit are different ones -/
theorem nodup_unitEntries (unit : String) : ((unitEntries m.channels unit).map fun x => x.2.portClock).Nodup := by
  have hentries : (unitEntries m.channels unit).map (fun x => x.2.portClock) =
      ((m.channels.filter fun q => q.1.parent? = some unit).flatMap fun q => q.2.portClocks).map
        CompiledPortClock.portClock := by
    simp only [unitEntries, channelEntries, List.map_flatMap, List.map_map, Function.comp_def]
  rw [hentries]
  refine (Compile.nodup_entries hc.map).sublist (List.Sublist.map _ ?_)
  exact List.filter_sublist.flatMap _

/-- the port-clocks of a channel are those of its edges, in document order -/
theorem portClocks_eq (hq : q ∈ m.channels) : q.2.portClocks.map CompiledPortClock.portClock =
    (config.connectivity.edges.filter (·.channel = q.1)).map Edge.portClock := by
  rw [Compile.portClocks_of_mem hc.map hq, Compile.portClocks_entries, Wiring.portClocksOn_eq, hc.edges]

variable (hbackend : m.backend = .qblox)

include hbackend

theorem sequencerCount_of_mem (hq : q ∈ m.channels) : sequencerCount q.2.unitType = 6 := by
  obtain ⟨u, slot, hprovided⟩ := hc.exists_provided hbackend hq
  rw [sequencerCount, hprovided.unitType?_eq, Option.bind_some, sequencers_slot u.type hprovided.type_mem slot
    hprovided.known, Option.getD_some]

/-- a module has as many sequencers to give as the unit of each of its channels -/
theorem sequencerCount_eq (hmodules : m.channels.foldlM addChannel [] = .ok modules)
    (hms : modules.lookup? unit = some ms) (hq : q ∈ m.channels) :
    sequencerCount ms.unitType = sequencerCount q.2.unitType := by
  obtain ⟨q', hq', -, htype⟩ := exists_unitType_of_modules hmodules hms
  rw [htype, sequencerCount_of_mem hc hbackend hq', sequencerCount_of_mem hc hbackend hq]

theorem sequences_of_generate (h : generate m = .ok s) : Sequences config.connectivity.edges m s := by
  obtain ⟨-, hmodules, -, henough⟩ := generate_eq_ok_iff.1 h
  have hloaded := loaded_of_modules hc hbackend hmodules
  refine ⟨hloaded.units, hloaded.ascending.nodup_keys, fun unit ms hms => length_sequencers hmodules hms,
    fun unit ms hms i x hx => exists_drives hmodules hms hx, nodup_unitEntries hc, Compile.ascending_channels hc.map,
    fun q hq => portClocks_eq hc hq, fun unit ms hms q hq _ => ?_⟩
  rw [← sequencerCount_eq hc hbackend hmodules hms hq]
  exact henough (unit, ms) (Table.mem_of_lookup? hms)

end Compiled

/-- **Sequencers of a config.** A module has one for each port-clock on its channels, in the order of the channels and
then of the document, and numbered so. It never has more than its type provides: if it needs more, no settings are made,
and this is reported only of a module that does. -/
theorem compile_sequences (h : compile config settings = .ok m) (hbackend : m.backend = .qblox) :
    (∀ s, generate m = .ok s → Sequences config.connectivity.edges m s) ∧
      ∀ unit required available, generate m = .error (.tooManySequencers unit required available) →
        required = (unitEntries m.channels unit).length ∧ available < required ∧
          ∃ q ∈ m.channels, q.1.parent? = some unit ∧ available = sequencerCount q.2.unitType := by
  obtain ⟨p, warnings, hc⟩ := compile_compiled h
  refine ⟨fun s hs => sequences_of_generate hc hbackend hs, fun unit required available hfault => ?_⟩
  obtain ⟨modules, ms, hmodules, hin, rfl, rfl, hmany⟩ := tooMany_of_generate hbackend hfault
  have hms : modules.lookup? unit = some ms :=
    Table.lookup?_of_mem (loaded_of_modules hc hbackend hmodules).ascending.nodup_keys hin
  obtain ⟨q, hq, hparent, htype⟩ := exists_unitType_of_modules hmodules hms
  exact ⟨length_sequencers hmodules hms, hmany, q, hq, hparent, by rw [htype]⟩

/-- a control module with this many port-clocks on its first output, and one on its second, which is listed first -/
def busyConfig (count : Nat) : Config where
  backend := "qblox"
  description := [("cluster0", { (default : InstrumentDescription) with
    type := "Cluster", modules? := some [("1", ⟨"QCM", []⟩)] })]
  options? := none
  connectivity := .paths [("cluster0.module1", .obj [
    ("complex_output_1", .obj [("portclock_configs", .arr [.obj [("port", .str "q9:mw"), ("clock", .str "q9.01")]])]),
    ("complex_output_0", .obj [("portclock_configs", .arr ((List.range count).map fun i =>
      .obj [("port", .str s!"q{i}:mw"), ("clock", .str s!"q{i}.01")]))])])]

/-- the sequencers of the module by their numbers and port-clocks -/
def busySequencers (s : QbloxSettings) : Option (List (Nat × PortClock)) :=
  (s.modules.lookup? "cluster0.module1").map fun ms => ms.sequencers.map fun made => (made.index, made.portClock)

/-- the output that is listed last has the first sequencers; with a seventh port-clock there are not enough -/
theorem busyConfig_sequences :
    (∃ m s, compile (busyConfig 2) {} = .ok m ∧ m.backend = .qblox ∧ generate m = .ok s ∧
      busySequencers s = some [(0, ⟨"q0:mw", "q0.01"⟩), (1, ⟨"q1:mw", "q1.01"⟩), (2, ⟨"q9:mw", "q9.01"⟩)] ∧
      Sequences (busyConfig 2).connectivity.edges m s) ∧
    ∃ m, compile (busyConfig 6) {} = .ok m ∧ m.backend = .qblox ∧
      generate m = .error (.tooManySequencers "cluster0.module1" 7 6) ∧
      7 = (unitEntries m.channels "cluster0.module1").length := by
  constructor
  · obtain ⟨m, hm, hmade⟩ := exists_eq_ok (x := compile (busyConfig 2) {})
      (c := fun m => (generate m).toOption.any fun s => busySequencers s =
        some [(0, ⟨"q0:mw", "q0.01"⟩), (1, ⟨"q1:mw", "q1.01"⟩), (2, ⟨"q9:mw", "q9.01"⟩)])
      (by decide +kernel)
    obtain ⟨s, hs, hmade⟩ := exists_eq_ok hmade
    have hbackend : m.backend = .qblox := (generate_eq_ok hs).1
    exact ⟨m, s, hm, hbackend, hs, of_decide_eq_true hmade, (compile_sequences hm hbackend).1 s hs⟩
  · obtain ⟨m, hm, hrefused⟩ := exists_eq_ok (x := compile (busyConfig 6) {})
      (c := fun m => match generate m with
        | .error (.tooManySequencers unit required available) =>
          m.backend = .qblox ∧ unit = "cluster0.module1" ∧ required = 7 ∧ available = 6
        | _ => false)
      (by decide +kernel)
    split at hrefused
    · rename_i unit required available hfault
      obtain ⟨hbackend, rfl, rfl, rfl⟩ := of_decide_eq_true hrefused
      exact ⟨m, hm, hbackend, hfault, ((compile_sequences hm hbackend).2 _ _ _ hfault).1⟩
    · cases hrefused

end RackMap.Instrument.Qblox
