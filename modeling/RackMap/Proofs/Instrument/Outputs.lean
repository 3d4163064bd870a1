/-
Outputs of Zurich Instruments devices.

The settings of a channel are filed under the first segment of its path and the last one. What stands between them is
lost, so the channels of two instruments whose names start with the same segment and a dot can fall together, and an
instrument with a dot in its name is not found under it.
- `Filed` is what holds of the outputs of some of the channels, `Filed.step` one channel more, `filed_of_foldlM` all;
- `places_perm`: there is an output for each place, so none is lost iff the places of the channels differ;
- `Delivers` says that each channel has its own output, under the name of its instrument;
- `compile_outputs`: settings are made iff each channel has one port-clock, and deliver iff no instrument has a dot in
  its name;
- `generatorsConfig_loses` is a config with two such instruments.
-/
import Mathlib.Tactic
import RackMap.Proofs.Instrument.Programs
import RackMap.Proofs.Instrument.Provided

namespace RackMap.Instrument.Zhinst

variable {config : Config} {settings : Settings} {p : Parsed} {warnings : List String} {m : CompiledMap}
  {s : ZhinstSettings} {path : ChannelPath} {channel : CompiledChannel} {q q' : ChannelPath × CompiledChannel}
  {done : List (ChannelPath × CompiledChannel)} {devices devices' : Table String (Table String OutputSettings)}
  {o : OutputSettings} {unit name : String}

/-! ## The settings of a channel -/

/-- all that the settings of a channel hold -/
structure SettingsOf (channel : CompiledChannel) (o : OutputSettings) : Prop where
  /-- they are those of its only port-clock -/
  entry : ∃ entry, channel.portClocks = [entry] ∧ o.port = entry.portClock.port ∧ o.clock = entry.portClock.clock ∧
    IsOutputOf entry o
  mode : o.mode = channel.kind
  /-- the oscillator is named, if there is one -/
  oscillator : channel.oscillator?.map CompiledOscillator.lo = o.lo?.map .external

theorem settingsOf_of_output (h : output path channel = .ok o) : SettingsOf channel o := by
  unfold output at h
  split at h
  · rename_i entry hentry
    simp only at h
    split at h
    · rename_i hlo
      cases h
      exact ⟨⟨entry, hentry, rfl, rfl, rfl, rfl, rfl, rfl, rfl⟩, rfl, hlo⟩
    · rename_i name hlo
      cases h
      exact ⟨⟨entry, hentry, rfl, rfl, rfl, rfl, rfl, rfl, rfl⟩, rfl, hlo⟩
    · cases h
  · cases h

/-! ## Places -/

/-- where the settings of a channel are filed: the device and the name under it -/
def place (path : ChannelPath) : String × String := (path.instrument, path.name)

/-- what is filed in a place -/
def filed? (devices : Table String (Table String OutputSettings)) (at' : String × String) : Option OutputSettings :=
  (devices.lookup? at'.1).bind fun outputs => outputs.lookup? at'.2

/-- all places in which something is filed -/
def places (devices : Table String (Table String OutputSettings)) : List (String × String) :=
  devices.flatMap fun device => device.2.map fun output => (device.1, output.1)

/-- the number of all outputs -/
def outputCount (s : ZhinstSettings) : Nat := (s.devices.map fun device => device.2.length).sum

theorem length_places (s : ZhinstSettings) : (places s.devices).length = outputCount s := by
  simp only [places, outputCount, List.length_flatMap, List.length_map]

theorem filed?_putSorted (devices : Table String (Table String OutputSettings)) (at' other : String × String)
    (o : OutputSettings) :
    filed? (devices.putSorted at'.1 (((devices.lookup? at'.1).getD []).putSorted at'.2 o)) other =
      if other = at' then some o else filed? devices other := by
  rw [filed?, Table.lookup?_putSorted]
  by_cases hdevice : other.1 = at'.1
  · rw [if_pos hdevice, Option.bind_some, Table.lookup?_putSorted]
    by_cases hname : other.2 = at'.2
    · rw [if_pos hname, if_pos (Prod.ext hdevice hname)]
    · rw [if_neg hname, if_neg (fun hsame => hname (congrArg Prod.snd hsame)), filed?, hdevice]
      cases devices.lookup? at'.1 <;> rfl
  · rw [if_neg hdevice, if_neg (fun hsame => hdevice (congrArg Prod.fst hsame)), filed?]

/-- the outputs of some of the channels -/
structure Filed (done : List (ChannelPath × CompiledChannel)) (devices : Table String (Table String OutputSettings)) :
    Prop where
  ascending : devices.Ascending
  inner : ∀ device outputs, devices.lookup? device = some outputs → outputs.Ascending
  /-- whatever is filed is the output of a channel -/
  found : ∀ at' o, filed? devices at' = some o → ∃ q ∈ done, place q.1 = at' ∧ output q.1 q.2 = .ok o
  /-- in the place of every channel something is filed -/
  kept : ∀ q ∈ done, filed? devices (place q.1) ≠ none ∧ ∃ o, output q.1 q.2 = .ok o

namespace Filed

theorem nil : Filed [] [] where
  ascending := List.Pairwise.nil
  inner _ _ h := nomatch h
  found _ _ h := nomatch h
  kept := List.forall_mem_nil _

/-- **One channel more.** -/
theorem step (h : Filed done devices) (hadd : addChannel devices q = .ok devices') : Filed (done ++ [q]) devices' := by
  obtain ⟨o, ho, rfl⟩ := addChannel_eq_ok_iff.1 hadd
  have hfiled : ∀ other, filed? (devices.putSorted q.1.instrument
      (((devices.lookup? q.1.instrument).getD []).putSorted q.1.name o)) other =
        if other = place q.1 then some o else filed? devices other :=
    fun other => filed?_putSorted devices (place q.1) other o
  refine ⟨h.ascending.putSorted _ _, fun device outputs houtputs => ?_, fun at' o' ho' => ?_, fun q' hq' => ?_⟩
  · rw [Table.lookup?_putSorted] at houtputs
    split at houtputs
    · cases houtputs
      cases hbefore : devices.lookup? q.1.instrument with
      | none => exact List.pairwise_singleton _ _
      | some before => exact (h.inner _ before hbefore).putSorted _ _
    · exact h.inner device outputs houtputs
  · rw [hfiled] at ho'
    split at ho'
    · rename_i hsame
      cases ho'
      exact ⟨q, List.mem_append_right done List.mem_cons_self, hsame.symm, ho⟩
    · obtain ⟨q', hq', hplace, houtput⟩ := h.found at' o' ho'
      exact ⟨q', List.mem_append_left [q] hq', hplace, houtput⟩
  · rw [hfiled]
    rcases List.mem_append.1 hq' with hq' | hq'
    · refine ⟨?_, (h.kept q' hq').2⟩
      split
      · exact Option.some_ne_none o
      · exact (h.kept q' hq').1
    · obtain rfl := List.mem_singleton.1 hq'
      rw [if_pos rfl]
      exact ⟨Option.some_ne_none o, o, ho⟩

theorem mem_places_iff (h : Filed done devices) {at' : String × String} :
    at' ∈ places devices ↔ ∃ q ∈ done, place q.1 = at' := by
  constructor
  · intro hin
    obtain ⟨⟨device, outputs⟩, hdevice, hin⟩ := List.mem_flatMap.1 hin
    obtain ⟨⟨name, o⟩, houtput, rfl⟩ := List.mem_map.1 hin
    have houtputs : devices.lookup? device = some outputs :=
      (Table.lookup?_eq_some_iff h.ascending.nodup_keys).2 hdevice
    have hfiled : filed? devices (device, name) = some o := by
      rw [filed?, houtputs]
      exact (Table.lookup?_eq_some_iff (h.inner device outputs houtputs).nodup_keys).2 houtput
    obtain ⟨q, hq, hplace, -⟩ := h.found _ o hfiled
    exact ⟨q, hq, hplace⟩
  · rintro ⟨q, hq, rfl⟩
    obtain ⟨o, ho⟩ := Option.ne_none_iff_exists'.1 (h.kept q hq).1
    obtain ⟨outputs, houtputs, houtput⟩ := Option.bind_eq_some_iff.1 ho
    exact List.mem_flatMap.2 ⟨_, Table.mem_of_lookup? houtputs, List.mem_map.2 ⟨_, Table.mem_of_lookup? houtput, rfl⟩⟩

theorem nodup_places (h : Filed done devices) : (places devices).Nodup := by
  refine List.nodup_flatMap.2 ⟨fun device hdevice => ?_, ?_⟩
  · have houtputs := (Table.lookup?_eq_some_iff h.ascending.nodup_keys).2 hdevice
    have hnames := (h.inner _ _ houtputs).nodup_keys
    rw [Table.keys] at hnames
    exact List.Nodup.of_map Prod.snd (by rwa [List.map_map])
  · -- the places of two devices differ in the device
    refine (List.pairwise_map.1 h.ascending.nodup_keys).imp fun {a b} hne at' ha hb => ?_
    obtain ⟨x, -, rfl⟩ := List.mem_map.1 ha
    obtain ⟨y, -, hsame⟩ := List.mem_map.1 hb
    exact hne (congrArg Prod.fst hsame).symm

/-- **One output for each place.** -/
theorem places_perm (h : Filed done devices) : (places devices).Perm (done.map fun q => place q.1).dedup := by
  rw [List.perm_ext_iff_of_nodup h.nodup_places (List.nodup_dedup _)]
  intro at'
  rw [h.mem_places_iff, List.mem_dedup, List.mem_map]

end Filed

/-- **All channels.** -/
theorem filed_of_foldlM (h : m.channels.foldlM addChannel [] = .ok devices) : Filed m.channels devices :=
  foldlM_induction Filed Filed.nil (fun _ _ _ _ _ hdone hadd => hdone.step hadd) h

/-- no output is lost iff the channels have different places -/
theorem outputCount_eq_iff (hs : generate m = .ok s) :
    outputCount s = m.channels.length ↔ (m.channels.map fun q => place q.1).Nodup := by
  have hplaces := (filed_of_foldlM (generate_eq_ok hs).2.1).places_perm.length_eq
  rw [← length_places, hplaces]
  constructor
  · intro hlength
    refine List.dedup_eq_self.1 ((List.dedup_sublist _).eq_of_length ?_)
    rw [hlength, List.length_map]
  · intro hnodup
    rw [hnodup.dedup, List.length_map]

/-! ## Instruments -/

theorem dot_notMem_instrument (path : ChannelPath) : '.' ∉ path.instrument.toList := by
  unfold ChannelPath.instrument Text.cutFirst?
  cases hcut : Text.cutFirst '.' path.text.toList with
  | none => exact Text.cutFirst_eq_none_iff.1 hcut
  | some parts =>
    simp only [Option.map_some, Option.getD_some, String.toList_ofList]
    exact (Text.cutFirst_eq_some_iff.1 hcut).1

/-- the first segment is the instrument, if there is no dot in its name -/
theorem instrument_ofSegments (h : '.' ∉ unit.toList) : (ChannelPath.ofSegments [unit, name]).instrument = unit := by
  have htext : (ChannelPath.ofSegments [unit, name]).text.toList = unit.toList ++ '.' :: name.toList := by
    simp [ChannelPath.ofSegments, Text.join]
  rw [ChannelPath.instrument, Text.cutFirst?, htext, Text.cutFirst_eq_some_iff.2 ⟨h, rfl⟩]
  simp

/-- no instrument that is connected has a dot in its name -/
def PlainNames (m : CompiledMap) : Prop := ∀ q ∈ m.channels, ∀ device, q.1.parent? = some device → '.' ∉ device.toList

/-- each channel has its own output, under its instrument -/
structure Delivers (description : HardwareDescription) (m : CompiledMap) (s : ZhinstSettings) : Prop where
  /-- there are as many outputs as channels -/
  count : outputCount s = m.channels.length
  /-- the output of a channel is under the name of its instrument and its own -/
  own : ∀ q ∈ m.channels, ∃ device ∈ description.keys, q.1 = .ofSegments [device, q.1.name] ∧
    ∃ o, filed? s.devices (device, q.1.name) = some o ∧ SettingsOf q.2 o
  /-- the oscillators that outputs name have their settings -/
  oscillators : ∀ at' o name, filed? s.devices at' = some o → o.lo? = some name → name ∈ s.oscillators.keys

section Compiled

variable (hc : Compiled config p warnings m) (hbackend : m.backend = .zhinst)

include hc

/-- the paths of the channels differ -/
theorem nodup_channels : m.channels.Nodup := (Compile.nodup_keys hc.map).of_map Prod.fst

/-- where the names are plain, the instrument of a channel is the one it is on -/
theorem parent?_eq_instrument (hplain : PlainNames m) (hq : q ∈ m.channels) : q.1.parent? = some q.1.instrument := by
  obtain ⟨u, slot, hprovided⟩ := hc.exists_provided rfl hq
  have hunit : q.1.instrument = u.path := by
    rw [hprovided.path]
    exact instrument_ofSegments (hplain q hq u.path hprovided.parent?_eq)
  rw [hunit, hprovided.parent?_eq]

/-- where the names are plain, a place tells the channel -/
theorem eq_of_place_eq (hplain : PlainNames m) (hq : q ∈ m.channels) (hq' : q' ∈ m.channels)
    (hplace : place q.1 = place q'.1) : q = q' := by
  refine hc.eq_of_name_eq hq hq' ?_ (congrArg Prod.snd hplace)
  rw [parent?_eq_instrument hc hplain hq, parent?_eq_instrument hc hplain hq']
  exact congrArg (some ∘ Prod.fst) hplace

/-- where the names are plain, the output of a channel is in its place -/
theorem exists_output_of_mem (hplain : PlainNames m) (hdevices : m.channels.foldlM addChannel [] = .ok devices)
    (hq : q ∈ m.channels) : ∃ o, filed? devices (place q.1) = some o ∧ output q.1 q.2 = .ok o := by
  have hfiled := filed_of_foldlM hdevices
  obtain ⟨o, ho⟩ := Option.ne_none_iff_exists'.1 (hfiled.kept q hq).1
  obtain ⟨q', hq', hplace, houtput⟩ := hfiled.found (place q.1) o ho
  obtain rfl := eq_of_place_eq hc hplain hq' hq hplace
  exact ⟨o, ho, houtput⟩

include hbackend

/-- settings are made of channels with one port-clock each -/
theorem exists_generate_iff :
    (∃ s, generate m = .ok s) ↔ ∀ q ∈ m.channels, q.2.portClocks.length = 1 := by
  constructor
  · rintro ⟨s, hs⟩ q hq
    obtain ⟨-, hdevices, -⟩ := generate_eq_ok hs
    obtain ⟨-, o, ho⟩ := (filed_of_foldlM hdevices).kept q hq
    obtain ⟨entry, hentry, -⟩ := output_eq_ok ho
    rw [hentry, List.length_singleton]
  · intro hone
    cases hs : generate m with
    | ok s => exact ⟨s, rfl⟩
    | error fault =>
      rcases generate_eq_error hs with ⟨hother, -⟩ | ⟨q, hq, hfault⟩
      · exact absurd hbackend hother
      · rcases output_eq_error hfault with ⟨hmany, -⟩ | ⟨module, index, hbuiltIn, -⟩
        · exact absurd (hone q hq) hmany
        · obtain ⟨unit, slot, hplaced⟩ := hc.exists_placed hq
          rw [hbackend] at hplaced
          exact absurd hbuiltIn (not_integrated_of_placed hplaced module index)

theorem delivers_iff (hs : generate m = .ok s) : Delivers config.description m s ↔ PlainNames m := by
  obtain ⟨-, hdevices, hoscillators⟩ := generate_eq_ok hs
  have hfiled := filed_of_foldlM hdevices
  constructor
  · intro h q hq device hparent
    obtain ⟨device', -, hpath, o, ho, -⟩ := h.own q hq
    obtain ⟨u, slot, hprovided⟩ := hc.exists_provided rfl hq
    have hdevice : device = device' := by
      rw [hpath, hprovided.name_eq, ChannelPath.parent?_ofSegments hprovided.dot_notMem, Option.some.injEq] at hparent
      exact hparent.symm
    obtain ⟨q', -, hplace, -⟩ := hfiled.found _ o ho
    have hinstrument : q'.1.instrument = device' := congrArg Prod.fst hplace
    rw [hdevice, ← hinstrument]
    exact dot_notMem_instrument q'.1
  · intro hplain
    refine ⟨?_, fun q hq => ?_, fun at' o name ho hlo => ?_⟩
    · exact (outputCount_eq_iff hs).2 ((nodup_channels hc).map_on fun q hq q' hq' => eq_of_place_eq hc hplain hq hq')
    · obtain ⟨u, slot, hprovided⟩ := hc.exists_provided hbackend hq
      have hunit : u.path = q.1.instrument := by
        have hparent := parent?_eq_instrument hc hplain hq
        rw [hprovided.parent?_eq, Option.some.injEq] at hparent
        exact hparent
      obtain ⟨o, ho, houtput⟩ := exists_output_of_mem hc hplain hdevices hq
      refine ⟨u.path, exists_device_of_zhinst hprovided, ?_, o, ?_, settingsOf_of_output houtput⟩
      · rw [hprovided.name_eq]
        exact hprovided.path
      · rw [hunit]
        exact ho
    · obtain ⟨q, hq, -, houtput⟩ := hfiled.found at' o ho
      have hcites : Cites q (.external name) := by
        rw [Cites, (settingsOf_of_output houtput).oscillator, hlo]
        rfl
      rw [hoscillators, OscillatorSettings.ofMap, Table.mem_keys_sortedOfPairs, mem_keys_external hc]
      exact ⟨q, hq, hcites⟩

end Compiled

/-- **Outputs of a config.** Settings are made iff each channel has one port-clock. Then there is an output for each
place in which channels are filed, and each channel has its own, under the name of its instrument, iff no instrument that
is connected has a dot in its name. -/
theorem compile_outputs (h : compile config settings = .ok m) (hbackend : m.backend = .zhinst) :
    ((∃ s, generate m = .ok s) ↔ ∀ q ∈ m.channels, q.2.portClocks.length = 1) ∧
      ∀ s, generate m = .ok s →
        (outputCount s = m.channels.length ↔ (m.channels.map fun q => place q.1).Nodup) ∧
          (Delivers config.description m s ↔ PlainNames m) := by
  obtain ⟨p, warnings, hc⟩ := compile_compiled h
  exact ⟨exists_generate_iff hc hbackend, fun s hs => ⟨outputCount_eq_iff hs, delivers_iff hc hbackend hs⟩⟩

/-- two generators with these names, and a port-clock on each -/
def generatorsConfig (first second : String) : Config where
  backend := "zhinst"
  description :=
    [(first, { (default : InstrumentDescription) with
        type := "HDAWG4", fields := [("channel_0", .obj [("mode", .str "complex")])] }),
      (second, { (default : InstrumentDescription) with
        type := "HDAWG4", fields := [("channel_0", .obj [("mode", .str "complex")])] })]
  options? := none
  connectivity := .paths [
    (first, .obj [("channel_0", .obj [("portclock_configs",
      .arr [.obj [("port", .str "q0:mw"), ("clock", .str "q0.01")]])])]),
    (second, .obj [("channel_0", .obj [("portclock_configs",
      .arr [.obj [("port", .str "q1:mw"), ("clock", .str "q1.01")]])])])]

/-- the settings of both generators are delivered if their names are plain -/
theorem generatorsConfig_plain :
    ∃ m s, compile (generatorsConfig "hdawg0" "hdawg1") {} = .ok m ∧ m.backend = .zhinst ∧ generate m = .ok s ∧
      outputCount s = 2 ∧ (Delivers (generatorsConfig "hdawg0" "hdawg1").description m s ↔ PlainNames m) := by
  obtain ⟨m, hm, hmade⟩ := exists_eq_ok (x := compile (generatorsConfig "hdawg0" "hdawg1") {})
    (c := fun m => (generate m).toOption.any fun s => outputCount s = 2) (by decide +kernel)
  obtain ⟨s, hs, hcount⟩ := exists_eq_ok hmade
  have hbackend : m.backend = .zhinst := (generate_eq_ok hs).1
  exact ⟨m, s, hm, hbackend, hs, of_decide_eq_true hcount, ((compile_outputs hm hbackend).2 s hs).2⟩

/-- **An output that is lost.** The two generators are filed under `rack`, where one is written over the other. -/
theorem generatorsConfig_loses :
    ∃ m s, compile (generatorsConfig "rack.hdawg0" "rack.hdawg1") {} = .ok m ∧ generate m = .ok s ∧
      (∀ q ∈ m.channels, q.2.portClocks.length = 1) ∧ m.channels.length = 2 ∧ outputCount s = 1 ∧
      s.devices.keys = ["rack"] ∧ ∀ device ∈ (generatorsConfig "rack.hdawg0" "rack.hdawg1").description.keys,
        filed? s.devices (device, "channel_0") = none := by
  obtain ⟨m, hm, hmade⟩ := exists_eq_ok (x := compile (generatorsConfig "rack.hdawg0" "rack.hdawg1") {})
    (c := fun m => (generate m).toOption.any fun s =>
      (∀ q ∈ m.channels, q.2.portClocks.length = 1) ∧ m.channels.length = 2 ∧ outputCount s = 1 ∧
        s.devices.keys = ["rack"] ∧ ∀ device ∈ (generatorsConfig "rack.hdawg0" "rack.hdawg1").description.keys,
          filed? s.devices (device, "channel_0") = none)
    (by decide +kernel)
  obtain ⟨s, hs, hlost⟩ := exists_eq_ok hmade
  exact ⟨m, s, hm, hs, of_decide_eq_true hlost⟩

end RackMap.Instrument.Zhinst
