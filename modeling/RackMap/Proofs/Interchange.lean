/-
The two shapes of a connectivity are interchangeable.

A list of devices and its nested document connect the same port-clocks to the same channels and oscillators. They differ
in the modes that the list may declare, and those are compared with the described kinds and then forgotten.
- `compile_wired`: what compiles with one connectivity compiles to the same map with another one that has the same bare
  edges, if the modes of the other one are the described kinds;
- `kind_ne_digital_of_channelField`: the channels of a list are never digital, so their kinds are modes to declare;
- `compile_nested`: a list that compiles compiles to the map of its nested document, and the other way round.
-/
import Mathlib.Tactic
import RackMap.Proofs.BareEdges
import RackMap.Proofs.Inventory.Slots
import RackMap.Proofs.Wiring.Nested

namespace RackMap

open RackMap.Wiring.Draft (channelFields)

/-- the config with another connectivity -/
def Config.wired (config : Config) (connectivity : Connectivity) : Config :=
  { config with connectivity := connectivity }

/-- every mode that a channel field of the device declares is the described kind of its channel -/
def Device.KeepsModes (inv : Inventory) (device : Device) : Prop :=
  ∀ field ∈ channelFields device, ∀ c, DeviceChannel.ofJson field.2 = .ok c → ∀ mode, c.mode? = some mode →
    ∃ channel, inv.channel? (.ofSegments [device.name, field.1]) = some channel ∧ mode = channel.kind.text

variable {config : Config} {settings : Settings} {m : CompiledMap} {inv : Inventory} {listed : List Device}
  {device : Device} {field : String × Json} {channel : Channel}

/-- **Other connectivities.** What counts of the edges are their port-clocks, channels and oscillators. -/
theorem compile_wired {connectivity connectivity' : Connectivity} {w w' : Wiring}
    (h : compile (config.wired connectivity) settings = .ok m) (hw : Wiring.build connectivity = .ok w)
    (hw' : Wiring.build connectivity' = .ok w') (hbare : w'.bare = w.bare)
    (hkeeps : ∀ inv, Inventory.build config.description m.backend = .ok inv → ∀ e ∈ w'.edges, e.KeepsMode inv) :
    compile (config.wired connectivity') settings = .ok m := by
  obtain ⟨p, hp, haccepted, rfl⟩ := compile_eq_ok_iff_accepted.1 h
  obtain ⟨backend, hbackend, hinventory, hoptions, hwiring, hsettings⟩ := Parsed.ofConfig_eq_ok_iff.1 hp
  obtain rfl : p.wiring = w := Except.ok.inj (hwiring.symm.trans hw)
  have hp' : Parsed.ofConfig (config.wired connectivity') settings.sanitize.2 = .ok { p with wiring := w' } :=
    Parsed.ofConfig_eq_ok_iff.2 ⟨backend, hbackend, hinventory, hoptions, hw', hsettings⟩
  have hsame : Parsed.bare { p with wiring := w' } = p.bare := by
    unfold Parsed.bare
    simp only [hbare]
  have hinventory' : Inventory.build config.description p.compiled.backend = .ok p.inventory := by
    have hvendor : p.compiled.backend = backend := Inventory.backend_of_build hinventory
    rw [hvendor]
    exact hinventory
  have haccepted' : Parsed.Accepted { p with wiring := w' } := by
    rw [Parsed.accepted_iff_bare, hsame]
    exact ⟨(Parsed.accepted_iff_bare.1 haccepted).1, hkeeps p.inventory hinventory'⟩
  refine compile_eq_ok_iff_accepted.2 ⟨_, hp', haccepted', ?_⟩
  rw [← Parsed.compiled_bare, ← hsame, Parsed.compiled_bare]

/-! ## Modes -/

/-- the channels `channel_N` leave their kind to the description, which cannot make them digital -/
theorem slot_kind_ne_digital : ∀ backend : Backend, ∀ type ∈ backend.unitTypes, ∀ slot ∈ type.channels,
    slot.kind? = some .digital → Text.dropStart? "channel_" slot.name = none := by
  intro backend
  cases backend <;> decide

theorem kind_ne_digital_of_channelField {backend : Backend}
    (hinventory : Inventory.build config.description backend = .ok inv) (hfield : field ∈ channelFields device)
    (hchannel : inv.channel? (.ofSegments [device.name, field.1]) = some channel) : channel.kind ≠ .digital := by
  intro hdigital
  obtain ⟨type, htype, slot, hslot, hname, hfrom⟩ :=
    Inventory.slot_of_channel? hinventory (dot_notMem_of_channelField hfield) hchannel
  have hnone := slot_kind_ne_digital backend type htype slot hslot (hfrom.digital hdigital)
  have hsome := (Bool.and_eq_true_iff.1 (List.mem_filter.1 hfield).2).1
  rw [hname] at hnone
  rw [hnone] at hsome
  cases hsome

/-- modes that are described kinds can be declared -/
theorem Device.KeepsModes.declaresModes {backend : Backend}
    (hinventory : Inventory.build config.description backend = .ok inv) (h : device.KeepsModes inv) :
    device.DeclaresModes := by
  intro field hfield c hread mode hmode
  obtain ⟨channel, hchannel, hkind⟩ := h field hfield c hread mode hmode
  exact ⟨channel.kind, ofMode?_eq_some_iff.2
    ⟨hkind, kind_ne_digital_of_channelField hinventory hfield hchannel⟩⟩

/-- and then the edges of the list keep them -/
theorem keepsMode_of_mem_edges (hmodes : ∀ device ∈ listed, device.KeepsModes inv) {e : Edge}
    (he : e ∈ (Connectivity.devices listed).edges) : e.KeepsMode inv := by
  obtain ⟨⟨device, index⟩, hdevice, he⟩ := List.mem_flatMap.1 he
  obtain ⟨field, hfield, he⟩ := List.mem_filterMap.1 he
  unfold Wiring.fieldEdge? at he
  split at he
  · rename_i c hread
    cases he
    intro kind hkind
    obtain ⟨mode, hmode, hdeclared⟩ := Option.bind_eq_some_iff.1 hkind
    obtain ⟨channel, hchannel, htext⟩ :=
      hmodes device (List.fst_mem_of_mem_zipIdx hdevice) field hfield c hread mode hmode
    refine ⟨channel, hchannel, ?_⟩
    have hsame : ChannelKind.ofText? kind.text = ChannelKind.ofText? channel.kind.text := by
      rw [← htext, (ofMode?_eq_some_iff.1 hdeclared).1]
    rw [ChannelKind.ofText?_text, ChannelKind.ofText?_text, Option.some.injEq] at hsame
    exact hsame
  · cases he

/-- the leaves of a nested document declare no modes -/
theorem keepsMode_of_mem_paths {root : Table String Json} {e : Edge} (he : e ∈ (Connectivity.paths root).edges) :
    e.KeepsMode inv := by
  obtain ⟨⟨path, value⟩, -, he⟩ := List.mem_flatMap.1 he
  unfold Wiring.leafEdges at he
  split at he
  · split at he
    · obtain ⟨entry, -, rfl⟩ := List.mem_map.1 he
      intro mode hmode
      cases hmode
    · cases he
  · cases he

/-! ## Maps -/

/-- **Lists and nested documents.** Devices with different names, whose channel fields can all be read, compile to the
map of their nested document. And if that document compiles, and the modes of the list are the described kinds, the list
compiles to the same map. The document is read as it is written. -/
theorem compile_nested (config : Config) (settings : Settings) (hnames : (listed.map Device.name).Nodup)
    (hdecode : ∀ device ∈ listed, device.Decodes) :
    Connectivity.ofJson (.obj (nested listed)) = .ok (.paths (nested listed)) ∧
      (∀ m, compile (config.wired (.devices listed)) settings = .ok m →
        compile (config.wired (.paths (nested listed))) settings = .ok m) ∧
      ∀ m, compile (config.wired (.paths (nested listed))) settings = .ok m →
        ∃ inv, Inventory.build config.description m.backend = .ok inv ∧
          ((∀ device ∈ listed, device.KeepsModes inv) → compile (config.wired (.devices listed)) settings = .ok m) := by
  refine ⟨ofJson_nested hnames, fun m h => ?_, fun m h => ?_⟩
  · obtain ⟨p, warnings, hc⟩ := compile_compiled h
    obtain ⟨w', hw', hbare⟩ := exists_build_nested hc.wiring
    refine compile_wired h hc.wiring hw' hbare fun inv _ e he => ?_
    rw [Wiring.build_edges hw'] at he
    exact keepsMode_of_mem_paths he
  · obtain ⟨p, warnings, hc⟩ := compile_compiled h
    refine ⟨p.inventory, hc.inventory, fun hmodes => ?_⟩
    have hdeclared : ∀ device ∈ listed, device.DeclaresModes := fun device hdevice =>
      (hmodes device hdevice).declaresModes hc.inventory
    obtain ⟨w', hw', hbare⟩ := exists_build_devices hnames hdecode hdeclared hc.wiring
    refine compile_wired h hc.wiring hw' hbare fun inv hinv e he => ?_
    obtain rfl : inv = p.inventory := Except.ok.inj (hinv.symm.trans hc.inventory)
    rw [Wiring.build_edges hw'] at he
    exact keepsMode_of_mem_edges hmodes he

/-- two generators with an oscillator on the first channel; one field declares its mode, the other one does not -/
def listedDevices : List Device :=
  [⟨"hdawg0", [("channel_0", .obj [("port", .str "q0:mw"), ("clock", .str "q0.01"), ("mode", .str "complex"),
      ("local_oscillator", .str "lo0")])], by decide⟩,
    ⟨"hdawg.1", [("clock_select", .int 0), ("channel_1", .obj [("port", .str "q1:fl"), ("clock", .str "cl0.baseband")])],
      by decide⟩]

/-- a rack with these generators -/
def listedConfig : Config where
  backend := "zhinst"
  description :=
    [("hdawg0", { (default : InstrumentDescription) with
        type := "HDAWG4", fields := [("channel_0", .obj [("mode", .str "complex")])] }),
      ("hdawg.1", { (default : InstrumentDescription) with
        type := "HDAWG8", fields := [("channel_1", .obj [("mode", .str "real")])] }),
      ("lo0", { (default : InstrumentDescription) with type := "LocalOscillator", power? := some (.finite false 1) })]
  options? := some { modulation? := some [("q0:mw-q0.01", ⟨none, some (.finite false 5)⟩)] }
  connectivity := .devices listedDevices

theorem Device.decodes_of_all {device : Device}
    (h : (channelFields device).all (fun field => (DeviceChannel.ofJson field.2).toOption.isSome) = true) :
    device.Decodes := by
  intro field hfield
  obtain ⟨c, hc⟩ := Option.isSome_iff_exists.1 (List.all_eq_true.1 h field hfield)
  exact ⟨c, toOption_eq_some_iff.1 hc⟩

/-- both shapes compile to one map with two channels -/
theorem listedConfig_nested :
    ∃ m, compile (listedConfig.wired (.devices listedDevices)) {} = .ok m ∧
      compile (listedConfig.wired (.paths (nested listedDevices))) {} = .ok m ∧ m.channels.length = 2 ∧
      ∃ inv, Inventory.build listedConfig.description m.backend = .ok inv ∧
        ((∀ device ∈ listedDevices, device.KeepsModes inv) →
          compile (listedConfig.wired (.devices listedDevices)) {} = .ok m) := by
  have hdecode : ∀ device ∈ listedDevices, device.Decodes := by
    have hall : ∀ device ∈ listedDevices,
        (channelFields device).all (fun field => (DeviceChannel.ofJson field.2).toOption.isSome) = true := by
      decide +kernel
    exact fun device hdevice => Device.decodes_of_all (hall device hdevice)
  obtain ⟨-, hnested, hlisted⟩ := compile_nested listedConfig {} (by decide) hdecode
  obtain ⟨m, hm, hlength⟩ := exists_eq_ok (x := compile (listedConfig.wired (.devices listedDevices)) {})
    (c := fun m => m.channels.length = 2) (by decide +kernel)
  exact ⟨m, hm, hnested m hm, of_decide_eq_true hlength, hlisted m (hnested m hm)⟩

end RackMap
