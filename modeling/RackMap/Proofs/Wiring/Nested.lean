/-
The nested document that connects what a list of devices connects.

Each channel field of the list becomes a leaf. Its key is the name of the device, a dot and the name of the field, and it
holds the port-clock and the oscillator of the field. A mode has no place in a leaf.
- `keys_nested`: devices with different names get different keys, so the document is read as it is written
  (`ofJson_nested`);
- `bare_edges_nested`: it has the edges of the list, but for their modes and places;
- `exists_build_nested`, `exists_build_devices`: it is read iff the list is, once the modes are some to declare.
-/
import Mathlib.Tactic
import RackMap.Proofs.BareEdges
import RackMap.Proofs.Document.Written
import RackMap.Proofs.Json.Collapse
import RackMap.Proofs.Wiring.Devices
import RackMap.Proofs.Wiring.Sound

namespace RackMap

open RackMap.Wiring (Leaf SoundDevices SoundLeaves leafEdges leavesOfRoot)
open RackMap.Wiring.Draft (channelFields)

/-- the leaf with the port-clock and the oscillator of a channel field -/
def DeviceChannel.leaf (c : DeviceChannel) : Json :=
  .obj (("portclock_configs", .arr [.obj [("port", .str c.port), ("clock", .str c.clock)]]) ::
    Json.member? "lo_name" .str c.lo?)

namespace Device

/-- the member of the nested document for a channel field -/
def member? (device : Device) (field : String × Json) : Option (String × Json) :=
  (DeviceChannel.ofJson field.2).toOption.map fun c => (device.name ++ "." ++ field.1, c.leaf)

/-- every channel field can be read -/
def Decodes (device : Device) : Prop := ∀ field ∈ channelFields device, ∃ c, DeviceChannel.ofJson field.2 = .ok c

/-- every mode that a channel field declares is one to declare -/
def DeclaresModes (device : Device) : Prop :=
  ∀ field ∈ channelFields device, ∀ c, DeviceChannel.ofJson field.2 = .ok c →
    ∀ mode, c.mode? = some mode → ∃ kind, ChannelKind.ofMode? mode = some kind

end Device

/-- the nested document for a list of devices, a member for each channel field in order -/
def nested (listed : List Device) : Table String Json :=
  listed.flatMap fun device => (channelFields device).filterMap device.member?

variable {listed : List Device} {device : Device} {field p : String × Json} {c : DeviceChannel} {w : Wiring}

/-! ## Members -/

theorem Device.member?_eq_some_iff :
    device.member? field = some p ↔
      ∃ c, DeviceChannel.ofJson field.2 = .ok c ∧ p = (device.name ++ "." ++ field.1, c.leaf) := by
  simp only [member?, Option.map_eq_some_iff, toOption_eq_some_iff, @eq_comm _ p]

theorem mem_nested :
    p ∈ nested listed ↔ ∃ device ∈ listed, ∃ field ∈ channelFields device, ∃ c,
      DeviceChannel.ofJson field.2 = .ok c ∧ p = (device.name ++ "." ++ field.1, c.leaf) := by
  simp only [nested, List.mem_flatMap, List.mem_filterMap, Device.member?_eq_some_iff]

theorem dot_notMem_of_channelField (h : field ∈ channelFields device) : '.' ∉ field.1.toList :=
  Wiring.dot_notMem_of_isChannelName (Bool.and_eq_true_iff.1 (List.mem_filter.1 h).2).2

/-- **Keys.** Devices with different names have different keys, whatever dots are in the names. -/
theorem keys_nested (hnames : (listed.map Device.name).Nodup) : (nested listed).keys.Nodup := by
  rw [Table.keys, nested, List.map_flatMap, List.nodup_flatMap]
  constructor
  · -- one device: the names of its fields differ
    intro device _
    have hfields : (channelFields device).Pairwise fun a b => a.1 ≠ b.1 :=
      (List.pairwise_map.1 device.distinct).filter _
    rw [List.Nodup, List.pairwise_map, List.pairwise_filterMap]
    refine hfields.imp fun hne a ha b hb heq => hne ?_
    obtain ⟨_, -, rfl⟩ := Device.member?_eq_some_iff.1 ha
    obtain ⟨_, -, rfl⟩ := Device.member?_eq_some_iff.1 hb
    exact (String.append_right_inj _).1 heq
  · -- two devices: the last dot of a key stands behind the name
    refine (List.pairwise_map.1 hnames).imp fun hne => ?_
    rw [Function.onFun, List.disjoint_left]
    intro key hkey hkey'
    obtain ⟨a, ha, rfl⟩ := List.mem_map.1 hkey
    obtain ⟨b, hb, heq⟩ := List.mem_map.1 hkey'
    obtain ⟨field, hfield, ha⟩ := List.mem_filterMap.1 ha
    obtain ⟨field', hfield', hb⟩ := List.mem_filterMap.1 hb
    obtain ⟨_, -, rfl⟩ := Device.member?_eq_some_iff.1 ha
    obtain ⟨_, -, rfl⟩ := Device.member?_eq_some_iff.1 hb
    exact hne (Wiring.ofSegments_inj (dot_notMem_of_channelField hfield) (dot_notMem_of_channelField hfield')
      (congrArg ChannelPath.mk heq.symm)).1

theorem isUnrepeated_leaf (c : DeviceChannel) : c.leaf.isUnrepeated = true := by
  cases h : c.lo? <;> simp [DeviceChannel.leaf, Json.member?, h, Json.isUnrepeated, Json.areUnrepeated,
    Json.membersUnrepeated, Table.keys]

theorem membersUnrepeated_iff {members : List (String × Json)} :
    Json.membersUnrepeated members = true ↔ ∀ p ∈ members, p.2.isUnrepeated = true := by
  induction members with
  | nil => simp [Json.membersUnrepeated]
  | cons member rest ih => rw [Json.membersUnrepeated, Bool.and_eq_true, ih, List.forall_mem_cons]

/-- **Reading the document.** No key comes up twice, so nothing in it is overwritten. -/
theorem ofJson_nested (hnames : (listed.map Device.name).Nodup) :
    Connectivity.ofJson (.obj (nested listed)) = .ok (.paths (nested listed)) := by
  have hmembers : Json.membersUnrepeated (nested listed) = true := by
    refine membersUnrepeated_iff.2 fun p hp => ?_
    obtain ⟨-, -, -, -, c, -, rfl⟩ := mem_nested.1 hp
    exact isUnrepeated_leaf c
  rw [Connectivity.ofJson_obj, Json.collapseMembers_eq_self _ hmembers, Table.ofPairs_eq_self (keys_nested hnames)]

/-! ## Leaves -/

theorem ofJson_leaf (c : DeviceChannel) : ChannelWiring.ofJson c.leaf = .ok ⟨[⟨c.port, c.clock⟩], c.lo?⟩ := by
  obtain ⟨port, clock, mode?, lo?⟩ := c
  cases lo? <;> rfl

theorem leaves_leaf (path : String) (c : DeviceChannel) : Wiring.leaves path c.leaf = [⟨⟨path⟩, c.leaf⟩] := by
  rw [DeviceChannel.leaf, Wiring.leaves]
  simp [Wiring.leafKey]

/-- every member of the document is a leaf -/
theorem leavesOfRoot_nested (listed : List Device) :
    leavesOfRoot (nested listed) = (nested listed).map fun p => ⟨⟨p.1⟩, p.2⟩ := by
  rw [leavesOfRoot, ← List.flatMap_pure_eq_map]
  refine List.flatMap_congr fun p hp => ?_
  obtain ⟨device, -, field, -, c, -, rfl⟩ := mem_nested.1 hp
  exact leaves_leaf _ c

theorem leafEdges_leaf (path : ChannelPath) (c : DeviceChannel) :
    leafEdges ⟨path, c.leaf⟩ = [⟨⟨c.port, c.clock⟩, path, c.lo?, none, Leaf.location ⟨path, c.leaf⟩⟩] := by
  have hread := ofJson_leaf c
  unfold DeviceChannel.leaf at hread ⊢
  rw [Wiring.leafEdges_of_ofJson hread, List.map_singleton]

theorem sound_leaf_iff {path : ChannelPath} :
    Leaf.Sound ⟨path, c.leaf⟩ ↔ ∃ pc, Wiring.portClockOf ⟨c.port, c.clock⟩ = .ok pc := by
  have hread := ofJson_leaf c
  unfold DeviceChannel.leaf at hread ⊢
  simp [Leaf.Sound, hread]

/-! ## Edges -/

/-- the leaf of a field has the edge of the field -/
theorem bare_edges_device (index : Nat) (device : Device) :
    (((channelFields device).filterMap device.member?).flatMap fun p => leafEdges ⟨⟨p.1⟩, p.2⟩).map Edge.bare =
      (Wiring.deviceEdges index device).map Edge.bare := by
  rw [Wiring.deviceEdges]
  induction channelFields device with
  | nil => rfl
  | cons field fields ih =>
    cases hread : DeviceChannel.ofJson field.2 with
    | error fault =>
      have hmember : device.member? field = none := by rw [Device.member?, hread]; rfl
      have hedge : Wiring.fieldEdge? index device field = none := by rw [Wiring.fieldEdge?, hread]
      rw [List.filterMap_cons_none hmember, List.filterMap_cons_none hedge, ih]
    | ok c =>
      have hmember : device.member? field = some (device.name ++ "." ++ field.1, c.leaf) :=
        Device.member?_eq_some_iff.2 ⟨c, hread, rfl⟩
      have hedge : ∃ e, Wiring.fieldEdge? index device field = some e ∧
          e.bare = ⟨⟨c.port, c.clock⟩, ⟨device.name ++ "." ++ field.1⟩, c.lo?, none, ""⟩ := by
        rw [Wiring.fieldEdge?, hread]
        exact ⟨_, rfl, rfl⟩
      obtain ⟨e, hedge, hbare⟩ := hedge
      rw [List.filterMap_cons_some hmember, List.filterMap_cons_some hedge, List.flatMap_cons, List.map_append, ih,
        List.map_cons, hbare, leafEdges_leaf]
      rfl

/-- **Edges.** The document and the list have the same edges, but for modes and places. -/
theorem bare_edges_nested (listed : List Device) :
    (Connectivity.paths (nested listed)).edges.map Edge.bare =
      (Connectivity.devices listed).edges.map Edge.bare := by
  have hlist : (Connectivity.devices listed).edges.map Edge.bare =
      listed.flatMap fun device => (Wiring.deviceEdges 0 device).map Edge.bare := by
    conv_rhs => rw [← List.zipIdx_map_fst 0 listed]
    rw [List.flatMap_map, Connectivity.edges, List.map_flatMap]
    refine List.flatMap_congr fun p _ => ?_
    rw [← bare_edges_device, ← bare_edges_device]
  rw [hlist, Connectivity.edges, leavesOfRoot_nested, List.flatMap_map, nested, List.flatMap_assoc, List.map_flatMap]
  exact List.flatMap_congr fun device _ => bare_edges_device 0 device

/-! ## Wirings -/

theorem soundLeaves_nested (h : SoundDevices listed) : SoundLeaves (leavesOfRoot (nested listed)) where
  each leaf hleaf := by
    rw [leavesOfRoot_nested] at hleaf
    obtain ⟨p, hp, rfl⟩ := List.mem_map.1 hleaf
    obtain ⟨device, hdevice, field, hfield, c, hread, rfl⟩ := mem_nested.1 hp
    obtain ⟨c', hread', -, hconnected⟩ := h.each device hdevice field hfield
    obtain rfl : c' = c := Except.ok.inj (hread'.symm.trans hread)
    exact sound_leaf_iff.2 hconnected
  paths := by
    rw [leavesOfRoot_nested, List.map_map]
    refine List.Nodup.of_map ChannelPath.text ?_
    rw [List.map_map]
    exact keys_nested h.names

theorem soundDevices_of_nested (hnames : (listed.map Device.name).Nodup) (hdecode : ∀ device ∈ listed, device.Decodes)
    (hmodes : ∀ device ∈ listed, device.DeclaresModes) (h : SoundLeaves (leavesOfRoot (nested listed))) :
    SoundDevices listed where
  each device hdevice field hfield := by
    obtain ⟨c, hread⟩ := hdecode device hdevice field hfield
    have hin : (⟨⟨device.name ++ "." ++ field.1⟩, c.leaf⟩ : Leaf) ∈ leavesOfRoot (nested listed) := by
      rw [leavesOfRoot_nested]
      exact List.mem_map_of_mem (mem_nested.2 ⟨device, hdevice, field, hfield, c, hread, rfl⟩)
    exact ⟨c, hread, hmodes device hdevice field hfield c hread, sound_leaf_iff.1 (h.each _ hin)⟩
  names := hnames

/-- wirings with the same bare edges have the same port-clocks -/
theorem exists_wiring_of_bare {edges : List Edge} (h : edges.map Edge.bare = w.edges.map Edge.bare) :
    ∃ w' : Wiring, w'.edges = edges ∧ w'.bare = w.bare := by
  have hsame : edges.map Edge.portClock = w.edges.map Edge.portClock := by
    simpa [Edge.bare, Function.comp_def] using congrArg (List.map Edge.portClock) h
  exact ⟨.ofDistinct edges (hsame ▸ w.distinct), rfl, Wiring.bare_eq_of_edges h⟩

/-- a list that is read is read as the nested document, too -/
theorem exists_build_nested (h : Wiring.build (.devices listed) = .ok w) :
    ∃ w', Wiring.build (.paths (nested listed)) = .ok w' ∧ w'.bare = w.bare := by
  obtain ⟨hsound, hedges⟩ := Wiring.build_devices_eq_ok_iff.1 h
  obtain ⟨w', hedges', hbare⟩ := exists_wiring_of_bare (hedges ▸ bare_edges_nested listed)
  exact ⟨w', Wiring.build_paths_eq_ok_iff.2 ⟨soundLeaves_nested hsound, hedges'⟩, hbare⟩

/-- a nested document that is read is read as the list, too, if every mode of the list is one to declare -/
theorem exists_build_devices (hnames : (listed.map Device.name).Nodup) (hdecode : ∀ device ∈ listed, device.Decodes)
    (hmodes : ∀ device ∈ listed, device.DeclaresModes) (h : Wiring.build (.paths (nested listed)) = .ok w) :
    ∃ w', Wiring.build (.devices listed) = .ok w' ∧ w'.bare = w.bare := by
  obtain ⟨hsound, hedges⟩ := Wiring.build_paths_eq_ok_iff.1 h
  have hsame : (Connectivity.devices listed).edges.map Edge.bare = w.edges.map Edge.bare := by
    rw [hedges]
    exact (bare_edges_nested listed).symm
  obtain ⟨w', hedges', hbare⟩ := exists_wiring_of_bare hsame
  exact ⟨w', Wiring.build_devices_eq_ok_iff.2 ⟨soundDevices_of_nested hnames hdecode hmodes hsound, hedges'⟩, hbare⟩

end RackMap
