/-
Which connectivities are read, and the edges that they spell out.

`Connectivity.Readable` says what is asked of a document place by place, and `Connectivity.Spells` which edges it lists,
both without anything that is kept along the way.
- `isChannelField_iff`: the fields that are taken for channels are those named `channel_` and a number;
- `soundLeaves_iff`, `soundDevices_iff`: leaves and channel fields can be read one by one iff the document is readable;
- `build_reads`: a connectivity has no schema problem iff it is readable, and then its edges are those that it spells
  out. Of a nested one nothing counts but the sequence of paths and leaves.
-/
import Mathlib.Tactic
import RackMap.Proofs.Document.Written
import RackMap.Proofs.Wiring.Devices
import RackMap.Proofs.Wiring.Places
import RackMap.Proofs.Wiring.Sound

namespace RackMap

/-- the port is `element:line`, and neither of the parts nor the clock is empty -/
def PortClockEntry.IsPair (entry : PortClockEntry) : Prop :=
  ∃ element line, PortClock.Connectable ⟨entry.port, entry.clock⟩ element line

namespace Wiring

/-! ## Channel fields -/

/-- the name is `channel_` and a number -/
def IsChannelField (name : String) : Prop :=
  ∃ digits : List Char, name.toList = "channel_".toList ++ digits ∧ digits ≠ [] ∧ ∀ c ∈ digits, c.isDigit = true

variable {name : String} {digits : List Char} {device : Device} {field : String × Json} {entry : PortClockEntry}

/-- no other scheme starts like that of channels that are only numbered -/
theorem eq_of_append_scheme {scheme : String} (hscheme : scheme ∈ Catalogue.channelSchemes)
    {rest rest' : List Char} (h : "channel_".toList ++ rest = scheme.toList ++ rest') : scheme = "channel_" := by
  simp only [Catalogue.channelSchemes, List.mem_cons, List.not_mem_nil, or_false] at hscheme
  rcases hscheme with rfl | rfl | rfl | rfl | rfl | rfl <;> simp_all

theorem isChannelField_iff :
    IsChannelField name ↔ ((Text.dropStart? "channel_" name).isSome && Catalogue.isChannelName name) = true := by
  rw [Bool.and_eq_true, Option.isSome_iff_exists, Catalogue.isChannelName, List.any_eq_true]
  constructor
  · rintro ⟨digits, hname, hsome, hdigits⟩
    have hrest : Text.dropStart? "channel_" name = some (String.ofList digits) := by
      rw [Text.dropStart?_eq_some_iff, ← String.toList_inj, hname]
      simp
    refine ⟨⟨_, hrest⟩, "channel_", by decide, ?_⟩
    rw [hrest, Option.any_some, Text.isDigits_iff]
    simpa using ⟨hsome, hdigits⟩
  · rintro ⟨⟨rest, hrest⟩, scheme, hscheme, hany⟩
    obtain ⟨number, hnumber, hdigits⟩ := (Option.any_eq_true _ _).1 hany
    rw [Text.dropStart?_eq_some_iff, ← String.toList_inj, String.toList_append] at hrest hnumber
    obtain rfl := eq_of_append_scheme hscheme (hrest.symm.trans hnumber)
    exact ⟨number.toList, hnumber, Text.isDigits_iff.1 hdigits⟩

instance : DecidablePred IsChannelField := fun _ => decidable_of_iff _ isChannelField_iff.symm

theorem channelFields_eq (device : Device) :
    Draft.channelFields device = List.filter (fun field => IsChannelField field.1) device.fields := by
  refine List.filter_congr fun field _ => ?_
  rw [Bool.eq_iff_iff, decide_eq_true_eq, isChannelField_iff]

/-! ## Readable documents -/

/-- every path ends in a leaf, every leaf can be read, and no two leaves have one path -/
structure ReadablePaths (root : Table String Json) : Prop where
  objects : ∀ keys json, Leads root keys json → ¬IsLeaf json → ∃ members, json = .obj members
  leaves : ∀ keys json, Leads root keys json → IsLeaf json →
    ∃ wiring, ChannelWiring.ofJson json = .ok wiring ∧ ∀ entry ∈ wiring.portClocks, entry.IsPair
  paths : ∀ keys keys' json json', Leads root keys json → IsLeaf json → Leads root keys' json' → IsLeaf json' →
    ChannelPath.ofSegments keys = ChannelPath.ofSegments keys' → keys = keys'

/-- devices have different names, and every channel field can be read -/
structure ReadableDevices (listed : List Device) : Prop where
  names : (listed.map Device.name).Nodup
  fields : ∀ device ∈ listed, ∀ field ∈ device.fields, IsChannelField field.1 →
    ∃ c, DeviceChannel.ofJson field.2 = .ok c ∧
      (c.mode? = none ∨ c.mode? = some "complex" ∨ c.mode? = some "real") ∧ PortClockEntry.IsPair ⟨c.port, c.clock⟩

/-- the channel fields of all devices, each with its device and the place of the device in the list -/
def listedFields (listed : List Device) : List ((Device × Nat) × (String × Json)) :=
  listed.zipIdx.flatMap fun p => (List.filter (fun field => IsChannelField field.1) p.1.fields).map fun field => (p, field)

/-- the edge of a channel field -/
def IsEdgeOf (p : (Device × Nat) × (String × Json)) (e : Edge) : Prop :=
  ∃ c, DeviceChannel.ofJson p.2.2 = .ok c ∧
    e = ⟨⟨c.port, c.clock⟩, ⟨p.1.1.name ++ "." ++ p.2.1⟩, c.lo?, c.mode?.bind ChannelKind.ofMode?,
      s!"connectivity[{p.1.2}].{p.2.1}"⟩

end Wiring

namespace Connectivity

/-- nothing is wrong with the document itself -/
def Readable : Connectivity → Prop
  | .paths root => Wiring.ReadablePaths root
  | .devices listed => Wiring.ReadableDevices listed

/-- one edge for each port-clock that is listed, in document order -/
def Spells : Connectivity → List Edge → Prop
  | .paths root, edges =>
    ∃ listed, Wiring.InOrder root listed ∧ edges = listed.flatMap fun p => Wiring.leafEdges (Wiring.leafAt p)
  | .devices listed, edges => List.Forall₂ Wiring.IsEdgeOf (Wiring.listedFields listed) edges

end Connectivity

namespace Wiring

variable {json json' : Json} {connectivity : Connectivity} {root root' : Table String Json} {listed : List Device}
  {keys : List String} {places places' : List (List String × Json)} {w : Wiring}

theorem exists_portClockOf_iff : (∃ pc, portClockOf entry = .ok pc) ↔ entry.IsPair := by
  simp only [portClockOf_eq_ok_iff, exists_eq_left, PortClockEntry.IsPair]

/-- a nested connectivity that is read from a tree repeats no key -/
theorem isUnrepeated_of_ofJson (h : Connectivity.ofJson json = .ok (.paths root)) :
    (Json.obj root).isUnrepeated = true := by
  cases json with
  | obj members =>
    rw [Connectivity.ofJson_obj] at h
    cases h
    exact Json.isUnrepeated_ofPairs (Json.forall_collapseMembers members)
  | _ =>
    simp only [Connectivity.ofJson, mapError_eq_ok_iff, map_eq_ok_iff] at h
    obtain ⟨_, -, hdevices⟩ := h
    cases hdevices

/-- a leaf can be read iff it is one and lists pairs only -/
theorem sound_leafAt_iff (hend : IsEnd json) :
    (leafAt (keys, json)).Sound ↔ IsLeaf json ∧
      ∃ wiring, ChannelWiring.ofJson json = .ok wiring ∧ ∀ entry ∈ wiring.portClocks, entry.IsPair := by
  simp only [Leaf.Sound, leafAt, exists_portClockOf_iff]
  constructor
  · rintro ⟨members, wiring, rfl, hread⟩
    exact ⟨isEnd_obj_iff.1 hend, wiring, hread⟩
  · rintro ⟨⟨members, rfl, -⟩, wiring, hread⟩
    exact ⟨members, wiring, rfl, hread⟩

theorem soundLeaves_iff (hroot : (Json.obj root).isUnrepeated = true) :
    SoundLeaves (leavesOfRoot root) ↔ ReadablePaths root := by
  have hends := inOrder_ends root
  have hkeys := hends.nodup_keys hroot
  have hpaths : ((leavesOfRoot root).map Leaf.path).Nodup ↔ ∀ p ∈ ends root, ∀ p' ∈ ends root,
      ChannelPath.ofSegments p.1 = ChannelPath.ofSegments p'.1 → p = p' := by
    rw [leavesOfRoot_eq_map_ends, List.map_map]
    exact List.nodup_map_iff_inj_on hkeys.of_map
  constructor
  · rintro ⟨heach, hnodup⟩
    rw [leavesOfRoot_eq_map_ends, List.forall_mem_map] at heach
    refine ⟨fun keys json hleads hnot => ?_, fun keys json hleads hleaf => ?_, ?_⟩
    · by_contra hobj
      have hend : IsEnd json := Or.inr fun members heq => hobj ⟨members, heq⟩
      exact hnot ((sound_leafAt_iff hend).1 (heach _ ((hends.each keys json).2 ⟨hleads, hend⟩))).1
    · have hend : IsEnd json := Or.inl hleaf
      exact ((sound_leafAt_iff hend).1 (heach _ ((hends.each keys json).2 ⟨hleads, hend⟩))).2
    · intro keys keys' json json' hleads hleaf hleads' hleaf' hsame
      have heq := hpaths.1 hnodup _ ((hends.each keys json).2 ⟨hleads, Or.inl hleaf⟩) _
        ((hends.each keys' json').2 ⟨hleads', Or.inl hleaf'⟩) hsame
      exact congrArg Prod.fst heq
  · rintro ⟨hobjects, hleaves, hdistinct⟩
    have hleaf : ∀ {keys json}, Leads root keys json ∧ IsEnd json → IsLeaf json := by
      rintro keys json ⟨hleads, hleaf | hvalue⟩
      · exact hleaf
      · by_contra hnot
        obtain ⟨members, heq⟩ := hobjects keys json hleads hnot
        exact hvalue members heq
    refine ⟨?_, hpaths.2 ?_⟩
    · rw [leavesOfRoot_eq_map_ends, List.forall_mem_map]
      rintro ⟨keys, json⟩ hin
      have hplace := (hends.each keys json).1 hin
      exact (sound_leafAt_iff hplace.2).2 ⟨hleaf hplace, hleaves keys json hplace.1 (hleaf hplace)⟩
    · rintro ⟨keys, json⟩ hin ⟨keys', json'⟩ hin' hsame
      have hplace := (hends.each keys json).1 hin
      have hplace' := (hends.each keys' json').1 hin'
      refine List.inj_on_of_nodup_map hkeys hin hin' ?_
      exact hdistinct keys keys' json json' hplace.1 (hleaf hplace) hplace'.1 (hleaf hplace') hsame

/-- the modes that a channel field can declare -/
theorem exists_kind_iff {mode? : Option String} :
    (∀ mode, mode? = some mode → ∃ kind, ChannelKind.ofMode? mode = some kind) ↔
      mode? = none ∨ mode? = some "complex" ∨ mode? = some "real" := by
  have hmode : ∀ mode, (∃ kind, ChannelKind.ofMode? mode = some kind) ↔ mode = "complex" ∨ mode = "real" := by
    intro mode
    unfold ChannelKind.ofMode? ChannelKind.ofText?
    split <;> rename_i heq <;> split at heq <;> simp_all
  cases mode? with
  | none => simp
  | some mode => simp [hmode]

theorem soundDevices_iff : SoundDevices listed ↔ ReadableDevices listed := by
  have heach : ∀ device : Device, (∀ field ∈ Draft.channelFields device, SoundField field) ↔
      ∀ field ∈ device.fields, IsChannelField field.1 → ∃ c, DeviceChannel.ofJson field.2 = .ok c ∧
        (c.mode? = none ∨ c.mode? = some "complex" ∨ c.mode? = some "real") ∧
        PortClockEntry.IsPair ⟨c.port, c.clock⟩ := by
    intro device
    simp only [channelFields_eq, List.mem_filter, decide_eq_true_eq, and_imp, SoundField, exists_kind_iff,
      exists_portClockOf_iff]
  exact ⟨fun h => ⟨h.names, fun device hdevice => (heach device).1 (h.each device hdevice)⟩,
    fun h => ⟨fun device hdevice => (heach device).2 (h.fields device hdevice), h.names⟩⟩

/-! ## Outcomes -/

/-- schema problems are those of the draft -/
theorem build_ne_schema_iff :
    (∀ report, build connectivity ≠ .error (.schema report)) ↔ (draft connectivity).report = [] := by
  unfold build ofEdges
  simp only [List.isEmpty_iff]
  split
  · rename_i hclean
    refine iff_of_true (fun report h => ?_) hclean
    split at h <;> cases h
  · rename_i hproblems
    exact iff_of_false (fun h => h _ rfl) hproblems

theorem draft_clean_iff_readable (h : Connectivity.ofJson json = .ok connectivity) :
    (draft connectivity).report = [] ↔ connectivity.Readable := by
  cases connectivity with
  | paths root => exact draft_clean_iff.trans (soundLeaves_iff (isUnrepeated_of_ofJson h))
  | devices listed => exact draft_devices_clean_iff.trans soundDevices_iff

theorem fieldLocation_eq (index : Nat) (name : String) : fieldLocation index name = s!"connectivity[{index}].{name}" := by
  have hclose : "]." = "]" ++ "." := rfl
  simp only [fieldLocation, deviceLocation, toString, hclose, String.append_assoc]

theorem isEdgeOf_iff {p : Device × Nat} {e : Edge} : IsEdgeOf (p, field) e ↔ fieldEdge? p.2 p.1 field = some e := by
  unfold IsEdgeOf fieldEdge?
  cases hc : DeviceChannel.ofJson field.2 with
  | error fault => simp
  | ok c => simp [ChannelPath.ofSegments, Text.join, fieldLocation_eq, eq_comm]

/-- fields that can be read have one edge each -/
theorem forall₂_fieldEdge? (p : Device × Nat) {fields : List (String × Json)}
    (h : ∀ field ∈ fields, ∃ e, fieldEdge? p.2 p.1 field = some e) :
    List.Forall₂ IsEdgeOf (fields.map fun field => (p, field)) (fields.filterMap (fieldEdge? p.2 p.1)) := by
  induction fields with
  | nil => exact List.Forall₂.nil
  | cons field fields ih =>
    obtain ⟨⟨e, he⟩, hrest⟩ := List.forall_mem_cons.1 h
    rw [List.filterMap_cons_some he, List.map_cons]
    exact List.Forall₂.cons (isEdgeOf_iff.2 he) (ih hrest)

theorem forall₂_deviceEdges {devices : List (Device × Nat)}
    (h : ∀ p ∈ devices, ∀ field ∈ Draft.channelFields p.1, ∃ e, fieldEdge? p.2 p.1 field = some e) :
    List.Forall₂ IsEdgeOf
      (devices.flatMap fun p => (List.filter (fun field => IsChannelField field.1) p.1.fields).map fun field => (p, field))
      (devices.flatMap fun p => deviceEdges p.2 p.1) := by
  induction devices with
  | nil => exact List.Forall₂.nil
  | cons p devices ih =>
    rw [List.forall_mem_cons] at h
    rw [List.flatMap_cons, List.flatMap_cons, ← channelFields_eq]
    exact List.rel_append (forall₂_fieldEdge? p h.1) (ih h.2)

theorem spells_edges (h : connectivity.Readable) : connectivity.Spells connectivity.edges := by
  cases connectivity with
  | paths root =>
    refine ⟨ends root, inOrder_ends root, ?_⟩
    rw [Connectivity.edges, leavesOfRoot_eq_map_ends, List.flatMap_map]
  | devices listed =>
    refine forall₂_deviceEdges fun p hp field hfield => ?_
    obtain ⟨c, hc, -⟩ := (soundDevices_iff.2 h).each p.1 (List.fst_mem_of_mem_zipIdx hp) field hfield
    exact ⟨_, isEdgeOf_iff.1 ⟨c, hc, rfl⟩⟩

/-- a document spells out one list of edges -/
theorem spells_unique {edges edges' : List Edge} (h : Connectivity.ofJson json = .ok connectivity)
    (hspells : connectivity.Spells edges) (hspells' : connectivity.Spells edges') : edges = edges' := by
  cases connectivity with
  | paths root =>
    obtain ⟨places, hplaces, rfl⟩ := hspells
    obtain ⟨places', hplaces', rfl⟩ := hspells'
    rw [hplaces.unique hplaces' (isUnrepeated_of_ofJson h)]
  | devices listed =>
    have hread : Relator.RightUnique IsEdgeOf := by
      rintro ⟨p, field⟩ e e' he he'
      exact Option.some.inj ((isEdgeOf_iff.1 he).symm.trans (isEdgeOf_iff.1 he'))
    exact List.right_unique_forall₂' hread hspells hspells'

/-- a readable document fails for its edges only -/
theorem build_of_readable {edges : List Edge} (h : Connectivity.ofJson json = .ok connectivity)
    (hreadable : connectivity.Readable) (hspells : connectivity.Spells edges) :
    build connectivity = ofEdges edges := by
  have hclean := (draft_clean_iff_readable h).2 hreadable
  rw [spells_unique h hspells (spells_edges hreadable), build, if_pos (List.isEmpty_iff.2 hclean), edges_draft hclean]

/-- nothing but the leaves in their order is read off a nested document -/
theorem build_eq_of_leaves_eq (h : Connectivity.ofJson json = .ok (.paths root))
    (h' : Connectivity.ofJson json' = .ok (.paths root')) (hplaces : InOrder root places)
    (hplaces' : InOrder root' places') (hleaves : places.map leafAt = places'.map leafAt) :
    build (.paths root) = build (.paths root') := by
  obtain rfl := hplaces.unique (inOrder_ends root) (isUnrepeated_of_ofJson h)
  obtain rfl := hplaces'.unique (inOrder_ends root') (isUnrepeated_of_ofJson h')
  rw [← leavesOfRoot_eq_map_ends, ← leavesOfRoot_eq_map_ends] at hleaves
  rw [build, build, draft_paths, draft_paths, hleaves]

/-- **Reading a connectivity.** A connectivity has no schema problem iff it is readable. Then its edges are those that
it spells out, which it always does and in one way, and it fails for port-clocks that are connected twice only. A nested
connectivity is told by the sequence of its paths and leaves, however their paths are split into keys. -/
theorem build_reads (h : Connectivity.ofJson json = .ok connectivity) :
    ((∀ report, build connectivity ≠ .error (.schema report)) ↔ connectivity.Readable) ∧
      (connectivity.Readable → ∃ edges, connectivity.Spells edges ∧ (∀ other, connectivity.Spells other → other = edges) ∧
        build connectivity = ofEdges edges ∧ ∀ w, build connectivity = .ok w → w.edges = edges) ∧
      ∀ root root' json' places places', connectivity = .paths root → Connectivity.ofJson json' = .ok (.paths root') →
        InOrder root places → InOrder root' places' → places.map leafAt = places'.map leafAt →
        build connectivity = build (.paths root') := by
  refine ⟨build_ne_schema_iff.trans (draft_clean_iff_readable h), fun hreadable => ?_, ?_⟩
  · have hspells := spells_edges hreadable
    exact ⟨connectivity.edges, hspells, fun other hother => spells_unique h hother hspells,
      build_of_readable h hreadable hspells, fun w hw => build_edges hw⟩
  · rintro root root' json' places places' rfl h' hplaces hplaces' hleaves
    exact build_eq_of_leaves_eq h h' hplaces hplaces' hleaves

/-- a leaf with one port-clock -/
def oneLeaf (port clock : String) : Json :=
  .obj [("portclock_configs", .arr [.obj [("port", .str port), ("clock", .str clock)]])]

/-- two channels, the first dot of each path inside a key or between keys -/
def dottedFirst : Table String Json :=
  [("cluster0", .obj [("module1.complex_output_0", oneLeaf "q0:mw" "q0.01")]),
    ("cluster0.module2", .obj [("complex_output_0", oneLeaf "q1:mw" "q1.01")])]

/-- the same two channels, the dots split the other way round -/
def dottedLast : Table String Json :=
  [("cluster0.module1", .obj [("complex_output_0", oneLeaf "q0:mw" "q0.01")]),
    ("cluster0", .obj [("module2.complex_output_0", oneLeaf "q1:mw" "q1.01")])]

/-- both are read, as the same two edges -/
theorem build_reads_dotted :
    Connectivity.ofJson (.obj dottedFirst) = .ok (.paths dottedFirst) ∧
      Connectivity.ofJson (.obj dottedLast) = .ok (.paths dottedLast) ∧
      (Connectivity.paths dottedFirst).Readable ∧ build (.paths dottedFirst) = build (.paths dottedLast) ∧
      ∃ w, build (.paths dottedFirst) = .ok w ∧ (Connectivity.paths dottedFirst).Spells w.edges ∧
        w.edges.map (fun e => (e.portClock, e.channel)) =
          [(⟨"q0:mw", "q0.01"⟩, ⟨"cluster0.module1.complex_output_0"⟩),
            (⟨"q1:mw", "q1.01"⟩, ⟨"cluster0.module2.complex_output_0"⟩)] := by
  have hfirst : Connectivity.ofJson (.obj dottedFirst) = .ok (.paths dottedFirst) := by
    rw [Connectivity.ofJson_obj, Json.collapseMembers_eq_self _ (by decide), Table.ofPairs_eq_self (by decide)]
  have hlast : Connectivity.ofJson (.obj dottedLast) = .ok (.paths dottedLast) := by
    rw [Connectivity.ofJson_obj, Json.collapseMembers_eq_self _ (by decide), Table.ofPairs_eq_self (by decide)]
  obtain ⟨hschema, hedges, hsame⟩ := build_reads hfirst
  obtain ⟨w, hw, hwired⟩ := exists_eq_ok (x := build (.paths dottedFirst))
    (c := fun w => decide (w.edges.map (fun e => (e.portClock, e.channel)) =
      [(⟨"q0:mw", "q0.01"⟩, ⟨"cluster0.module1.complex_output_0"⟩),
        (⟨"q1:mw", "q1.01"⟩, ⟨"cluster0.module2.complex_output_0"⟩)])) (by decide +kernel)
  have hreadable : (Connectivity.paths dottedFirst).Readable := by
    refine hschema.1 fun report herror => ?_
    rw [hw] at herror
    cases herror
  obtain ⟨edges, hspells, -, -, hwedges⟩ := hedges hreadable
  refine ⟨hfirst, hlast, hreadable, ?_, w, hw, ?_, of_decide_eq_true hwired⟩
  · exact hsame dottedFirst dottedLast _ _ _ rfl hlast (inOrder_ends _) (inOrder_ends _) rfl
  · rw [hwedges w hw]
    exact hspells

end Wiring

end RackMap
