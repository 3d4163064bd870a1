/-
The edges that a connectivity spells out, read off the document leaf by leaf or device by device.

`Connectivity.edges` lists them without the bookkeeping of a draft: one edge for each port-clock that is listed.
- `build_edges`: a wiring that is built from a document has exactly these edges, in the order of the document.
- `lo?_eq_of_channel_eq`: edges on one channel name the same oscillator. A path is read once, a device has one field of
  each name, and the name of a channel field holds no dot, so no two devices reach the same channel.
- `channel_eq_of_location_eq`: edges declared at one place are on one channel.
-/
import Mathlib.Tactic
import RackMap.Proofs.Outcome
import RackMap.Proofs.PortClock
import RackMap.Proofs.Wiring.Index
import RackMap.Proofs.Wiring.Walk

namespace RackMap

namespace Wiring

/-! ## What the document spells out -/

def Leaf.location (leaf : Leaf) : String := s!"connectivity.{leaf.path.text}"

/-- the edges of a leaf, one for each port-clock that it lists -/
def leafEdges (leaf : Leaf) : List Edge :=
  match leaf.value with
  | .obj members =>
    match ChannelWiring.ofJson (.obj members) with
    | .ok wiring =>
      wiring.portClocks.map fun entry => ⟨⟨entry.port, entry.clock⟩, leaf.path, wiring.lo?, none, leaf.location⟩
    | .error _ => []
  | _ => []

def deviceLocation (index : Nat) : String := s!"connectivity[{index}]"

/-- where the field `name` of the device at `index` stands -/
def fieldLocation (index : Nat) (name : String) : String := s!"{deviceLocation index}.{name}"

/-- the edge of a channel field of the device at `index` -/
def fieldEdge? (index : Nat) (device : Device) (field : String × Json) : Option Edge :=
  match DeviceChannel.ofJson field.2 with
  | .ok c =>
    some ⟨⟨c.port, c.clock⟩, .ofSegments [device.name, field.1], c.lo?, c.mode?.bind ChannelKind.ofMode?,
      fieldLocation index field.1⟩
  | .error _ => none

/-- the edges of the device at `index`, one for each channel field -/
def deviceEdges (index : Nat) (device : Device) : List Edge :=
  (Draft.channelFields device).filterMap (fieldEdge? index device)

end Wiring

/-- the edges that a connectivity spells out, in document order -/
def Connectivity.edges : Connectivity → List Edge
  | .paths root => (Wiring.leavesOfRoot root).flatMap Wiring.leafEdges
  | .devices listed => listed.zipIdx.flatMap fun p => Wiring.deviceEdges p.2 p.1

namespace Wiring

/-! ## Leaves -/

namespace Draft

theorem addWiring_clean {d : Draft} {path : ChannelPath} {location : String} {wiring : ChannelWiring}
    (h : (d.addWiring path location wiring).report = []) :
    d.report = [] ∧ (d.addWiring path location wiring).edges = d.edges ++
      wiring.portClocks.map fun entry => ⟨⟨entry.port, entry.clock⟩, path, wiring.lo?, none, location⟩ := by
  simp only [addWiring, List.append_eq_nil_iff, List.filterMap_eq_nil_iff, List.forall_mem_map] at h ⊢
  obtain ⟨hreport, hentries⟩ := h
  refine ⟨hreport, congrArg (d.edges ++ ·) ?_⟩
  rw [List.filterMap_map, ← List.filterMap_eq_map]
  refine List.filterMap_congr fun entry hentry => ?_
  have hok := hentries entry hentry
  simp only [Function.comp_apply]
  cases he : portClockOf entry with
  | error cause => rw [he] at hok; cases hok
  | ok pc => rw [(portClockOf_eq_ok_iff.1 he).1]

/-- one leaf that is read without a problem -/
theorem addLeaf_clean {d : Draft} {leaf : Leaf} (h : (d.addLeaf leaf).report = []) :
    d.report = [] ∧ leaf.path ∉ d.seen ∧ (d.addLeaf leaf).seen = leaf.path :: d.seen ∧
      (d.addLeaf leaf).edges = d.edges ++ leafEdges leaf := by
  obtain ⟨path, value⟩ := leaf
  cases value with
  | obj members =>
    cases hw : ChannelWiring.ofJson (.obj members) with
    | error fault => simp [addLeaf, hw] at h
    | ok wiring =>
      by_cases hseen : path ∈ d.seen
      · simp [addLeaf, hw, hseen] at h
      · simp only [addLeaf, hw, hseen, if_false, leafEdges] at h ⊢
        obtain ⟨hreport, hedges⟩ := addWiring_clean h
        exact ⟨hreport, not_false, rfl, hedges⟩
  | _ => simp [addLeaf] at h

theorem foldl_addLeaf_clean {leaves : List Leaf} {d : Draft} (h : (leaves.foldl addLeaf d).report = []) :
    d.report = [] ∧ (leaves.map Leaf.path).Nodup ∧ (∀ leaf ∈ leaves, leaf.path ∉ d.seen) ∧
      (leaves.foldl addLeaf d).edges = d.edges ++ leaves.flatMap leafEdges := by
  induction leaves generalizing d with
  | nil => exact ⟨h, List.nodup_nil, by simp, by simp⟩
  | cons leaf leaves ih =>
    rw [List.foldl_cons] at h
    obtain ⟨hreport, hnodup, hseen, hedges⟩ := ih h
    obtain ⟨hfirst, hnew, hpaths, hleaf⟩ := addLeaf_clean hreport
    rw [hpaths] at hseen
    refine ⟨hfirst, ?_, ?_, ?_⟩
    · rw [List.map_cons, List.nodup_cons]
      refine ⟨fun hin => ?_, hnodup⟩
      obtain ⟨other, hother, heq⟩ := List.mem_map.1 hin
      exact hseen other hother (heq ▸ List.mem_cons_self)
    · intro other hother
      rcases List.mem_cons.1 hother with rfl | hother
      · exact hnew
      · exact fun hin => hseen other hother (List.mem_cons_of_mem _ hin)
    · rw [List.foldl_cons, hedges, hleaf, List.flatMap_cons, List.append_assoc]

/-! ## Devices -/

theorem deviceEdge_ok {index : Nat} {device : Device} {field : String × Json} {e : Edge}
    (h : deviceEdge device.name (fieldLocation index field.1) field = .ok e) :
    fieldEdge? index device field = some e := by
  unfold deviceEdge at h
  unfold fieldEdge?
  cases hc : DeviceChannel.ofJson field.2 with
  | error fault => rw [hc] at h; cases h
  | ok c =>
    cases hm : c.mode? with
    | none =>
      simp only [hc, hm, Except.mapError, ok_bind, pure_eq_ok, bind_eq_ok_iff] at h
      obtain ⟨pc, hpc, h⟩ := h
      cases h
      simp [(portClockOf_eq_ok_iff.1 hpc).1, hm]
    | some mode =>
      cases hk : ChannelKind.ofMode? mode with
      | none => simp [hc, hm, hk, Except.mapError] at h
      | some kind =>
        simp only [hc, hm, hk, Except.mapError, ok_bind, pure_eq_ok, bind_eq_ok_iff] at h
        obtain ⟨pc, hpc, h⟩ := h
        cases h
        simp [(portClockOf_eq_ok_iff.1 hpc).1, hm, hk]

theorem foldl_addField_clean {index : Nat} {device : Device} {fields : List (String × Json)} {d : Draft}
    (h : (fields.foldl (addField device.name s!"connectivity[{index}]") d).report = []) :
    d.report = [] ∧ (fields.foldl (addField device.name s!"connectivity[{index}]") d).edges =
      d.edges ++ fields.filterMap (fieldEdge? index device) := by
  induction fields generalizing d with
  | nil => exact ⟨h, by simp⟩
  | cons field fields ih =>
    rw [List.foldl_cons] at h ⊢
    obtain ⟨hreport, hedges⟩ := ih h
    rw [hedges]
    unfold addField at hreport ⊢
    simp only at hreport ⊢
    split at hreport
    · rename_i e he
      exact ⟨hreport, by rw [List.filterMap_cons, deviceEdge_ok he, List.append_assoc, List.singleton_append]⟩
    · simp at hreport

theorem addDevices_clean {listed : List Device} {d : Draft} {index : Nat} {names : List String}
    (h : (addDevices d index names listed).report = []) :
    d.report = [] ∧ (listed.map Device.name).Nodup ∧ (∀ device ∈ listed, device.name ∉ names) ∧
      (addDevices d index names listed).edges =
        d.edges ++ (listed.zipIdx index).flatMap fun p => deviceEdges p.2 p.1 := by
  induction listed generalizing d index names with
  | nil => exact ⟨h, List.nodup_nil, by simp, by simp [addDevices]⟩
  | cons device listed ih =>
    rw [addDevices] at h ⊢
    by_cases hname : device.name ∈ names
    · simp only [hname, if_true] at h
      have hreport := (ih h).1
      simp at hreport
    · simp only [hname, if_false] at h ⊢
      obtain ⟨hreport, hnodup, hnames, hedges⟩ := ih h
      obtain ⟨hfirst, hfields⟩ := foldl_addField_clean hreport
      refine ⟨hfirst, ?_, ?_, ?_⟩
      · rw [List.map_cons, List.nodup_cons]
        refine ⟨fun hin => ?_, hnodup⟩
        obtain ⟨other, hother, heq⟩ := List.mem_map.1 hin
        exact hnames other hother (heq ▸ List.mem_cons_self)
      · intro other hother
        rcases List.mem_cons.1 hother with rfl | hother
        · exact hname
        · exact fun hin => hnames other hother (List.mem_cons_of_mem _ hin)
      · rw [hedges, hfields, List.zipIdx_cons, List.flatMap_cons, List.append_assoc]
        rfl

end Draft

/-! ## The wiring of a document -/

theorem build_eq_ok_iff {connectivity : Connectivity} {w : Wiring} :
    build connectivity = .ok w ↔ (draft connectivity).report = [] ∧ w.edges = (draft connectivity).edges := by
  unfold build
  simp only [List.isEmpty_iff]
  split
  · rename_i hreport
    rw [ofEdges_eq_ok_iff]
    exact ⟨fun h => ⟨hreport, h⟩, fun h => h.2⟩
  · rename_i hreport
    refine ⟨fun h => ?_, fun h => absurd h.1 hreport⟩
    cases h

/-- leaves that are read without a problem have different paths -/
theorem nodup_paths_of_clean {root : Table String Json} (h : (draft (.paths root)).report = []) :
    ((leavesOfRoot root).map Leaf.path).Nodup := by
  rw [draft_paths] at h
  exact (Draft.foldl_addLeaf_clean h).2.1

/-- a draft without problems has the edges that the document spells out -/
theorem edges_draft {connectivity : Connectivity} (h : (draft connectivity).report = []) :
    (draft connectivity).edges = connectivity.edges := by
  cases connectivity with
  | paths root =>
    rw [draft_paths] at h ⊢
    exact (Draft.foldl_addLeaf_clean h).2.2.2
  | devices listed => exact (Draft.addDevices_clean h).2.2.2

/-- **A wiring follows its document.** It has one edge for each port-clock that is listed, in document order. -/
theorem build_edges {connectivity : Connectivity} {w : Wiring} (h : build connectivity = .ok w) :
    w.edges = connectivity.edges := by
  obtain ⟨hreport, hedges⟩ := build_eq_ok_iff.1 h
  rw [hedges, edges_draft hreport]

/-! ## One oscillator for each channel -/

theorem mem_leafEdges {leaf : Leaf} {e : Edge} (h : e ∈ leafEdges leaf) :
    ∃ wiring, ChannelWiring.ofJson leaf.value = .ok wiring ∧ e.channel = leaf.path ∧ e.lo? = wiring.lo? ∧
      e.location = leaf.location := by
  obtain ⟨path, value⟩ := leaf
  cases value with
  | obj members =>
    unfold leafEdges at h
    simp only at h
    split at h
    · rename_i wiring hwiring
      obtain ⟨entry, -, rfl⟩ := List.mem_map.1 h
      exact ⟨wiring, hwiring, rfl, rfl, rfl⟩
    · cases h
  | _ => cases h

/-- the name of a channel holds no dot -/
theorem dot_notMem_of_isChannelName {name : String} (h : Catalogue.isChannelName name = true) : '.' ∉ name.toList := by
  unfold Catalogue.isChannelName at h
  obtain ⟨scheme, hscheme, h⟩ := List.any_eq_true.1 h
  obtain ⟨rest, hrest, hdigits⟩ := (Option.any_eq_true _ _).1 h
  rw [Text.dropStart?_eq_some_iff.1 hrest, String.toList_append, List.mem_append, not_or]
  constructor
  · have hschemes : ∀ scheme ∈ Catalogue.channelSchemes, '.' ∉ scheme.toList := by decide
    exact hschemes scheme hscheme
  · intro hdot
    have hdigit := (Text.isDigits_iff.1 hdigits).2 '.' hdot
    revert hdigit
    decide

/-- a device and the name of its field are told by the path of the channel -/
theorem ofSegments_inj {device device' name name' : String} (h : '.' ∉ name.toList) (h' : '.' ∉ name'.toList)
    (heq : ChannelPath.ofSegments [device, name] = ChannelPath.ofSegments [device', name']) :
    device = device' ∧ name = name' := by
  simp only [ChannelPath.ofSegments, Text.join, ChannelPath.mk.injEq, ← String.toList_inj, String.toList_append,
    List.append_assoc] at heq
  obtain ⟨hdevice, hname⟩ := Text.append_cons_inj h h' heq
  exact ⟨String.toList_inj.1 hdevice, String.toList_inj.1 hname⟩

theorem mem_deviceEdges {index : Nat} {device : Device} {e : Edge} (h : e ∈ deviceEdges index device) :
    ∃ field ∈ device.fields, '.' ∉ field.1.toList ∧ e.channel = ChannelPath.ofSegments [device.name, field.1] ∧
      e.location = fieldLocation index field.1 ∧ ∃ c, DeviceChannel.ofJson field.2 = .ok c ∧ e.lo? = c.lo? := by
  obtain ⟨field, hfield, he⟩ := List.mem_filterMap.1 h
  obtain ⟨hmem, hname⟩ := List.mem_filter.1 hfield
  refine ⟨field, hmem, dot_notMem_of_isChannelName (Bool.and_eq_true_iff.1 hname).2, ?_⟩
  unfold fieldEdge? at he
  split at he
  · rename_i c hc
    cases he
    exact ⟨rfl, rfl, c, hc, rfl⟩
  · cases he

/-- **A channel has one external oscillator.** Edges of a document on the same channel name the same oscillator, or
all of them none. -/
theorem lo?_eq_of_channel_eq {connectivity : Connectivity} {w : Wiring} (h : build connectivity = .ok w) {e e' : Edge}
    (he : e ∈ w.edges) (he' : e' ∈ w.edges) (hchannel : e.channel = e'.channel) : e.lo? = e'.lo? := by
  rw [build_edges h] at he he'
  obtain ⟨hreport, -⟩ := build_eq_ok_iff.1 h
  cases connectivity with
  | paths root =>
    have hnodup := nodup_paths_of_clean hreport
    obtain ⟨leaf, hleaf, he⟩ := List.mem_flatMap.1 he
    obtain ⟨leaf', hleaf', he'⟩ := List.mem_flatMap.1 he'
    obtain ⟨wiring, hwiring, hpath, hlo, -⟩ := mem_leafEdges he
    obtain ⟨wiring', hwiring', hpath', hlo', -⟩ := mem_leafEdges he'
    obtain rfl := List.inj_on_of_nodup_map hnodup hleaf hleaf' (hpath.symm.trans (hchannel.trans hpath'))
    rw [hwiring] at hwiring'
    cases hwiring'
    rw [hlo, hlo']
  | devices listed =>
    obtain ⟨-, hnodup, -⟩ := Draft.addDevices_clean hreport
    obtain ⟨⟨device, index⟩, hp, he⟩ := List.mem_flatMap.1 he
    obtain ⟨⟨device', index'⟩, hp', he'⟩ := List.mem_flatMap.1 he'
    obtain ⟨field, hfield, hdot, hpath, -, c, hc, hlo⟩ := mem_deviceEdges he
    obtain ⟨field', hfield', hdot', hpath', -, c', hc', hlo'⟩ := mem_deviceEdges he'
    obtain ⟨hname, hkey⟩ := ofSegments_inj hdot hdot' (hpath.symm.trans (hchannel.trans hpath'))
    obtain rfl := List.inj_on_of_nodup_map hnodup (List.fst_mem_of_mem_zipIdx hp) (List.fst_mem_of_mem_zipIdx hp') hname
    obtain rfl := List.inj_on_of_nodup_map device.distinct hfield hfield' hkey
    rw [hc] at hc'
    cases hc'
    rw [hlo, hlo']

/-! ## One channel for each place -/

theorem toDigits_inj {i j : Nat} (h : Nat.toDigits 10 i = Nat.toDigits 10 j) : i = j := by
  have hread := congrArg (fun digits => Nat.ofDigitChars 10 digits 0) h
  simpa only [Nat.ofDigitChars_ten_toDigits] using hread

theorem fieldLocation_inj {i j : Nat} {name name' : String} (h : '.' ∉ name.toList) (h' : '.' ∉ name'.toList)
    (heq : fieldLocation i name = fieldLocation j name') : i = j ∧ name = name' := by
  have hlist : (deviceLocation i).toList ++ '.' :: name.toList = (deviceLocation j).toList ++ '.' :: name'.toList := by
    simpa [fieldLocation, toString] using congrArg String.toList heq
  obtain ⟨hdevice, hname⟩ := Text.append_cons_inj h h' hlist
  have hdigits : Nat.toDigits 10 i = Nat.toDigits 10 j := by simpa [deviceLocation] using hdevice
  exact ⟨toDigits_inj hdigits, String.toList_inj.1 hname⟩

/-- edges of a document that are declared at one place are on one channel -/
theorem channel_eq_of_location_eq {connectivity : Connectivity} {w : Wiring} (h : build connectivity = .ok w)
    {e e' : Edge} (he : e ∈ w.edges) (he' : e' ∈ w.edges) (hlocation : e.location = e'.location) :
    e.channel = e'.channel := by
  rw [build_edges h] at he he'
  cases connectivity with
  | paths root =>
    obtain ⟨leaf, -, he⟩ := List.mem_flatMap.1 he
    obtain ⟨leaf', -, he'⟩ := List.mem_flatMap.1 he'
    obtain ⟨-, -, hpath, -, hplace⟩ := mem_leafEdges he
    obtain ⟨-, -, hpath', -, hplace'⟩ := mem_leafEdges he'
    have htext := hplace.symm.trans (hlocation.trans hplace')
    simp only [Leaf.location, toString, String.append_right_inj] at htext
    exact hpath.trans ((congrArg ChannelPath.mk htext).trans hpath'.symm)
  | devices listed =>
    obtain ⟨⟨device, index⟩, hp, he⟩ := List.mem_flatMap.1 he
    obtain ⟨⟨device', index'⟩, hp', he'⟩ := List.mem_flatMap.1 he'
    obtain ⟨field, -, hdot, hpath, hplace, -⟩ := mem_deviceEdges he
    obtain ⟨field', -, hdot', hpath', hplace', -⟩ := mem_deviceEdges he'
    obtain ⟨rfl, hname⟩ := fieldLocation_inj hdot hdot' (hplace.symm.trans (hlocation.trans hplace'))
    have hdevice : device = device' := by
      have := List.mem_zipIdx_iff_getElem?.1 hp
      rw [List.mem_zipIdx_iff_getElem?.1 hp', Option.some.injEq] at this
      exact this.symm
    rw [hpath, hpath', hdevice, hname]

end Wiring

end RackMap
