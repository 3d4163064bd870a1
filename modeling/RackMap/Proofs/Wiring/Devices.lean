/-
When a list of devices is read.

A channel field is sound if it can be read on its own; what other fields hold does not matter for it.
- `deviceEdge_eq_ok_iff`: a sound field has an edge, any other field has none;
- `draft_devices_clean_iff`: a list is without problems iff its channel fields are sound and its devices have different
  names;
- `build_devices_eq_ok_iff`: it is read iff moreover no port-clock is connected twice.
-/
import Mathlib.Tactic
import RackMap.Proofs.Wiring.Document

namespace RackMap.Wiring

/-- a channel that can be read, whose mode is one to declare and whose port-clock can be connected -/
def SoundField (field : String × Json) : Prop :=
  ∃ c, DeviceChannel.ofJson field.2 = .ok c ∧
    (∀ mode, c.mode? = some mode → ∃ kind, ChannelKind.ofMode? mode = some kind) ∧
    ∃ pc, portClockOf ⟨c.port, c.clock⟩ = .ok pc

/-- devices that are read without a problem -/
structure SoundDevices (listed : List Device) : Prop where
  each : ∀ device ∈ listed, ∀ field ∈ Draft.channelFields device, SoundField field
  names : (listed.map Device.name).Nodup

variable {listed : List Device} {device : Device} {fields : List (String × Json)} {field : String × Json}
  {name location : String} {index : Nat} {names : List String} {w : Wiring}

/-! ## Problems -/

namespace Draft

variable {d : Draft}

theorem deviceEdge_eq_ok_iff : (∃ e, deviceEdge name location field = .ok e) ↔ SoundField field := by
  unfold deviceEdge SoundField
  cases hc : DeviceChannel.ofJson field.2 with
  | error fault => simp [Except.mapError]
  | ok c =>
    cases hmode : c.mode? with
    | none => simp [Except.mapError, hmode, bind_eq_ok_iff]
    | some mode => cases hkind : ChannelKind.ofMode? mode <;> simp [Except.mapError, hmode, hkind, bind_eq_ok_iff]

theorem addField_clean_iff : (addField name location d field).report = [] ↔ d.report = [] ∧ SoundField field := by
  unfold addField
  simp only
  split
  · rename_i e he
    simp only [deviceEdge_eq_ok_iff.1 ⟨e, he⟩, and_true]
  · rename_i cause hcause
    refine iff_of_false (by simp) fun h => ?_
    obtain ⟨e, he⟩ := deviceEdge_eq_ok_iff.2 h.2
    rw [hcause] at he
    cases he

theorem foldl_addField_clean_iff :
    (fields.foldl (addField name location) d).report = [] ↔ d.report = [] ∧ ∀ field ∈ fields, SoundField field := by
  induction fields generalizing d with
  | nil => simp
  | cons field fields ih => rw [List.foldl_cons, ih, addField_clean_iff, List.forall_mem_cons, and_assoc]

theorem addDevices_clean_iff :
    (addDevices d index names listed).report = [] ↔
      d.report = [] ∧ SoundDevices listed ∧ ∀ device ∈ listed, device.name ∉ names := by
  induction listed generalizing d index names with
  | nil => exact ⟨fun h => ⟨h, ⟨by simp, List.nodup_nil⟩, by simp⟩, fun h => h.1⟩
  | cons device listed ih =>
    by_cases hname : device.name ∈ names
    · rw [addDevices, if_pos hname, ih]
      exact iff_of_false (fun h => by simp at h) fun h => h.2.2 device List.mem_cons_self hname
    · rw [addDevices, if_neg hname, ih, foldl_addField_clean_iff]
      constructor
      · rintro ⟨⟨hreport, hfields⟩, ⟨heach, hnames⟩, hnew⟩
        refine ⟨hreport, ⟨List.forall_mem_cons.2 ⟨hfields, heach⟩, List.nodup_cons.2 ⟨fun hin => ?_, hnames⟩⟩,
          List.forall_mem_cons.2 ⟨hname, fun other hother hin => ?_⟩⟩
        · obtain ⟨other, hother, heq⟩ := List.mem_map.1 hin
          exact hnew other hother (heq ▸ List.mem_cons_self)
        · exact hnew other hother (List.mem_cons_of_mem _ hin)
      · rintro ⟨hreport, ⟨heach, hnames⟩, hnew⟩
        obtain ⟨hfields, heach⟩ := List.forall_mem_cons.1 heach
        obtain ⟨hfirst, hnames⟩ := List.nodup_cons.1 hnames
        refine ⟨⟨hreport, hfields⟩, ⟨heach, hnames⟩, fun other hother hin => ?_⟩
        rcases List.mem_cons.1 hin with heq | hin
        · exact hfirst (heq ▸ List.mem_map_of_mem hother)
        · exact hnew other (List.mem_cons_of_mem _ hother) hin

end Draft

theorem draft_devices_clean_iff : (draft (.devices listed)).report = [] ↔ SoundDevices listed := by
  rw [draft, Draft.addDevices_clean_iff]
  simp

/-! ## Outcomes -/

/-- **Reading a list of devices.** -/
theorem build_devices_eq_ok_iff :
    build (.devices listed) = .ok w ↔ SoundDevices listed ∧ w.edges = (Connectivity.devices listed).edges := by
  constructor
  · intro h
    exact ⟨draft_devices_clean_iff.1 (build_eq_ok_iff.1 h).1, build_edges h⟩
  · rintro ⟨hsound, hedges⟩
    have hclean := draft_devices_clean_iff.2 hsound
    exact build_eq_ok_iff.2 ⟨hclean, hedges.trans (edges_draft hclean).symm⟩

end RackMap.Wiring
