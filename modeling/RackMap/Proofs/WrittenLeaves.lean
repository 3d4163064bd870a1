/-
What a compilation makes of the leaves that a text writes.

A text may write one path in several ways: by nesting, by dots in its keys, or by a key that comes up twice in one
object. `ReadsWritten` says how far each way is noticed. Leaves that are read with one path are refused, however it is
spelled, and the port-clocks of all leaves that are read are found on the map. But a member that is overwritten by a
later one with its key is never read, so its leaves are neither refused nor compiled.
- `compile_written_leaves` proves it of every text of a config whose connectivity is an object;
- `overwrittenChars_compiles` is a text with a path that is written twice, which compiles to the second leaf alone.
-/
import Mathlib.Tactic
import RackMap.Proofs.Document.Written
import RackMap.Proofs.Reading
import RackMap.Proofs.Wiring.Repeated
import RackMap.Proofs.Wiring.Written

namespace RackMap

open RackMap.Wiring (Leaf keptOfRoot leafEdges leavesOfRoot readings twiceAt)

variable {config : Config} {settings : Settings} {m : CompiledMap} {members : List (String × Json)} {s : String}
  {root : Table String Json} {path : ChannelPath} {pc : PortClock}

/-! ## A connectivity with problems -/

/-- schema problems of the connectivity end the compilation, whatever else is wrong -/
theorem exists_schema_of_draft (h : (Wiring.draft config.connectivity).report ≠ []) :
    ∃ report, compile config settings = .error (.schema report) := by
  have hwiring : Wiring.build config.connectivity = .error (.schema (Wiring.draft config.connectivity).report) := by
    rw [Wiring.build]
    exact if_neg (by simpa using h)
  have hread : Parsed.ofConfig config settings.sanitize.2 = .error (.schema (Parsed.problems config)) :=
    Parsed.ofConfig_eq_schema_iff.2 ⟨.connectivity hwiring, rfl⟩
  exact ⟨_, by rw [compile, hread, error_bind]⟩

/-- leaves that share a path are a schema problem, whether they can be read or not -/
theorem exists_schema_of_path (hpaths : config.connectivity = .paths root)
    (h : ¬((leavesOfRoot root).map Leaf.path).Nodup) : ∃ report, compile config settings = .error (.schema report) := by
  refine exists_schema_of_draft fun hclean => h ?_
  rw [hpaths] at hclean
  exact Wiring.nodup_paths_of_clean hclean

/-- a port-clock is found on a path iff a leaf at that path lists it -/
theorem exists_found_iff (h : compile config settings = .ok m) (hpaths : config.connectivity = .paths root) :
    (∃ entry, m.find? pc = some (path, entry)) ↔
      ∃ leaf ∈ leavesOfRoot root, leaf.path = path ∧ ∃ e ∈ leafEdges leaf, e.portClock = pc := by
  obtain ⟨p, warnings, hc⟩ := compile_compiled h
  have hedges : p.wiring.edges = (leavesOfRoot root).flatMap leafEdges := by
    rw [hc.edges, hpaths]
    rfl
  constructor
  · rintro ⟨entry, hfind⟩
    obtain ⟨-, e, he, hpath, hpc⟩ := Compile.edge_of_find? hc.map hfind
    rw [hedges] at he
    obtain ⟨leaf, hleaf, he⟩ := List.mem_flatMap.1 he
    obtain ⟨-, -, hchannel, -⟩ := Wiring.mem_leafEdges he
    exact ⟨leaf, hleaf, hchannel.symm.trans hpath, e, he, hpc⟩
  · rintro ⟨leaf, hleaf, rfl, e, he, rfl⟩
    obtain ⟨-, -, hchannel, -⟩ := Wiring.mem_leafEdges he
    have hin : e ∈ p.wiring.edges := by
      rw [hedges]
      exact List.mem_flatMap.2 ⟨leaf, hleaf, he⟩
    exact ⟨_, hchannel ▸ Compile.find?_of_edge hc.map hin⟩

/-! ## Texts -/

/-- how the leaves that a document writes are read: those that are kept count, all others are passed over -/
structure ReadsWritten (config : Config) (members : List (String × Json)) : Prop where
  /-- what is kept is written -/
  written : (keptOfRoot members).Sublist (leavesOfRoot members)
  /-- a path is reported iff at least two leaves that are kept can be read and have it -/
  reported : ∀ path, twiceAt path ∈ (Wiring.draft config.connectivity).report ↔
    2 ≤ readings path ((keptOfRoot members).map Leaf.collapse)
  /-- leaves that are kept with one path are refused, whatever the settings -/
  refused : ¬((keptOfRoot members).map Leaf.path).Nodup →
    ∀ settings, ∃ report, compile config settings = .error (.schema report)
  /-- a port-clock is found on a path iff a leaf that is kept lists it there -/
  found : ∀ settings m, compile config settings = .ok m → ∀ path pc,
    (∃ entry, m.find? pc = some (path, entry)) ↔
      ∃ leaf ∈ keptOfRoot members, leaf.path = path ∧ ∃ e ∈ leafEdges leaf.collapse, e.portClock = pc
  /-- where no object repeats a key, every leaf that is written is kept, and read as it is written -/
  kept : (Json.obj members).isUnrepeated = true →
    keptOfRoot members = leavesOfRoot members ∧ ∀ leaf ∈ leavesOfRoot members, leaf.collapse = leaf

theorem reads_written (hpaths : config.connectivity = .paths (Table.ofPairs (Json.collapseMembers members))) :
    ReadsWritten config members := by
  have hperm := Wiring.leavesOfRoot_perm members
  have hsame : ((keptOfRoot members).map Leaf.collapse).map Leaf.path = (keptOfRoot members).map Leaf.path := by
    rw [List.map_map]
    rfl
  refine ⟨Wiring.keptOfRoot_sublist members, fun path => ?_, fun hpath settings => ?_, ?_, fun hunrepeated => ?_⟩
  · rw [hpaths, Wiring.twiceAt_mem_draft_iff, readings, hperm.countP_eq, readings]
  · refine exists_schema_of_path hpaths ?_
    rwa [(hperm.map Leaf.path).nodup_iff, hsame]
  · intro settings m hm path pc
    rw [exists_found_iff hm hpaths]
    constructor
    · rintro ⟨_, hin, hleaf⟩
      obtain ⟨leaf, hkept, rfl⟩ := List.mem_map.1 (hperm.mem_iff.1 hin)
      exact ⟨leaf, hkept, hleaf⟩
    · rintro ⟨leaf, hkept, hleaf⟩
      exact ⟨leaf.collapse, hperm.mem_iff.2 (List.mem_map_of_mem hkept), hleaf⟩
  · exact ⟨Wiring.keptOfRoot_eq_leavesOfRoot hunrepeated, fun leaf hleaf =>
      Wiring.collapse_of_mem_leavesOfRoot hunrepeated hleaf⟩

/-- **The leaves of a text.** Two leaves that are read with one path make a compilation fail, and the port-clocks of the
leaves that are read are those of the map. No leaf is lost but those that a repeated key overwrites. -/
theorem compile_written_leaves (htext : Config.ofText s = .ok config)
    (hwritten : Config.writtenConnectivity? s = some (.obj members)) : ReadsWritten config members := by
  obtain ⟨json, hjson, hread⟩ := Config.connectivity_of_ofText htext
  rw [hwritten, Option.some.injEq] at hjson
  subst hjson
  rw [Connectivity.ofJson_obj, Except.ok.injEq] at hread
  exact reads_written hread.symm

/-- a leaf with one port-clock under this key, in pieces -/
def leafPieces (key port clock : String) : List String :=
  ["\"", key, "\":\x7b\"portclock_configs\":", "[\x7b\"port\":\"", port, "\",\"clock\":\"", clock, "\"\x7d]\x7d"]

/-- the characters of a rack with one instrument and a connectivity in pieces -/
def rackChars (connectivity : List String) : List Char :=
  (["\x7b\"backend\":\"qblox\",", "\"hardware_description\":\x7b", "\"pulsar0\":\x7b\"instrument_type\":",
    "\"Pulsar_QCM\"\x7d\x7d,", "\"connectivity\":\x7b"] ++ connectivity ++ ["\x7d\x7d"]).flatMap String.toList

/-- a path that is written twice, once with a dot and once with nesting -/
def spelledChars : List Char :=
  rackChars (leafPieces "pulsar0.complex_output_0" "q0:mw" "q0.01" ++ [",\"pulsar0\":\x7b"] ++
    leafPieces "complex_output_0" "q1:mw" "q1.01" ++ ["\x7d"])

/-- a path that is written twice, by a key that comes up twice -/
def overwrittenChars : List Char :=
  rackChars (leafPieces "pulsar0.complex_output_0" "q0:mw" "q0.01" ++ [","] ++
    leafPieces "pulsar0.complex_output_0" "q1:mw" "q1.01")

theorem exists_obj_of_any {x : Option Json} {c : List (String × Json) → Bool}
    (h : (x.any fun json => match json with | .obj members => c members | _ => false) = true) :
    ∃ members, x = some (.obj members) ∧ c members = true := by
  obtain ⟨json, rfl, hjson⟩ := (Option.any_eq_true _ _).1 h
  split at hjson
  · exact ⟨_, rfl, hjson⟩
  · cases hjson

/-- a path with two spellings is refused -/
theorem spelledChars_refused :
    ∃ config members, Config.ofText (String.ofList spelledChars) = .ok config ∧
      Config.writtenConnectivity? (String.ofList spelledChars) = some (.obj members) ∧
      ∃ report, compile config {} = .error (.schema report) := by
  obtain ⟨config, hconfig, -⟩ := exists_eq_ok (x := Config.ofChars spelledChars) (c := fun _ => true)
    (by decide +kernel)
  obtain ⟨members, hmembers, htwice⟩ := exists_obj_of_any
    (x := Config.connectivityOfChars? spelledChars)
    (c := fun members => !decide ((keptOfRoot members).map Leaf.path).Nodup) (by decide +kernel)
  rw [← Config.ofText_ofList] at hconfig
  rw [← Config.writtenConnectivity?_ofList] at hmembers
  have hrefused := (compile_written_leaves hconfig hmembers).refused (by simpa using htwice)
  exact ⟨config, members, hconfig, hmembers, hrefused {}⟩

/-- of two leaves under one key the second one is compiled, and the port-clock of the first one is nowhere on the map -/
theorem overwrittenChars_compiles :
    ∃ config members m, Config.ofText (String.ofList overwrittenChars) = .ok config ∧
      Config.writtenConnectivity? (String.ofList overwrittenChars) = some (.obj members) ∧
      compile config {} = .ok m ∧
      ((leavesOfRoot members).countP fun leaf => leaf.path = ⟨"pulsar0.complex_output_0"⟩) = 2 ∧
      ∃ leaf ∈ leavesOfRoot members, ∃ e ∈ leafEdges leaf, m.find? e.portClock = none := by
  obtain ⟨config, hconfig, hcompiled⟩ := exists_eq_ok (x := Config.ofChars overwrittenChars)
    (c := fun config => (compile config {}).toOption.any fun m => (m.find? ⟨"q0:mw", "q0.01"⟩).isNone)
    (by decide +kernel)
  obtain ⟨m, hm, hmissing⟩ := exists_eq_ok hcompiled
  obtain ⟨members, hmembers, hleaves⟩ := exists_obj_of_any
    (x := Config.connectivityOfChars? overwrittenChars)
    (c := fun members =>
      (((leavesOfRoot members).countP fun leaf => leaf.path = ⟨"pulsar0.complex_output_0"⟩) = 2) &&
        (leavesOfRoot members).any fun leaf => (leafEdges leaf).any fun e => e.portClock = ⟨"q0:mw", "q0.01"⟩)
    (by decide +kernel)
  rw [← Config.ofText_ofList] at hconfig
  rw [← Config.writtenConnectivity?_ofList] at hmembers
  simp only [Bool.and_eq_true, decide_eq_true_eq, List.any_eq_true] at hleaves
  obtain ⟨htwice, leaf, hleaf, e, he, hpc⟩ := hleaves
  refine ⟨config, members, m, hconfig, hmembers, hm, htwice, leaf, hleaf, e, he, ?_⟩
  rw [hpc]
  exact Option.isNone_iff_eq_none.1 hmissing

end RackMap
