/-
When a compilation succeeds, stage by stage.

`ofConfig_eq_ok_iff` and `compile_eq_ok_iff` replace the chain of stages by the equations of the stages. `Compiled`
collects what every proof about a compiled map starts from: the edges are those of the document, each fits its channel,
and the members of every oscillator agree. `compile_compiled` proves it of every config that compiles.
-/
import Mathlib.Tactic
import RackMap.Compilation
import RackMap.Proofs.CompiledMap
import RackMap.Proofs.Crosscheck
import RackMap.Proofs.Frequencies.Resolution
import RackMap.Proofs.Inventory
import RackMap.Proofs.OptionTable
import RackMap.Proofs.Wiring.Document

namespace RackMap

variable {config : Config} {settings : Settings} {p : Parsed} {m : CompiledMap}

namespace Parsed

variable {α : Type} {x : Except Failure α} {report report' : Report} {a : α}

/-- a result is gathered only from a success, and leaves the problems as they were -/
theorem gather_some_iff : gather report x = .ok (some a, report') ↔ x = .ok a ∧ report' = report := by
  cases x with
  | ok b => simp [gather, eq_comm]
  | error failure =>
    cases failure with
    | duplicates violations => by_cases h : report.isEmpty <;> simp [gather, h]
    | _ => simp [gather]

/-- **Reading the documents.** It succeeds iff every document is read without a problem. -/
theorem ofConfig_eq_ok_iff :
    ofConfig config settings = .ok p ↔
      ∃ backend, selectBackend config.backend = .ok backend ∧
        Inventory.build config.description backend = .ok p.inventory ∧
        OptionTable.build (optionsOf config) = .ok p.options ∧
        Wiring.build config.connectivity = .ok p.wiring ∧ p.settings = settings := by
  unfold ofConfig
  constructor
  · intro h
    obtain ⟨⟨backend?, report₁⟩, hbackend, h⟩ := bind_eq_ok_iff.1 h
    cases backend? with
    | none =>
      -- without a backend there is no inventory, whatever the other documents hold
      obtain ⟨⟨inventory?, report₂⟩, hinventory, h⟩ := bind_eq_ok_iff.1 h
      cases hinventory
      obtain ⟨⟨options?, report₃⟩, -, h⟩ := bind_eq_ok_iff.1 h
      obtain ⟨⟨wiring?, report₄⟩, -, h⟩ := bind_eq_ok_iff.1 h
      cases h
    | some backend =>
      obtain ⟨⟨inventory?, report₂⟩, hinventory, h⟩ := bind_eq_ok_iff.1 h
      obtain ⟨⟨options?, report₃⟩, hoptions, h⟩ := bind_eq_ok_iff.1 h
      obtain ⟨⟨wiring?, report₄⟩, hwiring, h⟩ := bind_eq_ok_iff.1 h
      simp only at hinventory hoptions hwiring h
      split at h
      · rename_i inventory options wiring
        split at h
        · cases h
          obtain ⟨hb, rfl⟩ := gather_some_iff.1 hbackend
          obtain ⟨hi, rfl⟩ := gather_some_iff.1 hinventory
          obtain ⟨ho, rfl⟩ := gather_some_iff.1 hoptions
          obtain ⟨hw, rfl⟩ := gather_some_iff.1 hwiring
          exact ⟨backend, hb, hi, ho, hw, rfl⟩
        · cases h
      · cases h
  · rintro ⟨backend, hb, hi, ho, hw, rfl⟩
    rw [hb, ho, hw]
    simp only [gather, ok_bind, hi, List.isEmpty_nil, if_true]

end Parsed

namespace Frequencies

/-- resolving checked documents: the requests of a table are finite, and every edge has its channel -/
theorem resolve_of_fits {inv : Inventory} {given : HardwareOptions} {options : OptionTable} {w : Wiring}
    (hoptions : OptionTable.build given = .ok options)
    (hfits : ∀ e ∈ w.edges, ∃ channel, Crosscheck.Fits inv e channel) :
    resolve inv options w =
      match firstConflict? inv options w.edges with
      | some lo => .error (.conflict (.oscillator lo (requests inv options w.edges lo)))
      | none => .ok (resolution inv options w.edges) := by
  refine resolve_eq_of_finite ?_ (OptionTable.asksFinite_of_build hoptions)
  intro e he
  obtain ⟨channel, hchannel⟩ := hfits e he
  exact ⟨channel, hchannel.described⟩

end Frequencies

/-- **Compiling.** It succeeds iff every stage does. -/
theorem compile_eq_ok_iff :
    compile config settings = .ok m ↔
      ∃ p warnings r, Parsed.ofConfig config settings.sanitize.2 = .ok p ∧
        Crosscheck.validate p.inventory p.options p.wiring p.settings = .ok warnings ∧
        Frequencies.resolve p.inventory p.options p.wiring = .ok r ∧
        Compile.map p.inventory p.options p.wiring p.settings r warnings = .ok m := by
  unfold compile
  simp only [bind_eq_ok_iff, Parsed.validate, Validated.resolve, Resolved.build, map_eq_ok_iff]
  constructor
  · rintro ⟨p, hp, v, ⟨warnings, hv, rfl⟩, s, ⟨r, hr, rfl⟩, hm⟩
    exact ⟨p, warnings, r, hp, hv, hr, hm⟩
  · rintro ⟨p, warnings, r, hp, hv, hr, hm⟩
    exact ⟨p, hp, _, ⟨warnings, hv, rfl⟩, _, ⟨r, hr, rfl⟩, hm⟩

/-- what a compiled map is made of -/
structure Compiled (config : Config) (p : Parsed) (warnings : List String) (m : CompiledMap) : Prop where
  inventory : Inventory.build config.description m.backend = .ok p.inventory
  options : OptionTable.build (Parsed.optionsOf config) = .ok p.options
  wiring : Wiring.build config.connectivity = .ok p.wiring
  edges : p.wiring.edges = config.connectivity.edges
  fits : ∀ e ∈ p.wiring.edges, ∃ channel, Crosscheck.Fits p.inventory e channel
  agreed : ∀ lo, agreed (Frequencies.requests p.inventory p.options p.wiring.edges lo) = true
  map : Compile.map p.inventory p.options p.wiring p.settings
    (Frequencies.resolution p.inventory p.options p.wiring.edges) warnings = .ok m

/-- **The parts of a compiled map.** They are read from the documents alone. -/
theorem compile_compiled (h : compile config settings = .ok m) : ∃ p warnings, Compiled config p warnings m := by
  obtain ⟨p, warnings, r, hp, hvalidate, hresolve, hmap⟩ := compile_eq_ok_iff.1 h
  obtain ⟨backend, -, hinventory, hoptions, hwiring, -⟩ := Parsed.ofConfig_eq_ok_iff.1 hp
  obtain ⟨-, hfits, -, -⟩ := Crosscheck.validate_eq_ok_iff.1 hvalidate
  have hbackend : p.inventory.backend = backend := Inventory.backend_of_build hinventory
  rw [Frequencies.resolve_of_fits hoptions hfits] at hresolve
  cases hfind : Frequencies.firstConflict? p.inventory p.options p.wiring.edges with
  | some lo => rw [hfind] at hresolve; cases hresolve
  | none =>
    rw [hfind] at hresolve
    cases hresolve
    have hinventory' : Inventory.build config.description m.backend = .ok p.inventory := by
      rw [(Compile.map_eq_ok hmap).1, hbackend]
      exact hinventory
    exact ⟨p, warnings, hinventory', hoptions, hwiring, Wiring.build_edges hwiring, hfits,
      Frequencies.firstConflict?_eq_none_iff.1 hfind, hmap⟩

/-- a rack whose oscillator feeds one channel with two port-clocks, which may ask for its frequency -/
def sharedConfig (first second : Option Decimal.Double) : Config where
  backend := "qblox"
  description :=
    [("cluster0", { (default : InstrumentDescription) with type := "Cluster", modules? := some [("1", ⟨"QCM", []⟩)] }),
      ("lo0", { (default : InstrumentDescription) with type := "LocalOscillator" })]
  options? := some { modulation? := some [("q0:mw-q0.01", ⟨none, first⟩), ("q1:mw-q1.01", ⟨none, second⟩)] }
  connectivity := .paths [("cluster0.module1.complex_output_0", .obj [("lo_name", .str "lo0"),
    ("portclock_configs", .arr [.obj [("port", .str "q0:mw"), ("clock", .str "q0.01")],
      .obj [("port", .str "q1:mw"), ("clock", .str "q1.01")]])])]

end RackMap
