/-
How the settings of a config can fail.

A generator distrusts its map: it checks the backend, takes every path apart and looks for oscillators that are in the
wrong place. On a map that was compiled none of these checks fails. `Fault.Arises` lists the faults that are left; for
Qblox they are about values that port-clocks ask for and about the number of sequencers, for Zurich Instruments about the
number of port-clocks on a channel.
- `exists_kind_of_compile_eq_error`: a compilation fails in one of the ways that a user can cause;
- `Compiled.arises`: the settings of a compiled map fail only as `Fault.Arises` lists;
- `compileSettings_faults`: so do the settings of a config whose compilation does not fail.
-/
import Mathlib.Tactic
import RackMap.Instrument.Settings
import RackMap.Proofs.Instrument.Placed
import RackMap.Proofs.Instrument.Qblox
import RackMap.Proofs.Instrument.Zhinst
import RackMap.Proofs.Verdicts

namespace RackMap

variable {config : Config} {settings : Settings} {p : Parsed} {warnings : List String} {m : CompiledMap}

/-- every failure of a compilation has a kind -/
theorem exists_kind_of_compile_eq_error {failure : Failure} (h : compile config settings = .error failure) :
    ∃ kind, failure.kind? = some kind := by
  have hfails : ∃ kind, FailsAs config settings kind := by
    cases hread : Parsed.ofConfig config settings.sanitize.2 with
    | error unread =>
      have hunread : ∀ p, Parsed.ofConfig config settings.sanitize.2 ≠ .ok p := by
        rw [hread]
        exact nofun
      obtain ⟨hschema, hduplicates⟩ := failsAs_of_unread hunread
      by_cases hflawed : Parsed.Flawed config
      · exact ⟨_, hschema hflawed⟩
      · exact ⟨_, hduplicates hflawed⟩
    | ok p =>
      rcases p.accepted_or_rejected with haccepted | ⟨kind, hrejected⟩
      · rw [compile_eq_ok_iff_accepted.2 ⟨p, hread, haccepted, rfl⟩] at h
        cases h
      · exact ⟨kind, failsAs_of_rejected hread hrejected⟩
  obtain ⟨kind, failure', hfailure, hkind⟩ := hfails
  obtain rfl : failure' = failure := Except.error.inj (hfailure.symm.trans h)
  exact ⟨kind, hkind⟩

/-- a failure with a kind is about one document, about references, about assignments or about requests -/
theorem Failure.cases_of_kind? {failure : Failure} {kind : FailureKind} (h : failure.kind? = some kind) :
    (∃ report, failure = .schema report) ∨ (∃ report, failure = .referential report) ∨
      (∃ violations, failure = .duplicates violations) ∨ ∃ conflict, failure = .conflict conflict := by
  cases failure with
  | schema report => exact Or.inl ⟨report, rfl⟩
  | referential report => exact Or.inr (Or.inl ⟨report, rfl⟩)
  | duplicates violations => exact Or.inr (Or.inr (Or.inl ⟨violations, rfl⟩))
  | conflict conflict => exact Or.inr (Or.inr (Or.inr ⟨conflict, rfl⟩))
  | undescribed => cases h
  | looseConflict => cases h

namespace Instrument

/-- the faults that the settings of a compiled map can end with -/
inductive Fault.Arises (m : CompiledMap) : Fault → Prop
  /-- a port-clock on the map has a value that is out of the range of a setting -/
  | outOfRange {path : ChannelPath} {channel : CompiledChannel} {entry : CompiledPortClock} {setting : String}
      {value low high : Decimal.Double} :
    m.backend = .qblox → m.channel? path = some channel → entry ∈ channel.portClocks →
      value.within low high = false → Arises m (.outOfRange setting entry.portClock value low high)
  | tooManySequencers {unit : String} {required available : Nat} :
    m.backend = .qblox → available < required → Arises m (.tooManySequencers unit required available)
  | conflicting {path : ChannelPath} {channel : CompiledChannel} {setting : String}
      {values : List (PortClock × Shared)} :
    m.backend = .qblox → m.channel? path = some channel → Arises m (.conflicting path setting values)
  | noAttenuator {path : ChannelPath} {channel : CompiledChannel} :
    m.backend = .qblox → m.channel? path = some channel → Arises m (.noAttenuator path)
  /-- a channel on the map has more than one port-clock -/
  | notOnePortClock {path : ChannelPath} {channel : CompiledChannel} :
    m.backend = .zhinst → m.channel? path = some channel → 1 < channel.portClocks.length →
      Arises m (.notOnePortClock path channel.portClocks.length)

variable {fault : Fault} {q : ChannelPath × CompiledChannel}

/-! ## Qblox -/

/-- a channel with a number at the end of its name is refused for its values only -/
theorem Fault.Arises.of_refused (hbackend : m.backend = .qblox) (hchannel : m.channel? q.1 = some q.2)
    (hname : ∃ index, Qblox.ioIndex? q.1.name = some index) (h : Qblox.Refused q.1 q.2 fault) : fault.Arises m := by
  cases h with
  | badChannelName hnone =>
    obtain ⟨index, hindex⟩ := hname
    rw [hnone] at hindex
    cases hindex
  | conflicting setting values => exact .conflicting hbackend hchannel
  | noAttenuator => exact .noAttenuator hbackend hchannel
  | outOfRange hentry hrange => exact .outOfRange hbackend hchannel hentry hrange

theorem arises_of_qblox (hc : Compiled config p warnings m) (hbackend : m.backend = .qblox)
    (h : Qblox.generate m = .error fault) : fault.Arises m := by
  rcases Qblox.generate_eq_error h with ⟨hother, -⟩ | ⟨q, hq, hfault⟩ | ⟨unit, required, available, hmany, rfl⟩
  · exact absurd hbackend hother
  · obtain ⟨unit, slot, hplaced⟩ := hc.exists_placed hq
    rcases hfault with ⟨hparent, -⟩ | hrefused
    · rw [hplaced.parent?_eq] at hparent
      cases hparent
    · rw [hbackend] at hplaced
      exact .of_refused hbackend (hc.channel?_of_mem hq) (exists_ioIndex_of_placed hplaced) hrefused
  · exact .tooManySequencers hbackend hmany

/-! ## Zurich Instruments -/

/-- a channel is on the map because a port-clock is connected to it -/
theorem portClocks_ne_nil (hc : Compiled config p warnings m) (hq : q ∈ m.channels) : q.2.portClocks ≠ [] := by
  intro hnil
  obtain ⟨⟨e, he, hpath⟩, -⟩ := (Compile.channel?_eq_some_iff hc.map).1 (hc.channel?_of_mem hq)
  obtain ⟨channel, hchannel, hentry⟩ := Compile.entry_of_edge hc.map he
  rw [hpath, hc.channel?_of_mem hq] at hchannel
  cases hchannel
  rw [hnil] at hentry
  cases hentry

theorem arises_of_zhinst (hc : Compiled config p warnings m) (hbackend : m.backend = .zhinst)
    (h : Zhinst.generate m = .error fault) : fault.Arises m := by
  rcases Zhinst.generate_eq_error h with ⟨hother, -⟩ | ⟨q, hq, hfault⟩
  · exact absurd hbackend hother
  · rcases Zhinst.output_eq_error hfault with ⟨hcount, rfl⟩ | ⟨module, index, hlo, -⟩
    · have hsome : 0 < q.2.portClocks.length := List.length_pos_iff.2 (portClocks_ne_nil hc hq)
      exact .notOnePortClock hbackend (hc.channel?_of_mem hq) (by omega)
    · obtain ⟨unit, slot, hplaced⟩ := hc.exists_placed hq
      rw [hbackend] at hplaced
      exact absurd hlo (not_integrated_of_placed hplaced module index)

/-! ## Settings of a config -/

/-- **Faults of a compiled map.** -/
theorem arises_of_generate (hc : Compiled config p warnings m) (h : generate m = .error fault) : fault.Arises m := by
  unfold generate generateFor at h
  cases hbackend : m.backend with
  | qblox =>
    rw [hbackend] at h
    exact arises_of_qblox hc hbackend (map_eq_error_iff.1 h)
  | zhinst =>
    rw [hbackend] at h
    exact arises_of_zhinst hc hbackend (map_eq_error_iff.1 h)

/-- **Faults of a config.** Its settings fail as its compilation does, which has four ways to fail, or else as the
settings of its map, which has the faults that `Fault.Arises` lists. The other checks of the generators never fail on a
map that was compiled: not those of the backend and of the paths, nor that for integrated oscillators. -/
theorem compileSettings_faults (config : Config) (settings : Settings) :
    (∀ fault, compileSettings config settings = .error fault →
      (∃ failure, compile config settings = .error failure ∧ fault = .compilation failure ∧
        ((∃ report, failure = .schema report) ∨ (∃ report, failure = .referential report) ∨
          (∃ violations, failure = .duplicates violations) ∨ ∃ conflict, failure = .conflict conflict)) ∨
      ∃ m, compile config settings = .ok m ∧ fault.Arises m) ∧
    ∀ m, compile config settings = .ok m →
      (∀ expected found, generate m ≠ .error (.backendMismatch expected found)) ∧
      (∀ path, generate m ≠ .error (.noModule path)) ∧
      (∀ name, generate m ≠ .error (.badChannelName name)) ∧
      ∀ lo, generate m ≠ .error (.builtInOscillator lo) := by
  have harises : ∀ m, compile config settings = .ok m → ∀ fault, generate m = .error fault → fault.Arises m := by
    intro m hm fault hfault
    obtain ⟨p, warnings, hc⟩ := compile_compiled hm
    exact arises_of_generate hc hfault
  constructor
  · intro fault h
    unfold compileSettings at h
    split at h
    · rename_i m hm
      exact Or.inr ⟨m, hm, harises m hm fault h⟩
    · rename_i failure hfailure
      cases h
      obtain ⟨kind, hkind⟩ := exists_kind_of_compile_eq_error hfailure
      exact Or.inl ⟨failure, hfailure, rfl, Failure.cases_of_kind? hkind⟩
  · intro m hm
    refine ⟨fun expected found h => ?_, fun path h => ?_, fun name h => ?_, fun lo h => ?_⟩ <;>
      cases harises m hm _ h

/-- a generator with two port-clocks on its first channel -/
def doubledConfig : Config where
  backend := "zhinst"
  description :=
    [("hdawg0", { (default : InstrumentDescription) with
      type := "HDAWG4", fields := [("channel_0", .obj [("mode", .str "complex")])] })]
  options? := none
  connectivity := .paths [("hdawg0.channel_0", .obj [("portclock_configs",
    .arr [.obj [("port", .str "q0:mw"), ("clock", .str "q0.01")],
      .obj [("port", .str "q1:mw"), ("clock", .str "q1.01")]])])]

/-- it compiles, but has no settings -/
theorem doubledConfig_faulty :
    ∃ m, compile doubledConfig {} = .ok m ∧
      ∃ fault, compileSettings doubledConfig {} = .error fault ∧ fault.Arises m := by
  obtain ⟨m, hm, hfaulty⟩ := exists_eq_ok (x := compile doubledConfig {})
    (c := fun m => (generate m).toOption.isNone) (by decide +kernel)
  cases hgenerate : generate m with
  | ok made =>
    rw [hgenerate] at hfaulty
    cases hfaulty
  | error fault =>
    have hfault : compileSettings doubledConfig {} = .error fault := by
      rw [compileSettings, hm]
      exact hgenerate
    rcases (compileSettings_faults doubledConfig {}).1 fault hfault with ⟨failure, hfailure, -⟩ | ⟨m', hm', harises⟩
    · rw [hm] at hfailure
      cases hfailure
    · obtain rfl : m' = m := Except.ok.inj (hm'.symm.trans hm)
      exact ⟨m', hm, fault, hfault, harises⟩

end Instrument

end RackMap
