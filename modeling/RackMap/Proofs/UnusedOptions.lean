/-
What becomes of the options of a config: each is found on the map, or its key is warned about, never both.

- `AccountsOptions` says so of a map: an option under the written form of a connected port-clock is found in every entry
  written so; any other key has one warning of its own; entries and warnings tell of nothing that was not given.
- `compile_accounts_options` proves it for every config that compiles with warnings for unused options. Without the keys
  that are warned about, the config compiles to the same map, with no warnings.
-/
import Mathlib.Tactic
import RackMap.Proofs.Compilation
import RackMap.Proofs.OptionFrame
import RackMap.Proofs.OptionTable.Keys

namespace RackMap

/-! ## Warnings -/

namespace Crosscheck

variable {options : OptionTable} {wiring : Wiring} {settings : Settings} {key other : String}

/-- what is said of options under a key that is no written form of a connected port-clock -/
def unusedWarning (key : String) : String := s!"{optionsLocation key}: {Cause.notConnectedMessage}"

theorem unusedWarning_inj (h : unusedWarning key = unusedWarning other) : key = other := by
  have hlist := congrArg String.toList h
  have hkeys : key.toList = other.toList := by simpa [unusedWarning, optionsLocation, toString] using hlist
  exact String.toList_inj.1 hkeys

theorem mem_unusedKeys :
    key ∈ unusedKeys options wiring ↔ key ∈ options.keys ∧ ∀ e ∈ wiring.edges, e.portClock.text ≠ key := by
  simp [unusedKeys]

theorem warnings_eq_map (h : settings.unusedOptions = .warn) :
    warnings options wiring settings = (unusedKeys options wiring).map unusedWarning := by
  rw [warnings, h]
  rfl

theorem mem_warnings (h : settings.unusedOptions = .warn) :
    unusedWarning key ∈ warnings options wiring settings ↔
      key ∈ options.keys ∧ ∀ e ∈ wiring.edges, e.portClock.text ≠ key := by
  rw [warnings_eq_map h, ← mem_unusedKeys, List.mem_map]
  constructor
  · rintro ⟨other, hother, heq⟩
    rw [← unusedWarning_inj heq]
    exact hother
  · intro hkey
    exact ⟨key, hkey, rfl⟩

/-- every key has its own warning, so none comes up twice -/
theorem nodup_warnings (h : settings.unusedOptions = .warn) (hkeys : options.keys.Nodup) :
    (warnings options wiring settings).Nodup := by
  rw [warnings_eq_map h]
  exact (hkeys.filter _).map fun _ _ => unusedWarning_inj

end Crosscheck

open Crosscheck (unusedWarning)

/-! ## Accounting for every option -/

/-- where the options of a document are found: in the entries of a map, or in its warnings -/
structure AccountsOptions (options : HardwareOptions) (edges : List Edge) (m : CompiledMap) : Prop where
  /-- the key is the written form of a connected port-clock: no warning, and every entry written so has the value -/
  connected : ∀ o ∈ options.listed, (∃ e ∈ edges, e.portClock.text = Text.trim o.key) →
    unusedWarning (Text.trim o.key) ∉ m.warnings ∧
      (∃ entry ∈ m.entries, entry.portClock.text = Text.trim o.key) ∧
      ∀ entry ∈ m.entries, entry.portClock.text = Text.trim o.key →
        o.kind.category.get entry.corrections = some o.value
  /-- the key is that of no connected port-clock: one warning of its own, and no entry is written so -/
  unconnected : ∀ o ∈ options.listed, (∀ e ∈ edges, e.portClock.text ≠ Text.trim o.key) →
    m.warnings.count (unusedWarning (Text.trim o.key)) = 1 ∧
      ∀ entry ∈ m.entries, entry.portClock.text ≠ Text.trim o.key
  /-- what an entry has is given under its written form -/
  given : ∀ entry ∈ m.entries, ∀ (kind : OptionKind) (value : kind.Value),
    kind.category.get entry.corrections = some value →
      ∃ key, ⟨kind, key, value⟩ ∈ options.listed ∧ Text.trim key = entry.portClock.text
  /-- every warning is about a key that is given -/
  warned : ∀ warning ∈ m.warnings, ∃ o ∈ options.listed, warning = unusedWarning (Text.trim o.key)

/-- the config with the options under the wanted keys only -/
def Config.restrictOptions (config : Config) (wanted : String → Bool) : Config :=
  { config with options? := config.options?.map fun options => options.restrict wanted }

/-- a key that no warning is about -/
def CompiledMap.isUsed (m : CompiledMap) (key : String) : Bool := !m.warnings.contains (unusedWarning key)

variable {config : Config} {settings : Settings} {m : CompiledMap} {p : Parsed} {ws : List String}
  {given : HardwareOptions} {inv : Inventory} {options options' : OptionTable} {wiring : Wiring} {r : Resolution}

theorem CompiledMap.isUsed_iff {key : String} : m.isUsed key = true ↔ unusedWarning key ∉ m.warnings := by
  simp [CompiledMap.isUsed]

theorem Parsed.optionsOf_restrictOptions (config : Config) (wanted : String → Bool) :
    optionsOf (config.restrictOptions wanted) = (optionsOf config).restrict wanted := by
  unfold optionsOf Config.restrictOptions
  cases config.options? <;> rfl

/-- the entries of a map belong to the edges it is compiled of -/
theorem Compile.exists_edge_of_mem_entries (h : Compile.map inv options wiring settings r ws = .ok m)
    {entry : CompiledPortClock} (hentry : entry ∈ m.entries) :
    (∃ e ∈ wiring.edges, e.portClock = entry.portClock) ∧ entry = Compile.entry options r entry.portClock := by
  obtain ⟨q, -, hpc, heq⟩ := Compile.mem_entries h hentry
  obtain ⟨e, he, -, hpe⟩ := Compile.mem_portClocksOn.1 hpc
  exact ⟨⟨e, he, hpe⟩, heq⟩

theorem Compile.exists_entry_of_edge (h : Compile.map inv options wiring settings r ws = .ok m) {e : Edge}
    (he : e ∈ wiring.edges) : ∃ entry ∈ m.entries, entry.portClock = e.portClock := by
  obtain ⟨c, hc, hentry⟩ := Compile.entry_of_edge h he
  have hchannel : (e.channel, c) ∈ m.channels := Table.mem_of_lookup? hc
  exact ⟨_, List.mem_flatMap.2 ⟨_, hchannel, hentry⟩, rfl⟩

/-- a map accounts for the options of its table, if its warnings are those of the checks -/
theorem map_accounts_options (h : Compile.map inv options wiring settings r ws = .ok m)
    (hoptions : OptionTable.build given = .ok options) (hpolicy : settings.unusedOptions = .warn)
    (hws : ws = Crosscheck.warnings options wiring settings) : AccountsOptions given wiring.edges m := by
  have hwarnings : m.warnings = Crosscheck.warnings options wiring settings := by
    obtain ⟨channels, -, hmap⟩ := bind_eq_ok_iff.1 h
    cases hmap
    exact hws
  have hcorrections : ∀ entry ∈ m.entries, entry.corrections = options.corrections entry.portClock := by
    intro entry hentry
    rw [(Compile.exists_edge_of_mem_entries h hentry).2]
    rfl
  refine ⟨?_, ?_, ?_, ?_⟩
  · rintro o ho ⟨e, he, htext⟩
    refine ⟨?_, ?_, ?_⟩
    · rw [hwarnings, Crosscheck.mem_warnings hpolicy]
      rintro ⟨-, hall⟩
      exact hall e he htext
    · obtain ⟨entry, hentry, hpc⟩ := Compile.exists_entry_of_edge h he
      exact ⟨entry, hentry, by rw [hpc, htext]⟩
    · intro entry hentry hkey
      rw [hcorrections entry hentry]
      exact (OptionTable.get_corrections_iff hoptions).2 ⟨o.key, ho, hkey.symm⟩
  · intro o ho hall
    have hkey : Text.trim o.key ∈ options.keys := (OptionTable.mem_keys_iff hoptions).2 ⟨o, ho, rfl⟩
    constructor
    · rw [hwarnings]
      exact List.count_eq_one_of_mem (Crosscheck.nodup_warnings hpolicy (OptionTable.nodup_keys hoptions))
        ((Crosscheck.mem_warnings hpolicy).2 ⟨hkey, hall⟩)
    · intro entry hentry
      obtain ⟨⟨e, he, hpc⟩, -⟩ := Compile.exists_edge_of_mem_entries h hentry
      rw [← hpc]
      exact hall e he
  · intro entry hentry kind value hvalue
    rw [hcorrections entry hentry] at hvalue
    exact (OptionTable.get_corrections_iff hoptions).1 hvalue
  · intro warning hwarning
    rw [hwarnings, Crosscheck.warnings_eq_map hpolicy] at hwarning
    obtain ⟨key, hkey, rfl⟩ := List.mem_map.1 hwarning
    obtain ⟨o, ho, rfl⟩ := (OptionTable.mem_keys_iff hoptions).1 (Crosscheck.mem_unusedKeys.1 hkey).1
    exact ⟨o, ho, rfl⟩

/-! ## Without the unused options -/

/-- the tables of all options and of those that are used agree on the connected port-clocks -/
theorem agreeOn_of_used (haccounts : AccountsOptions given wiring.edges m)
    (hoptions : OptionTable.build given = .ok options)
    (hoptions' : OptionTable.build (given.restrict m.isUsed) = .ok options') :
    AgreeOn wiring.edges options options' := by
  intro e he
  have hused : m.isUsed e.portClock.text = true := by
    rw [CompiledMap.isUsed_iff]
    intro hwarning
    obtain ⟨o, ho, heq⟩ := haccounts.warned _ hwarning
    have hkey : e.portClock.text = Text.trim o.key := Crosscheck.unusedWarning_inj heq
    have hsilent := (haccounts.connected o ho ⟨e, he, hkey⟩).1
    rw [hkey] at hwarning
    exact hsilent hwarning
  exact (OptionTable.corrections_restrict hoptions hoptions' hused).symm

/-- no option is left over once the keys that are warned about are taken away -/
theorem warnings_used (haccounts : AccountsOptions given wiring.edges m)
    (hoptions' : OptionTable.build (given.restrict m.isUsed) = .ok options')
    (hpolicy : settings.unusedOptions = .warn) :
    Crosscheck.warnings options' wiring settings = [] := by
  rw [Crosscheck.warnings_eq_map hpolicy, List.map_eq_nil_iff, List.eq_nil_iff_forall_not_mem]
  intro key hkey
  obtain ⟨hmem, hall⟩ := Crosscheck.mem_unusedKeys.1 hkey
  obtain ⟨o, ho, rfl⟩ := (OptionTable.mem_keys_iff hoptions').1 hmem
  rw [HardwareOptions.listed_restrict, List.mem_filter, CompiledMap.isUsed_iff] at ho
  have hcount := (haccounts.unconnected o ho.1 hall).1
  rw [List.count_eq_zero_of_not_mem ho.2] at hcount
  cases hcount

theorem unusedReport_of_warn (h : settings.unusedOptions = .warn) :
    Crosscheck.unusedReport options wiring settings = [] := by
  rw [Crosscheck.unusedReport, h]

/-- **Every option is accounted for.** It is on the map or warned about, and the map has nothing else. Without the keys
that are warned about the same map is compiled, with no warnings. -/
theorem compile_accounts_options (h : compile config settings = .ok m)
    (hpolicy : settings.sanitize.2.unusedOptions = .warn) :
    AccountsOptions (Parsed.optionsOf config) config.connectivity.edges m ∧
      compile (config.restrictOptions m.isUsed) settings = .ok { m with warnings := [] } := by
  obtain ⟨p, ws, r, hp, hvalidate, hresolve, hmap⟩ := compile_eq_ok_iff.1 h
  obtain ⟨backend, hbackend, hinventory, hoptions, hwiring, hsettings⟩ := Parsed.ofConfig_eq_ok_iff.1 hp
  obtain ⟨-, hfits, hover, hws⟩ := Crosscheck.validate_eq_ok_iff.1 hvalidate
  have hwarn : p.settings.unusedOptions = .warn := by rw [hsettings]; exact hpolicy
  have haccounts := map_accounts_options hmap hoptions hwarn hws
  refine ⟨by rw [← Wiring.build_edges hwiring]; exact haccounts, ?_⟩
  obtain ⟨options', hoptions'⟩ := OptionTable.exists_build_restrict hoptions m.isUsed
  have hagree := agreeOn_of_used haccounts hoptions hoptions'
  -- the stages of the smaller config, one after the other
  have hp' : Parsed.ofConfig (config.restrictOptions m.isUsed) settings.sanitize.2 =
      .ok { p with options := options' } := by
    refine Parsed.ofConfig_eq_ok_iff.2 ⟨backend, hbackend, hinventory, ?_, hwiring, hsettings⟩
    rw [Parsed.optionsOf_restrictOptions]
    exact hoptions'
  have hvalidate' : Crosscheck.validate p.inventory options' p.wiring p.settings = .ok [] :=
    Crosscheck.validate_eq_ok_iff.2
      ⟨unusedReport_of_warn hwarn, hfits, hover, (warnings_used haccounts hoptions' hwarn).symm⟩
  have hresolve' : Frequencies.resolve p.inventory options' p.wiring = .ok r := by
    rw [Frequencies.resolve_of_fits hoptions hfits] at hresolve
    rw [Frequencies.resolve_of_fits hoptions' hfits, ← Frequencies.firstConflict?_congr hagree,
      ← Frequencies.resolution_congr hagree]
    cases hconflict : Frequencies.firstConflict? p.inventory p.options p.wiring.edges with
    | some lo => rw [hconflict] at hresolve; cases hresolve
    | none => rw [hconflict] at hresolve; exact hresolve
  exact compile_eq_ok_iff.2 ⟨_, [], r, hp', hvalidate', hresolve', Compile.map_congr hagree hmap⟩

/-- a rack with one port-clock, and latencies for it and for one that is not connected -/
def spareConfig : Config :=
  { sharedConfig none none with
    options? := some { latency? := some [(" q0:mw-q0.01", .finite false 5), ("q9:mw-q9.01", .finite false 7)] } }

/-- one latency is found on the map, the other one is warned about -/
theorem spareConfig_accounted :
    ∃ m, compile spareConfig {} = .ok m ∧ m.warnings = [unusedWarning "q9:mw-q9.01"] ∧
      AccountsOptions (Parsed.optionsOf spareConfig) spareConfig.connectivity.edges m ∧
      compile (spareConfig.restrictOptions m.isUsed) {} = .ok { m with warnings := [] } := by
  obtain ⟨m, hm, hwarnings⟩ := exists_eq_ok (x := compile spareConfig {})
    (c := fun m => m.warnings = [unusedWarning "q9:mw-q9.01"]) (by decide +kernel)
  obtain ⟨haccounts, hpruned⟩ := compile_accounts_options hm rfl
  exact ⟨m, hm, of_decide_eq_true hwarnings, haccounts, hpruned⟩

end RackMap
