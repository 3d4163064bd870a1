/-
What the settings of a compilation decide: whether a config is accepted and what is warned about, and nothing else.

No value of a compiled map is made of the settings. `compile_settings` puts together what each of them does:
- two maps of one config have the same backend, channels and open frequencies, whatever the settings;
- unused options are an error for the configs that would be warned about them; ignored or warned about, they keep no
  config from compiling;
- distinct intermediate frequencies are asked for, never made: a map that passes is compiled without asking, too;
- with diagnostics, unused options are warned about instead of ignored, and the result is the same otherwise.
-/
import Mathlib.Tactic
import RackMap.Proofs.ClosedForm
import RackMap.Proofs.Reading
import RackMap.Proofs.UnusedOptions

namespace RackMap

variable {config : Config} {s s' : Settings} {p : Parsed} {m : CompiledMap} {inv : Inventory} {options : OptionTable}
  {wiring : Wiring} {r : Resolution} {ws : List String}

/-! ## What the stages read of the settings -/

namespace Crosscheck

/-- references hold under all settings that make no new error of unused options -/
theorem Linked.withSettings (h : Linked inv options wiring s)
    (herror : s'.unusedOptions = .error → s.unusedOptions = .error) : Linked inv options wiring s' :=
  ⟨h.edges, fun hs' => h.options (herror hs')⟩

/-- nothing is warned about iff all options are for connected port-clocks -/
theorem warnings_eq_nil_iff (h : s.unusedOptions = .warn) :
    warnings options wiring s = [] ↔ ∀ key ∈ options.keys, ∃ e ∈ wiring.edges, e.portClock.text = key := by
  rw [warnings_eq_map h, List.map_eq_nil_iff, List.eq_nil_iff_forall_not_mem]
  simp only [mem_unusedKeys, not_and, not_forall, not_not, exists_prop]

theorem validate_congr_settings (h : s.unusedOptions = s'.unusedOptions) :
    validate inv options wiring s = validate inv options wiring s' := by
  unfold validate unusedReport Crosscheck.warnings
  rw [h]

end Crosscheck

theorem Compile.map_congr_settings (h : s.distinctIntermediate = s'.distinctIntermediate) :
    map inv options wiring s r ws = map inv options wiring s' r ws := by
  unfold map channel
  rw [h]

namespace Parsed

/-- documents under other settings -/
def withSettings (p : Parsed) (s : Settings) : Parsed := { p with settings := s }

/-- the documents of a config are read in the same way under all settings -/
theorem ofConfig_map_withSettings (config : Config) (s s' : Settings) :
    (ofConfig config s).map (withSettings · s') = ofConfig config s' := by
  by_cases hearlier : earlierProblems config = []
  · obtain ⟨⟨inventory, hinventory⟩, table, htable⟩ := earlierProblems_eq_nil_iff.1 hearlier
    rw [ofConfig_of_sound hinventory htable, ofConfig_of_sound hinventory htable]
    cases Wiring.build config.connectivity <;> rfl
  · rw [ofConfig_of_flawed hearlier, ofConfig_of_flawed hearlier]
    rfl

theorem ofConfig_withSettings (h : ofConfig config s = .ok p) (s' : Settings) :
    ofConfig config s' = .ok (p.withSettings s') := by
  rw [← ofConfig_map_withSettings config s s', h]
  rfl

end Parsed

/-! ## Policies for unused options -/

namespace Settings

theorem sanitize_of_ne_ignore (h : s.unusedOptions ≠ .ignore) : s.sanitize.2 = s := by
  simp [sanitize, h]

theorem sanitize_ne_error (h : s.unusedOptions ≠ .error) : s.sanitize.2.unusedOptions ≠ .error := by
  unfold sanitize
  split
  · exact nofun
  · exact h

theorem distinctIntermediate_sanitize (s : Settings) : s.sanitize.2.distinctIntermediate = s.distinctIntermediate := by
  unfold sanitize
  split <;> rfl

/-- the policy for unused options does not depend on that for intermediate frequencies -/
theorem unusedOptions_sanitize_withDistinct (s : Settings) (asked : Bool) :
    ({ s with distinctIntermediate := asked } : Settings).sanitize.2.unusedOptions = s.sanitize.2.unusedOptions := by
  unfold sanitize
  simp only
  split <;> rfl

end Settings

/-! ## Compiling under two settings -/

/-- what a config compiles to, told by its documents as they are read under any settings -/
theorem compile_eq_ok_iff_withSettings :
    compile config s = .ok m ↔
      ∃ p, Parsed.ofConfig config {} = .ok p ∧ (p.withSettings s.sanitize.2).Accepted ∧
        m = (p.withSettings s.sanitize.2).compiled := by
  rw [compile_eq_ok_iff_accepted]
  constructor
  · rintro ⟨p, hp, haccepted, rfl⟩
    have hsame : (p.withSettings {}).withSettings s.sanitize.2 = p := by
      obtain ⟨-, -, -, -, -, hsettings⟩ := Parsed.ofConfig_eq_ok_iff.1 hp
      rw [← hsettings]
      rfl
    refine ⟨p.withSettings {}, Parsed.ofConfig_withSettings hp {}, ?_, ?_⟩
    · rw [hsame]
      exact haccepted
    · rw [hsame]
  · rintro ⟨p, hp, haccepted, rfl⟩
    exact ⟨_, Parsed.ofConfig_withSettings hp _, haccepted, rfl⟩

/-- the map of documents depends on the settings by its warnings only -/
theorem Parsed.compiled_withSettings (h : s.unusedOptions = s'.unusedOptions) :
    (p.withSettings s).compiled = (p.withSettings s').compiled := by
  have hwarnings : Crosscheck.warnings p.options p.wiring s = Crosscheck.warnings p.options p.wiring s' := by
    unfold Crosscheck.warnings
    rw [h]
  exact congrArg (Compile.compiled p.inventory p.options p.wiring p.resolution) hwarnings

/-- documents stay accepted where unused options are no new error and no more is asked of the frequencies -/
theorem Parsed.Accepted.withSettings (h : (p.withSettings s).Accepted)
    (herror : s'.unusedOptions = .error → s.unusedOptions = .error)
    (hdistinct : s'.distinctIntermediate = true → s.distinctIntermediate = true) :
    (p.withSettings s').Accepted :=
  ⟨h.linked.withSettings herror, h.spacious, h.agreed, fun hs' => h.distinct (hdistinct hs')⟩

/-- where unused options are an error, those documents are accepted that would not be warned about them -/
theorem Parsed.accepted_error_iff (herror : s.unusedOptions = .error) (hwarn : s'.unusedOptions = .warn)
    (hdistinct : s.distinctIntermediate = s'.distinctIntermediate) :
    (p.withSettings s).Accepted ↔
      (p.withSettings s').Accepted ∧ Crosscheck.warnings p.options p.wiring s' = [] := by
  rw [Crosscheck.warnings_eq_nil_iff hwarn]
  constructor
  · intro h
    exact ⟨h.withSettings (fun _ => herror) (fun hs' => hdistinct.trans hs'), h.linked.options herror⟩
  · rintro ⟨h, hkeys⟩
    exact ⟨⟨h.linked.edges, fun _ => hkeys⟩, h.spacious, h.agreed, fun hs => h.distinct (hdistinct.symm.trans hs)⟩

/-- settings that sanitizing leaves with the same policies compile every config to the same result -/
theorem compile_congr_settings (hunused : s.sanitize.2.unusedOptions = s'.sanitize.2.unusedOptions)
    (hdistinct : s.sanitize.2.distinctIntermediate = s'.sanitize.2.distinctIntermediate) :
    compile config s = compile config s' := by
  cases hread : Parsed.ofConfig config {} with
  | error failure =>
    have hunread : ∀ s, Parsed.ofConfig config s = .error failure := by
      intro s
      rw [← Parsed.ofConfig_map_withSettings config {} s, hread]
      rfl
    rw [compile_of_unread (hunread s.sanitize.2), compile_of_unread (hunread s'.sanitize.2)]
  | ok p =>
    rw [compile_of_parsed (Parsed.ofConfig_withSettings hread s.sanitize.2),
      compile_of_parsed (Parsed.ofConfig_withSettings hread s'.sanitize.2)]
    simp only [Parsed.withSettings, Crosscheck.validate_congr_settings hunused, Compile.map_congr_settings hdistinct]

/-- unused options that are no error keep no config from compiling -/
theorem exists_compile_of_lenient (hpolicy : s'.unusedOptions ≠ .error)
    (hdistinct : s.distinctIntermediate = s'.distinctIntermediate) (h : ∃ m, compile config s = .ok m) :
    ∃ m, compile config s' = .ok m := by
  obtain ⟨m, hm⟩ := h
  obtain ⟨p, hp, haccepted, -⟩ := compile_eq_ok_iff_withSettings.1 hm
  refine ⟨_, compile_eq_ok_iff_withSettings.2 ⟨p, hp, haccepted.withSettings ?_ ?_, rfl⟩⟩
  · intro herror
    exact absurd herror (Settings.sanitize_ne_error hpolicy)
  · rw [Settings.distinctIntermediate_sanitize, Settings.distinctIntermediate_sanitize, hdistinct]
    exact id

/-- unused options that are an error keep those configs from compiling that would be warned about them -/
theorem exists_compile_error_iff (herror : s.unusedOptions = .error) (hwarn : s'.unusedOptions = .warn)
    (hdistinct : s.distinctIntermediate = s'.distinctIntermediate) :
    (∃ m, compile config s = .ok m) ↔ ∃ m, compile config s' = .ok m ∧ m.warnings = [] := by
  have hs : s.sanitize.2 = s := Settings.sanitize_of_ne_ignore (by simp [herror])
  have hs' : s'.sanitize.2 = s' := Settings.sanitize_of_ne_ignore (by simp [hwarn])
  simp only [compile_eq_ok_iff_withSettings, hs, hs']
  constructor
  · rintro ⟨-, p, hp, haccepted, -⟩
    obtain ⟨hwarned, hnone⟩ := (Parsed.accepted_error_iff herror hwarn hdistinct).1 haccepted
    exact ⟨_, ⟨p, hp, hwarned, rfl⟩, hnone⟩
  · rintro ⟨-, ⟨p, hp, hwarned, rfl⟩, hnone⟩
    exact ⟨_, p, hp, (Parsed.accepted_error_iff herror hwarn hdistinct).2 ⟨hwarned, hnone⟩, rfl⟩

/-- what passes the check for distinct intermediate frequencies is compiled in the same way without it -/
theorem compile_of_distinct {asked : Bool}
    (h : compile config { s with distinctIntermediate := true } = .ok m) :
    compile config { s with distinctIntermediate := asked } = .ok m := by
  have hunused : ({ s with distinctIntermediate := true } : Settings).sanitize.2.unusedOptions =
      ({ s with distinctIntermediate := asked } : Settings).sanitize.2.unusedOptions :=
    (s.unusedOptions_sanitize_withDistinct true).trans (s.unusedOptions_sanitize_withDistinct asked).symm
  obtain ⟨p, hp, haccepted, rfl⟩ := compile_eq_ok_iff_withSettings.1 h
  refine compile_eq_ok_iff_withSettings.2
    ⟨p, hp, haccepted.withSettings ?_ ?_, Parsed.compiled_withSettings hunused⟩
  · rw [hunused]
    exact id
  · intro _
    exact Settings.distinctIntermediate_sanitize _

/-- **What the settings decide.** Two maps of one config differ in their warnings at most. Unused options are an error
for the configs that would be warned about them, and no reason to fail otherwise; distinct intermediate frequencies are
checked and never made; diagnostics make warnings of what would be ignored. -/
theorem compile_settings (config : Config) :
    (∀ s s' m m', compile config s = .ok m → compile config s' = .ok m' →
      m.backend = m'.backend ∧ m.channels = m'.channels ∧ m.unresolved = m'.unresolved) ∧
    (∀ s : Settings, (∃ m, compile config { s with unusedOptions := .error } = .ok m) ↔
      ∃ m, compile config { s with unusedOptions := .warn } = .ok m ∧ m.warnings = []) ∧
    (∀ s : Settings, (∃ m, compile config { s with unusedOptions := .ignore } = .ok m) ↔
      ∃ m, compile config { s with unusedOptions := .warn } = .ok m) ∧
    (∀ (s : Settings) m, compile config { s with distinctIntermediate := true } = .ok m →
      compile config { s with distinctIntermediate := false } = .ok m) ∧
    ∀ s : Settings, compile config { s with diagnostics := true } =
      compile config { s with
        unusedOptions := if s.unusedOptions = .ignore then .warn else s.unusedOptions, diagnostics := false } := by
  refine ⟨?_, ?_, ?_, ?_, ?_⟩
  · intro s s' m m' hm hm'
    obtain ⟨p, hp, -, rfl⟩ := compile_eq_ok_iff_withSettings.1 hm
    obtain ⟨p', hp', -, rfl⟩ := compile_eq_ok_iff_withSettings.1 hm'
    rw [hp, Except.ok.injEq] at hp'
    subst hp'
    exact ⟨rfl, rfl, rfl⟩
  · intro s
    exact exists_compile_error_iff rfl rfl rfl
  · intro s
    constructor
    · apply exists_compile_of_lenient
      · exact nofun
      · rfl
    · apply exists_compile_of_lenient
      · exact nofun
      · rfl
  · intro s m hm
    exact compile_of_distinct hm
  · intro s
    apply compile_congr_settings
    · cases hpolicy : s.unusedOptions <;> rfl
    · rw [Settings.distinctIntermediate_sanitize, Settings.distinctIntermediate_sanitize]

/-- a rack with a latency for a port-clock that is not connected -/
theorem spareConfig_settings :
    ∃ m m', compile spareConfig {} = .ok m ∧ compile spareConfig { unusedOptions := .ignore } = .ok m' ∧
      m.channels = m'.channels ∧ m.warnings ≠ [] ∧
      ∀ failed, compile spareConfig { unusedOptions := .error } ≠ .ok failed := by
  obtain ⟨hsame, herror, -, -, -⟩ := compile_settings spareConfig
  obtain ⟨m, hm, hwarned⟩ := exists_eq_ok (x := compile spareConfig {})
    (c := fun m => m.warnings ≠ []) (by decide +kernel)
  obtain ⟨m', hm', -⟩ := exists_eq_ok (x := compile spareConfig { unusedOptions := .ignore }) (c := fun _ => true)
    (by decide +kernel)
  refine ⟨m, m', hm, hm', (hsame _ _ _ _ hm hm').2.1, of_decide_eq_true hwarned, ?_⟩
  intro failed hfailed
  obtain ⟨m'', hm'', hnone⟩ := (herror {}).1 ⟨failed, hfailed⟩
  rw [hm, Except.ok.injEq] at hm''
  subst hm''
  exact of_decide_eq_true hwarned hnone

end RackMap
