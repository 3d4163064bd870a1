/-
Which configs compile, and to which map, without the stages in between.

`Compile.compiled` is the map that resolved documents compile to, and `Parsed.compiled` the one that the documents of a
config compile to. The settings have no part in either but for the warnings. `Parsed.Accepted` collects what the checks,
the oscillators and the channels ask for.
- `map_eq_ok_iff_clear`: a map is compiled iff every connected channel can be, and then it is this one;
- `compile_eq_ok_iff_accepted`: a config compiles iff its documents are read and accepted, and then to their map.
-/
import Mathlib.Tactic
import RackMap.Proofs.Compilation
import RackMap.Proofs.Crosscheck.Acceptance

namespace RackMap

/-- paths are ordered as their texts are -/
instance : IsStrictTotalOrder ChannelPath (· < ·) where
  trichotomous a b hab hba := by
    have htext : a.text = b.text := String.le_antisymm (String.not_lt.1 hba) (String.not_lt.1 hab)
    exact congrArg ChannelPath.mk htext
  irrefl a := String.lt_irrefl a.text
  trans _ _ _ hab hbc := String.lt_trans hab hbc

/-! ## Maps -/

namespace Compile

variable {inv : Inventory} {options : OptionTable} {wiring : Wiring} {settings : Settings} {r : Resolution}
  {warnings : List String} {m : CompiledMap} {path : ChannelPath} {q : ChannelPath × CompiledChannel}

/-- the channel at a connected path, which is described -/
def channelAt (inv : Inventory) (options : OptionTable) (wiring : Wiring) (r : Resolution) (path : ChannelPath) :
    CompiledChannel :=
  compiledChannel inv options wiring r path ((inv.channel? path).getD default)

/-- the map of resolved documents -/
def compiled (inv : Inventory) (options : OptionTable) (wiring : Wiring) (r : Resolution) (warnings : List String) :
    CompiledMap :=
  { backend := inv.backend
    channels := Table.sortedOfPairs (wiring.channels.map fun path => (path, channelAt inv options wiring r path))
    unresolved := r.unresolved
    warnings := warnings }

/-- every path is compiled once, whatever is compiled for it -/
theorem nodup_paths_compiled {α : Type} (wiring : Wiring) (f : ChannelPath → α) :
    ((wiring.channels.map fun path => (path, f path)).map Prod.fst).Nodup := by
  rw [List.map_map]
  exact (List.map_id wiring.channels).symm ▸ wiring.nodup_channels

/-- nothing keeps a channel from being compiled -/
structure Clear (inv : Inventory) (options : OptionTable) (wiring : Wiring) (settings : Settings) (r : Resolution)
    (path : ChannelPath) : Prop where
  described : ∃ channel, inv.channel? path = some channel
  spacious : Crosscheck.overload? inv wiring path = none
  distinct : settings.distinctIntermediate = true → clash? (entries options wiring r path) = none

theorem channel_eq_ok_iff :
    channel inv options wiring settings r path = .ok q ↔
      Clear inv options wiring settings r path ∧ q = (path, channelAt inv options wiring r path) := by
  constructor
  · intro h
    obtain ⟨described, hdescribed, rfl⟩ := channel_eq_ok h
    have hat : channelAt inv options wiring r path = compiledChannel inv options wiring r path described := by
      rw [channelAt, hdescribed, Option.getD_some]
    have hspacious : Crosscheck.overload? inv wiring path = none := by
      by_contra hover
      obtain ⟨violation, hviolation⟩ := Option.ne_none_iff_exists'.1 hover
      simp [channel, hdescribed, hviolation] at h
    refine ⟨⟨⟨described, hdescribed⟩, hspacious, fun hdistinct => ?_⟩, by rw [hat]⟩
    by_contra hclash
    obtain ⟨⟨frequency, pcs⟩, hfound⟩ := Option.ne_none_iff_exists'.1 hclash
    simp [channel, hdescribed, hspacious, hdistinct, hfound] at h
  · rintro ⟨hclear, rfl⟩
    obtain ⟨described, hdescribed⟩ := hclear.described
    have hcheck : (if settings.distinctIntermediate then clash? (entries options wiring r path) else none) = none := by
      split
      · rename_i hdistinct
        exact hclear.distinct hdistinct
      · rfl
    simp [channel, hdescribed, hclear.spacious, hcheck, channelAt, compiledChannel]

/-- **Compiling a map.** It takes that every connected channel can be compiled. -/
theorem map_eq_ok_iff_clear :
    map inv options wiring settings r warnings = .ok m ↔
      (∀ path ∈ wiring.channels, Clear inv options wiring settings r path) ∧
        m = compiled inv options wiring r warnings := by
  unfold map
  simp only [bind_eq_ok_iff, mapM_eq_ok_iff, pure_eq_ok, Except.ok.injEq]
  constructor
  · rintro ⟨channels, hchannels, rfl⟩
    have hclear : ∀ path ∈ wiring.channels, Clear inv options wiring settings r path := by
      intro path hpath
      have hmem : channel inv options wiring settings r path ∈ channels.map Except.ok := by
        rw [← hchannels]
        exact List.mem_map_of_mem hpath
      obtain ⟨q, -, hq⟩ := List.mem_map.1 hmem
      exact (channel_eq_ok_iff.1 hq.symm).1
    refine ⟨hclear, ?_⟩
    have hmap : wiring.channels.map (fun path => (path, channelAt inv options wiring r path)) = channels := by
      have hok : wiring.channels.map (channel inv options wiring settings r) =
          (wiring.channels.map fun path => (path, channelAt inv options wiring r path)).map Except.ok := by
        rw [List.map_map]
        exact List.map_congr_left fun path hpath => channel_eq_ok_iff.2 ⟨hclear path hpath, rfl⟩
      rw [hok] at hchannels
      exact List.map_injective_iff.2 (fun _ _ h => Except.ok.inj h) hchannels
    rw [compiled, hmap]
  · rintro ⟨hclear, rfl⟩
    refine ⟨_, ?_, rfl⟩
    rw [List.map_map]
    exact List.map_congr_left fun path hpath => channel_eq_ok_iff.2 ⟨hclear path hpath, rfl⟩

/-- the channels of a map stand in the order of their paths -/
theorem ascending_channels (h : map inv options wiring settings r warnings = .ok m) : m.channels.Ascending := by
  obtain ⟨-, rfl⟩ := map_eq_ok_iff_clear.1 h
  exact Table.ascending_sortedOfPairs _

end Compile

/-! ## Configs -/

namespace Frequencies

variable {inv : Inventory} {options : OptionTable} {w : Wiring} {given : HardwareOptions} {r : Resolution}

/-- checked documents are resolved iff the members of every oscillator agree -/
theorem resolve_eq_ok_iff (hoptions : OptionTable.build given = .ok options)
    (hfits : ∀ e ∈ w.edges, ∃ channel, Crosscheck.Fits inv e channel) :
    resolve inv options w = .ok r ↔
      (∀ lo, agreed (requests inv options w.edges lo) = true) ∧ r = resolution inv options w.edges := by
  rw [resolve_of_fits hoptions hfits, ← firstConflict?_eq_none_iff]
  cases firstConflict? inv options w.edges with
  | some lo => simp
  | none => simp [eq_comm]

end Frequencies

namespace Parsed

/-- the frequencies of documents whose members agree -/
def resolution (p : Parsed) : Resolution := Frequencies.resolution p.inventory p.options p.wiring.edges

/-- the map that documents compile to -/
def compiled (p : Parsed) : CompiledMap :=
  Compile.compiled p.inventory p.options p.wiring p.resolution (Crosscheck.warnings p.options p.wiring p.settings)

/-- all references between the documents hold -/
def Linked (p : Parsed) : Prop := Crosscheck.Linked p.inventory p.options p.wiring p.settings

/-- no channel has more port-clocks than its kind allows -/
def Spacious (p : Parsed) : Prop := ∀ path channel, ¬Crosscheck.Crowded p.inventory p.wiring path channel

/-- the members of every oscillator agree on its frequency -/
def Agreed (p : Parsed) : Prop :=
  ∀ lo, agreed (Frequencies.requests p.inventory p.options p.wiring.edges lo) = true

/-- no port-clocks on one channel ask for the same intermediate frequency, where that is checked -/
def Distinct (p : Parsed) : Prop :=
  p.settings.distinctIntermediate = true → ∀ path ∈ p.wiring.channels,
    Compile.clash? (Compile.entries p.options p.wiring p.resolution path) = none

/-- nothing keeps the documents from being compiled -/
structure Accepted (p : Parsed) : Prop where
  linked : p.Linked
  spacious : p.Spacious
  agreed : p.Agreed
  distinct : p.Distinct

end Parsed

variable {config : Config} {settings : Settings} {p : Parsed} {m : CompiledMap} {failure : Failure}

theorem compile_of_unread (h : Parsed.ofConfig config settings.sanitize.2 = .error failure) :
    compile config settings = .error failure := by
  unfold compile
  rw [h, error_bind]

/-- what is left of a compilation once the documents are read -/
theorem compile_of_parsed (hp : Parsed.ofConfig config settings.sanitize.2 = .ok p) :
    compile config settings =
      (Crosscheck.validate p.inventory p.options p.wiring p.settings >>= fun ws =>
        Frequencies.resolve p.inventory p.options p.wiring >>= fun r =>
          Compile.map p.inventory p.options p.wiring p.settings r ws) := by
  unfold compile
  rw [hp, ok_bind, Parsed.validate]
  cases Crosscheck.validate p.inventory p.options p.wiring p.settings with
  | error failure => rfl
  | ok ws =>
    simp only [Except.map, ok_bind, Validated.resolve]
    cases Frequencies.resolve p.inventory p.options p.wiring <;> rfl

theorem Crosscheck.validate_eq_ok_iff_linked {inv : Inventory} {options : OptionTable} {wiring : Wiring}
    {ws : List String} :
    validate inv options wiring settings = .ok ws ↔
      Linked inv options wiring settings ∧ (∀ path channel, ¬Crowded inv wiring path channel) ∧
        ws = warnings options wiring settings := by
  rw [validate_eq_ok_iff, linked_iff, List.append_eq_nil_iff, edgesReport_eq_nil_iff, overloads_eq_nil_iff, and_assoc]

/-- the paths of accepted documents can be compiled -/
theorem Parsed.clear_iff (hlinked : p.Linked) (hspacious : p.Spacious) :
    (∀ path ∈ p.wiring.channels, Compile.Clear p.inventory p.options p.wiring p.settings p.resolution path) ↔
      p.Distinct := by
  constructor
  · intro h hdistinct path hpath
    exact (h path hpath).distinct hdistinct
  · intro h path hpath
    obtain ⟨e, he, rfl⟩ := Compile.mem_channels.1 hpath
    obtain ⟨channel, hfits⟩ := hlinked.edges e he
    have hover := List.filterMap_eq_nil_iff.1 (Crosscheck.overloads_eq_nil_iff.2 hspacious)
    exact ⟨⟨channel, hfits.described⟩, hover _ hpath, fun hdistinct => h hdistinct _ hpath⟩

/-- **Compiling a config.** It takes that its documents are read and accepted, and gives their map. -/
theorem compile_eq_ok_iff_accepted :
    compile config settings = .ok m ↔
      ∃ p, Parsed.ofConfig config settings.sanitize.2 = .ok p ∧ p.Accepted ∧ m = p.compiled := by
  rw [compile_eq_ok_iff]
  simp only [Crosscheck.validate_eq_ok_iff_linked, Compile.map_eq_ok_iff_clear]
  constructor
  · rintro ⟨p, ws, r, hp, ⟨hlinked, hspacious, rfl⟩, hresolve, hclear, rfl⟩
    obtain ⟨backend, -, -, hoptions, -, -⟩ := Parsed.ofConfig_eq_ok_iff.1 hp
    obtain ⟨hagreed, rfl⟩ := (Frequencies.resolve_eq_ok_iff hoptions hlinked.edges).1 hresolve
    exact ⟨p, hp, ⟨hlinked, hspacious, hagreed, (Parsed.clear_iff hlinked hspacious).1 hclear⟩, rfl⟩
  · rintro ⟨p, hp, h, rfl⟩
    obtain ⟨backend, -, -, hoptions, -, -⟩ := Parsed.ofConfig_eq_ok_iff.1 hp
    refine ⟨p, _, p.resolution, hp, ⟨h.linked, h.spacious, rfl⟩, ?_, ?_, rfl⟩
    · exact (Frequencies.resolve_eq_ok_iff hoptions h.linked.edges).2 ⟨h.agreed, rfl⟩
    · exact (Parsed.clear_iff h.linked h.spacious).2 h.distinct

end RackMap
