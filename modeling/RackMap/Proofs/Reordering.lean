/-
Configs that differ in the order of their keys compile alike.

The order decides which port-clock asks first, which problem is met first and in what order things are listed, but
neither what is wrong nor what a channel is. `Parsed.Reordered` says what reordered documents have in common, and from
it every question that the stages ask is shown to have the same answer.
- `Reordered.rejected`: if one of them is rejected, the other is for the same kind of reason;
- `Reordered.same_compiled`: if they are accepted, their maps have the same channels, and list the same elsewhere;
- `compile_reordered`: so both configs compile, to maps that are alike, or both fail with one kind of failure.
-/
import Mathlib.Tactic
import RackMap.Proofs.Frequencies.Reordering
import RackMap.Proofs.OptionFrame
import RackMap.Proofs.OptionTable.Reordering
import RackMap.Proofs.Verdicts
import RackMap.Proofs.Wiring.Sound

namespace RackMap

/-! ## Configs in another order -/

/-- the same config up to the order of the top-level keys of its paths, and of the keys in every category of options -/
structure Config.Reordered (c c' : Config) : Prop where
  backend : c.backend = c'.backend
  description : c.description = c'.description
  options : Option.Rel HardwareOptions.Reordered c.options? c'.options?
  connectivity : ∃ root root', c.connectivity = .paths root ∧ c'.connectivity = .paths root' ∧ root.Perm root'

/-! ## Maps that are alike -/

/-- the same oscillator, at the same frequency -/
structure CompiledOscillator.Same (a b : CompiledOscillator) : Prop where
  lo : a.lo = b.lo
  frequency : SameFrequency a.frequency? b.frequency?
  power : a.power? = b.power?

/-- the same port-clock, with the same frequencies and corrections -/
structure CompiledPortClock.Same (a b : CompiledPortClock) : Prop where
  portClock : a.portClock = b.portClock
  interm : a.frequencies.interm? = b.frequencies.interm?
  lo : SameFrequency a.frequencies.lo? b.frequencies.lo?
  corrections : a.corrections = b.corrections

/-- the same channel, with the same port-clocks in the same order -/
structure CompiledChannel.Same (a b : CompiledChannel) : Prop where
  unitType : a.unitType = b.unitType
  kind : a.kind = b.kind
  direction : a.direction = b.direction
  oscillator : Option.Rel CompiledOscillator.Same a.oscillator? b.oscillator?
  mixLo : a.mixLo? = b.mixLo?
  downconverter : a.downconverter? = b.downconverter?
  markerDebug : a.markerDebug? = b.markerDebug?
  portClocks : List.Forall₂ CompiledPortClock.Same a.portClocks b.portClocks

/-- the same channels, and the same open frequencies and warnings in some order -/
structure CompiledMap.Same (a b : CompiledMap) : Prop where
  backend : a.backend = b.backend
  channels : List.Forall₂ (fun q q' => q.1 = q'.1 ∧ q.2.Same q'.2) a.channels b.channels
  unresolved : a.unresolved.Perm b.unresolved
  warnings : a.warnings.Perm b.warnings

/-! ## Documents in another order -/

/-- what the documents of reordered configs have in common -/
structure Parsed.Reordered (p p' : Parsed) : Prop where
  settings : p.settings = p'.settings
  inventory : p.inventory = p'.inventory
  corrections : ∀ pc, p.options.corrections pc = p'.options.corrections pc
  keys : p.options.keys.Perm p'.options.keys
  finite : p.options.AsksFinite
  edges : p.wiring.edges.Perm p'.wiring.edges
  portClocksOn : ∀ path, p.wiring.portClocksOn path = p'.wiring.portClocksOn path

variable {config config' : Config} {settings : Settings} {p p' : Parsed} {kind : FailureKind} {path : ChannelPath}
  {e : Edge}

theorem Config.Reordered.symm (h : config.Reordered config') : config'.Reordered config := by
  obtain ⟨root, root', hroot, hroot', hperm⟩ := h.connectivity
  refine ⟨h.backend.symm, h.description.symm, ?_, root', root, hroot', hroot, hperm.symm⟩
  have hoptions := h.options
  generalize config.options? = options, config'.options? = options' at hoptions ⊢
  cases hoptions with
  | some hgiven => exact .some hgiven.symm
  | none => exact .none

theorem Config.Reordered.optionsOf (h : config.Reordered config') :
    (Parsed.optionsOf config).Reordered (Parsed.optionsOf config') := by
  have hoptions := h.options
  unfold Parsed.optionsOf
  generalize config.options? = options, config'.options? = options' at hoptions ⊢
  cases hoptions with
  | some hgiven => exact hgiven
  | none => exact HardwareOptions.Reordered.refl {}

/-! ## Reading -/

namespace Wiring

variable {root root' : Table String Json}

/-- a connectivity in another order is read iff the connectivity is, and has the same edges and channels -/
theorem exists_build_reordered (hperm : root.Perm root') {w : Wiring} (hw : build (.paths root) = .ok w) :
    ∃ w', build (.paths root') = .ok w' ∧ w.edges.Perm w'.edges ∧
      ∀ path, w.portClocksOn path = w'.portClocksOn path := by
  obtain ⟨hsound, hedges⟩ := build_paths_eq_ok_iff.1 hw
  have hleaves := leavesOfRoot_perm_of_perm hperm
  have hedgesPerm : w.edges.Perm ((leavesOfRoot root').flatMap leafEdges) := by
    rw [hedges]
    exact hleaves.flatMap_right _
  have hdistinct : (((leavesOfRoot root').flatMap leafEdges).map Edge.portClock).Nodup :=
    (hedgesPerm.map Edge.portClock).nodup_iff.1 w.distinct
  refine ⟨.ofDistinct _ hdistinct, build_paths_eq_ok_iff.2 ⟨hsound.perm hleaves, rfl⟩, hedgesPerm, ?_⟩
  exact portClocksOn_eq_of_perm hleaves hsound hedges rfl

end Wiring

namespace Config.Reordered

theorem exists_parsed (h : config.Reordered config') (hp : Parsed.ofConfig config settings = .ok p) :
    ∃ p', Parsed.ofConfig config' settings = .ok p' ∧ p.Reordered p' := by
  obtain ⟨backend, hbackend, hinventory, hoptions, hwiring, rfl⟩ := Parsed.ofConfig_eq_ok_iff.1 hp
  obtain ⟨root, root', hroot, hroot', hperm⟩ := h.connectivity
  rw [hroot] at hwiring
  obtain ⟨wiring', hwiring', hedges, hlisted⟩ := Wiring.exists_build_reordered hperm hwiring
  obtain ⟨options', hoptions'⟩ := OptionTable.exists_build_reordered h.optionsOf hoptions
  refine ⟨⟨p.settings, p.inventory, options', wiring'⟩, ?_, rfl, rfl, ?_, ?_, ?_, hedges, hlisted⟩
  · rw [h.backend] at hbackend
    rw [h.description] at hinventory
    refine Parsed.ofConfig_eq_ok_iff.2 ⟨backend, hbackend, hinventory, hoptions', ?_, rfl⟩
    rw [hroot']
    exact hwiring'
  · exact OptionTable.corrections_reordered h.optionsOf hoptions hoptions'
  · exact OptionTable.keys_reordered h.optionsOf hoptions hoptions'
  · exact OptionTable.asksFinite_of_build hoptions

/-- schema problems stay, whatever the order -/
theorem flawed (h : config.Reordered config') (hflawed : Parsed.Flawed config) : Parsed.Flawed config' := by
  cases hflawed with
  | backend hreport =>
    rw [h.backend] at hreport
    exact .backend hreport
  | description hbackend hreport =>
    rw [h.backend] at hbackend
    rw [h.description] at hreport
    exact .description hbackend hreport
  | options hreport =>
    rcases Parsed.schemaOnly_options (Parsed.optionsOf config') with ⟨options', hoptions'⟩ | ⟨report, -, hreport'⟩
    · obtain ⟨options, hoptions⟩ := OptionTable.exists_build_reordered h.symm.optionsOf hoptions'
      rw [hreport] at hoptions
      cases hoptions
    · exact .options hreport'
  | connectivity hreport =>
    obtain ⟨root, root', hroot, hroot', hperm⟩ := h.connectivity
    rw [hroot] at hreport
    have hunsound : ¬Wiring.SoundLeaves (Wiring.leavesOfRoot root') := by
      intro hsound
      have hsound' := hsound.perm (Wiring.leavesOfRoot_perm_of_perm hperm.symm)
      exact Wiring.build_paths_schema_iff.1 ⟨_, hreport⟩ hsound'
    obtain ⟨report', hreport'⟩ := Wiring.build_paths_schema_iff.2 hunsound
    rw [← hroot'] at hreport'
    exact .connectivity hreport'

end Config.Reordered

/-! ## Checking -/

namespace Parsed.Reordered

theorem modulation (h : p.Reordered p') (pc : PortClock) : p.options.modulation pc = p'.options.modulation pc :=
  OptionTable.modulation_congr (h.corrections pc)

theorem symm (h : p.Reordered p') : p'.Reordered p where
  settings := h.settings.symm
  inventory := h.inventory.symm
  corrections pc := (h.corrections pc).symm
  keys := h.keys.symm
  finite pc f hf := h.finite pc f ((congrArg Modulation.lo? (h.modulation pc)).trans hf)
  edges := h.edges.symm
  portClocksOn path := (h.portClocksOn path).symm

theorem linked (h : p.Reordered p') (hlinked : p.Linked) : p'.Linked := by
  rw [Parsed.Linked, ← h.inventory, ← h.settings]
  constructor
  · intro e he
    exact hlinked.edges e (h.edges.mem_iff.2 he)
  · intro herror key hkey
    obtain ⟨e, he, htext⟩ := hlinked.options herror key (h.keys.mem_iff.2 hkey)
    exact ⟨e, h.edges.mem_iff.1 he, htext⟩

theorem spacious (h : p.Reordered p') (hspacious : p.Spacious) : p'.Spacious := by
  rintro path channel ⟨hdescribed, hkind, hmany⟩
  rw [← h.inventory] at hdescribed
  rw [← h.portClocksOn path] at hmany
  exact hspacious path channel ⟨hdescribed, hkind, hmany⟩

theorem agreeOn (h : p.Reordered p') (edges : List Edge) : AgreeOn edges p.options p'.options :=
  fun e _ => h.corrections e.portClock

theorem agreed (h : p.Reordered p') (hagreed : p.Agreed) : p'.Agreed := by
  intro lo
  rw [← h.inventory, ← Frequencies.requests_congr (h.agreeOn p'.wiring.edges), ← Frequencies.agreed_reordered h.edges]
  exact hagreed lo

/-- the frequencies of the documents, read off the options of the others -/
theorem resolution_eq (h : p.Reordered p') :
    p.resolution = Frequencies.resolution p.inventory p'.options p.wiring.edges :=
  Frequencies.resolution_congr (h.agreeOn p.wiring.edges)

/-! ## Frequencies -/

theorem lo?_eq (h : p.Reordered p') (he : e ∈ p.wiring.edges) :
    p.resolution.lo? e.portClock = p'.resolution.lo? e.portClock := by
  have he' : e ∈ p'.wiring.edges := h.edges.mem_iff.1 he
  rw [Parsed.resolution, Parsed.resolution, Frequencies.lo?_resolution p.wiring.distinct he,
    Frequencies.lo?_resolution p'.wiring.distinct he', h.inventory]

theorem split_same (h : p.Reordered p') (hagreed : p.Agreed) (he : e ∈ p.wiring.edges) :
    (p.resolution.split e.portClock).interm? = (p'.resolution.split e.portClock).interm? ∧
      SameFrequency (p.resolution.split e.portClock).lo? (p'.resolution.split e.portClock).lo? := by
  have hagreed' : ∀ lo, RackMap.agreed (Frequencies.requests p'.inventory p'.options p.wiring.edges lo) = true := by
    intro lo
    rw [← h.inventory, ← Frequencies.requests_congr (h.agreeOn p.wiring.edges)]
    exact hagreed lo
  rw [h.resolution_eq, h.inventory]
  exact Frequencies.split_reordered h.edges p.wiring.distinct hagreed' h.symm.finite he

theorem oscillator_same (h : p.Reordered p') (hagreed : p.Agreed) (lo : OscillatorRef) :
    (Compile.oscillator p.inventory p.resolution lo).Same (Compile.oscillator p'.inventory p'.resolution lo) := by
  refine ⟨rfl, ?_, by rw [h.inventory]; rfl⟩
  simp only [Compile.oscillator, Parsed.resolution, Frequencies.frequency?_resolution]
  have hasked : Frequencies.firstRequest? p.inventory p.options p.wiring.edges lo =
      Frequencies.firstRequest? p.inventory p'.options p.wiring.edges lo := by
    rw [Frequencies.firstRequest?, Frequencies.firstRequest?, Frequencies.requests_congr (h.agreeOn p.wiring.edges)]
  have hagreed' := hagreed lo
  rw [Frequencies.requests_congr (h.agreeOn p.wiring.edges)] at hagreed'
  rw [hasked, ← h.inventory]
  exact Frequencies.firstRequest?_reordered h.edges hagreed'

/-! ## Channels -/

/-- the port-clocks on a channel have the same entries -/
theorem entries_same (h : p.Reordered p') (hagreed : p.Agreed) (path : ChannelPath) :
    List.Forall₂ CompiledPortClock.Same (Compile.entries p.options p.wiring p.resolution path)
      (Compile.entries p'.options p'.wiring p'.resolution path) := by
  rw [Compile.entries, Compile.entries, ← h.portClocksOn path, List.forall₂_map_left_iff, List.forall₂_map_right_iff,
    List.forall₂_same]
  intro pc hpc
  obtain ⟨e, he, -, rfl⟩ := Compile.mem_portClocksOn.1 hpc
  obtain ⟨hinterm, hlo⟩ := h.split_same hagreed he
  exact ⟨rfl, hinterm, hlo, h.corrections e.portClock⟩

theorem channelAt_same (h : p.Reordered p') (hagreed : p.Agreed) (path : ChannelPath) :
    (Compile.channelAt p.inventory p.options p.wiring p.resolution path).Same
      (Compile.channelAt p'.inventory p'.options p'.wiring p'.resolution path) := by
  have hfed : (p.wiring.portClocksOn path).head?.bind p.resolution.lo? =
      (p'.wiring.portClocksOn path).head?.bind p'.resolution.lo? := by
    rw [← h.portClocksOn path]
    cases hhead : (p.wiring.portClocksOn path).head? with
    | none => rfl
    | some pc =>
      obtain ⟨e, he, -, rfl⟩ := Compile.mem_portClocksOn.1 (List.mem_of_mem_head? hhead)
      exact h.lo?_eq he
  have hdescribed : p.inventory.channel? path = p'.inventory.channel? path := by rw [h.inventory]
  simp only [Compile.channelAt, Compile.compiledChannel, hfed, hdescribed]
  refine ⟨rfl, rfl, rfl, ?_, rfl, rfl, rfl, h.entries_same hagreed path⟩
  cases (p'.wiring.portClocksOn path).head?.bind p'.resolution.lo? with
  | none => exact .none
  | some lo => exact .some (h.oscillator_same hagreed lo)

theorem channels_perm (h : p.Reordered p') : p.wiring.channels.Perm p'.wiring.channels := by
  rw [Wiring.channels_eq, Wiring.channels_eq,
    List.perm_ext_iff_of_nodup (Wiring.nodup_firsts _) (Wiring.nodup_firsts _)]
  intro path
  rw [Wiring.mem_firsts, Wiring.mem_firsts, (h.edges.map Edge.channel).mem_iff]

end Parsed.Reordered

namespace Compile

variable {entries entries' : List CompiledPortClock}

theorem portClocks_eq_of_same (h : List.Forall₂ CompiledPortClock.Same entries entries') :
    entries.map CompiledPortClock.portClock = entries'.map CompiledPortClock.portClock := by
  induction h with
  | nil => rfl
  | cons hentry _ ih => rw [List.map_cons, List.map_cons, hentry.portClock, ih]

theorem isEmpty_eq_of_same (h : List.Forall₂ CompiledPortClock.Same entries entries') :
    entries.isEmpty = entries'.isEmpty := by
  cases h <;> rfl

/-- a clash is told by the port-clocks and the intermediate frequencies that they ask for -/
theorem clash?_eq_of_same (h : List.Forall₂ CompiledPortClock.Same entries entries') :
    clash? entries = clash? entries' := by
  induction h with
  | nil => rfl
  | @cons entry entry' rest rest' hentry hrest ih =>
    have hasking : ∀ frequency : Decimal.Double, List.Forall₂ CompiledPortClock.Same
        (rest.filter fun other => other.frequencies.interm?.any (·.same frequency))
        (rest'.filter fun other => other.frequencies.interm?.any (·.same frequency)) := by
      intro frequency
      refine List.rel_filter (fun other other' hother => ?_) hrest
      simp only [hother.interm]
    rw [clash?, clash?, hentry.interm]
    cases entry'.frequencies.interm? with
    | none => exact ih
    | some frequency =>
      have hothers := hasking frequency
      simp only [isEmpty_eq_of_same hothers, ih, List.map_cons, hentry.portClock, portClocks_eq_of_same hothers]

end Compile

/-! ## Verdicts -/

namespace Parsed.Reordered

theorem distinct (h : p.Reordered p') (hagreed : p.Agreed) (hdistinct : p.Distinct) :
    p'.Distinct := by
  intro hsetting path hpath
  rw [← h.settings] at hsetting
  rw [← Compile.clash?_eq_of_same (h.entries_same hagreed path)]
  exact hdistinct hsetting path (h.channels_perm.mem_iff.2 hpath)

theorem accepted (h : p.Reordered p') (haccepted : p.Accepted) : p'.Accepted where
  linked := h.linked haccepted.linked
  spacious := h.spacious haccepted.spacious
  agreed := h.agreed haccepted.agreed
  distinct := h.distinct haccepted.agreed haccepted.distinct

/-- **Rejection.** What is wrong first is of the same kind. -/
theorem rejected (h : p.Reordered p') (hrejected : p.Rejected kind) : p'.Rejected kind := by
  cases hrejected with
  | referential hbroken => exact .referential fun hlinked => hbroken (h.symm.linked hlinked)
  | duplicates hlinked hcrowded =>
    exact .duplicates (h.linked hlinked) fun hspacious => hcrowded (h.symm.spacious hspacious)
  | oscillator hlinked hspacious hdisagree =>
    exact .oscillator (h.linked hlinked) (h.spacious hspacious) fun hagreed => hdisagree (h.symm.agreed hagreed)
  | intermediate hlinked hspacious hagreed hclash =>
    exact .intermediate (h.linked hlinked) (h.spacious hspacious) (h.agreed hagreed)
      fun hdistinct => hclash (h.symm.distinct (h.agreed hagreed) hdistinct)

/-- warnings come in the order of the options -/
theorem warnings_perm (h : p.Reordered p') :
    (Crosscheck.warnings p.options p.wiring p.settings).Perm
      (Crosscheck.warnings p'.options p'.wiring p'.settings) := by
  have hconnected : ∀ key, key ∉ p.wiring.edges.map (fun e => e.portClock.text) ↔
      key ∉ p'.wiring.edges.map fun e => e.portClock.text := by
    intro key
    rw [(h.edges.map fun e => e.portClock.text).mem_iff]
  have hunused : (Crosscheck.unusedKeys p.options p.wiring).Perm (Crosscheck.unusedKeys p'.options p'.wiring) := by
    simp only [Crosscheck.unusedKeys, hconnected]
    exact h.keys.filter _
  unfold Crosscheck.warnings
  rw [h.settings]
  split
  · exact hunused.map _
  · exact List.Perm.refl []

/-- **Maps.** They have the same channels, in the same order, and list the same elsewhere. -/
theorem same_compiled (h : p.Reordered p') (haccepted : p.Accepted) : p.compiled.Same p'.compiled where
  backend := congrArg Inventory.backend h.inventory
  channels := by
    -- both tables are sorted, so the order in which the channels are first connected does not show
    have hsorted := Table.sortedOfPairs_eq_of_perm
      (Compile.nodup_paths_compiled p'.wiring
        (Compile.channelAt p'.inventory p'.options p'.wiring p'.resolution)) (h.symm.channels_perm.map _)
    simp only [Parsed.compiled, Compile.compiled]
    rw [hsorted]
    refine Table.forall₂_sortedOfPairs ?_
    rw [List.forall₂_map_left_iff, List.forall₂_map_right_iff, List.forall₂_same]
    intro path hpath
    exact ⟨rfl, h.channelAt_same haccepted.agreed path⟩
  unresolved := by
    have hopen : p.compiled.unresolved = (Frequencies.resolution p.inventory p'.options p.wiring.edges).unresolved :=
      congrArg Resolution.unresolved h.resolution_eq
    rw [hopen, h.inventory]
    exact Frequencies.unresolved_perm h.edges
  warnings := h.warnings_perm

end Parsed.Reordered

/-- **The order of a config does not show.** With the keys of the connectivity and of the options in another order the
config compiles as before, to a map with the same channels and, in some order, the same open frequencies and warnings.
If it fails, it fails as before: the kind of failure is the same. -/
theorem compile_reordered (h : config.Reordered config') (settings : Settings) :
    (∃ m m', compile config settings = .ok m ∧ compile config' settings = .ok m' ∧ m.Same m') ∨
      ∃ kind, FailsAs config settings kind ∧ FailsAs config' settings kind := by
  by_cases hread : ∃ p, Parsed.ofConfig config settings.sanitize.2 = .ok p
  · obtain ⟨p, hp⟩ := hread
    obtain ⟨p', hp', hreordered⟩ := h.exists_parsed hp
    rcases p.accepted_or_rejected with haccepted | ⟨kind, hrejected⟩
    · left
      exact ⟨_, _, compile_eq_ok_iff_accepted.2 ⟨p, hp, haccepted, rfl⟩,
        compile_eq_ok_iff_accepted.2 ⟨p', hp', hreordered.accepted haccepted, rfl⟩,
        hreordered.same_compiled haccepted⟩
    · right
      exact ⟨kind, failsAs_of_rejected hp hrejected, failsAs_of_rejected hp' (hreordered.rejected hrejected)⟩
  · right
    have hunread : ∀ p, Parsed.ofConfig config settings.sanitize.2 ≠ .ok p := fun p hp => hread ⟨p, hp⟩
    have hunread' : ∀ p', Parsed.ofConfig config' settings.sanitize.2 ≠ .ok p' := by
      intro p' hp'
      obtain ⟨p, hp, -⟩ := h.symm.exists_parsed hp'
      exact hunread p hp
    by_cases hflawed : Parsed.Flawed config
    · exact ⟨.schema, (failsAs_of_unread hunread).1 hflawed, (failsAs_of_unread hunread').1 (h.flawed hflawed)⟩
    · have hsound' : ¬Parsed.Flawed config' := fun hflawed' => hflawed (h.symm.flawed hflawed')
      exact ⟨.duplicates, (failsAs_of_unread hunread).2 hflawed, (failsAs_of_unread hunread').2 hsound'⟩

/-- two leaves whose port-clocks are fed by one oscillator -/
def pairedPaths : Table String Json :=
  [("cluster0.module1.complex_output_0", .obj [("lo_name", .str "lo0"),
      ("portclock_configs", .arr [.obj [("port", .str "q0:mw"), ("clock", .str "q0.01")]])]),
    ("cluster0.module1.complex_output_1", .obj [("lo_name", .str "lo0"),
      ("portclock_configs", .arr [.obj [("port", .str "q1:mw"), ("clock", .str "q1.01")]])])]

/-- requests for the two zeros -/
def pairedRequests : Entries Modulation :=
  [("q0:mw-q0.01", ⟨none, some (.finite false 0)⟩), ("q1:mw-q1.01", ⟨none, some (.finite true 0)⟩)]

/-- a rack with these leaves and requests -/
def pairedConfig (paths : Table String Json) (requests : Entries Modulation) : Config :=
  { sharedConfig none none with options? := some { modulation? := some requests }, connectivity := .paths paths }

/-- the other way around the other zero is asked for first -/
theorem pairedConfig_reordered :
    ∃ m m', compile (pairedConfig pairedPaths pairedRequests) {} = .ok m ∧
      compile (pairedConfig pairedPaths.reverse pairedRequests.reverse) {} = .ok m' ∧ m.Same m' := by
  have hreordered : (pairedConfig pairedPaths pairedRequests).Reordered
      (pairedConfig pairedPaths.reverse pairedRequests.reverse) := by
    refine ⟨rfl, rfl, .some fun kind => ?_, _, _, rfl, rfl, (List.reverse_perm pairedPaths).symm⟩
    cases kind with
    | modulation => exact .some (List.reverse_perm pairedRequests).symm
    | _ => exact .none
  rcases compile_reordered hreordered {} with hmaps | ⟨kind, ⟨failure, hfails, -⟩, -⟩
  · exact hmaps
  · obtain ⟨m, hm, -⟩ := exists_eq_ok (x := compile (pairedConfig pairedPaths pairedRequests) {}) (c := fun _ => true)
      (by decide +kernel)
    rw [hfails] at hm
    cases hm

end RackMap
