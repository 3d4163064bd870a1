/-
What the written form of a port-clock tells apart on a compiled map.

Port-clocks are connected as pairs of a port and a clock, but they are shown, and given options, by their written form.
`ToldApart` says how far that goes: different entries are written alike iff their port-clocks overlap, and an entry has
the options that are given under its written form. So where nothing overlaps, a written form stands for one entry, and
a key gives options to one entry at most. `compile_told_apart` proves it for every config that compiles;
`overlapConfig_alike` is a map with two entries that cannot be told apart.
-/
import Mathlib.Tactic
import RackMap.Proofs.Compilation
import RackMap.Proofs.PortClock

namespace RackMap

/-- neither port-clock goes on where the other one has its dash -/
def PortClock.Apart (a b : PortClock) : Prop := ¬a.Overlaps b ∧ ¬b.Overlaps a

/-- what the written forms of the entries tell, with the options that were given -/
structure ToldApart (options : HardwareOptions) (m : CompiledMap) : Prop where
  /-- entries at different places have different port-clocks, and are written alike iff these overlap -/
  alike : m.entries.Pairwise fun a b => a.portClock ≠ b.portClock ∧
    (a.portClock.text = b.portClock.text ↔ ¬a.portClock.Apart b.portClock)
  /-- an entry has what is given under its written form, and nothing else -/
  given : ∀ entry ∈ m.entries, ∀ (kind : OptionKind) (value : kind.Value),
    kind.category.get entry.corrections = some value ↔
      ∃ key, ⟨kind, key, value⟩ ∈ options.listed ∧ Text.trim key = entry.portClock.text
  /-- if no two entries overlap, the written forms are all different -/
  distinct : (m.entries.Pairwise fun a b => a.portClock.Apart b.portClock) →
    (m.entries.map fun entry => entry.portClock.text).Nodup
  /-- if no two entries overlap, a key is that of one entry at most -/
  single : (m.entries.Pairwise fun a b => a.portClock.Apart b.portClock) →
    ∀ key, (m.entries.filter fun entry => entry.portClock.text = Text.trim key).length ≤ 1

variable {config : Config} {settings : Settings} {m : CompiledMap} {given : HardwareOptions} {options : OptionTable}
  {inv : Inventory} {wiring : Wiring} {r : Resolution} {warnings : List String}

theorem PortClock.text_eq_iff_of_ne {a b : PortClock} (hne : a ≠ b) : a.text = b.text ↔ ¬a.Apart b := by
  rw [PortClock.text_eq_text_iff, PortClock.Apart, not_and_or, not_not, not_not]
  exact or_iff_right hne

/-- texts that are all different: one of them is found once at most -/
theorem length_filter_le_one {α : Type} {f : α → String} {items : List α} (h : (items.map f).Nodup) (text : String) :
    (items.filter fun a => f a = text).length ≤ 1 :=
  calc (items.filter fun a => f a = text).length
      = (items.map f).count text := by rw [List.count, List.countP_map, List.countP_eq_length_filter]; rfl
    _ ≤ 1 := List.nodup_iff_count_le_one.1 h text

/-- a map tells apart what does not overlap, whatever wiring it is compiled of -/
theorem map_told_apart (h : Compile.map inv options wiring settings r warnings = .ok m)
    (hoptions : OptionTable.build given = .ok options) : ToldApart given m := by
  have halike : m.entries.Pairwise fun a b => a.portClock ≠ b.portClock ∧
      (a.portClock.text = b.portClock.text ↔ ¬a.portClock.Apart b.portClock) := by
    have hne : m.entries.Pairwise fun a b => a.portClock ≠ b.portClock := List.pairwise_map.1 (Compile.nodup_entries h)
    exact hne.imp fun hab => ⟨hab, PortClock.text_eq_iff_of_ne hab⟩
  have hdistinct : (m.entries.Pairwise fun a b => a.portClock.Apart b.portClock) →
      (m.entries.map fun entry => entry.portClock.text).Nodup := by
    intro hapart
    refine List.pairwise_map.2 ((halike.and hapart).imp ?_)
    rintro a b ⟨⟨-, htext⟩, hab⟩ heq
    exact htext.1 heq hab
  refine ⟨halike, ?_, hdistinct, fun hapart key => length_filter_le_one (hdistinct hapart) (Text.trim key)⟩
  intro entry hentry kind value
  obtain ⟨q, -, -, heq⟩ := Compile.mem_entries h hentry
  have hcorrections : entry.corrections = options.corrections entry.portClock := by rw [heq]; rfl
  rw [hcorrections]
  exact OptionTable.get_corrections_iff hoptions

/-- **Written forms on a compiled map.** They tell entries apart unless the port-clocks overlap, and they alone decide
which options an entry has. -/
theorem compile_told_apart (h : compile config settings = .ok m) : ToldApart (Parsed.optionsOf config) m := by
  obtain ⟨p, warnings, hc⟩ := compile_compiled h
  exact map_told_apart hc.map hc.options

/-- two port-clocks on one channel, with options for each -/
theorem sharedConfig_told_apart :
    ∃ m, compile (sharedConfig (some (.finite false 5)) none) {} = .ok m ∧
      ToldApart (Parsed.optionsOf (sharedConfig (some (.finite false 5)) none)) m := by
  obtain ⟨m, hm, -⟩ := exists_eq_ok (x := compile (sharedConfig (some (.finite false 5)) none) {}) (c := fun _ => true)
    (by decide +kernel)
  exact ⟨m, hm, compile_told_apart hm⟩

/-- a rack with two channels whose port-clocks are both written `q0:mw-a-b`, and an option under that key -/
def overlapConfig : Config where
  backend := "qblox"
  description :=
    [("cluster0", { (default : InstrumentDescription) with type := "Cluster", modules? := some [("1", ⟨"QCM", []⟩)] })]
  options? := some { latency? := some [("q0:mw-a-b", .finite false 5)] }
  connectivity := .paths [
    ("cluster0.module1.complex_output_0", .obj [
      ("portclock_configs", .arr [.obj [("port", .str "q0:mw"), ("clock", .str "a-b")]])]),
    ("cluster0.module1.complex_output_1", .obj [
      ("portclock_configs", .arr [.obj [("port", .str "q0:mw-a"), ("clock", .str "b")]])])]

/-- two entries that are written alike: one key gives its option to both -/
theorem overlapConfig_alike :
    ∃ m, compile overlapConfig {} = .ok m ∧ ∃ a ∈ m.entries, ∃ b ∈ m.entries, a.portClock ≠ b.portClock ∧
      a.portClock.text = b.portClock.text ∧ a.corrections.latency? = some (.finite false 5) ∧
      b.corrections.latency? = some (.finite false 5) := by
  obtain ⟨m, hm, hpair⟩ := exists_eq_ok (x := compile overlapConfig {})
    (c := fun m => ∃ a ∈ m.entries, ∃ b ∈ m.entries, a.portClock ≠ b.portClock ∧
      a.portClock.text = b.portClock.text ∧ a.corrections.latency? = some (.finite false 5) ∧
      b.corrections.latency? = some (.finite false 5))
    (by decide +kernel)
  exact ⟨m, hm, of_decide_eq_true hpair⟩

end RackMap
