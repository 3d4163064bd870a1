/-
What a compilation reads of an edge: its port-clock, its channel and its oscillator.

`Edge.bare` forgets the mode and the place of a declaration. A place is for reports only, and a mode is compared with the
described kind and then not used any more.
- `resolution_bare`, `requests_bare`: bare edges get the same frequencies and ask for the same;
- `Parsed.accepted_iff_bare`: documents are accepted iff they are with bare edges, and the declared modes are those
  described;
- `Parsed.compiled_bare`: and then they compile to the same map.
-/
import Mathlib.Tactic
import RackMap.Proofs.ClosedForm

namespace RackMap

/-- the edge without the mode and the place of its declaration -/
def Edge.bare (e : Edge) : Edge := { e with mode? := none, location := "" }

/-- the mode declared next to an edge, if there is one, is the described kind of its channel -/
def Edge.KeepsMode (inv : Inventory) (e : Edge) : Prop :=
  ∀ mode, e.mode? = some mode → ∃ channel, inv.channel? e.channel = some channel ∧ mode = channel.kind

/-- the wiring with bare edges -/
def Wiring.bare (w : Wiring) : Wiring :=
  .ofDistinct (w.edges.map Edge.bare) <| by
    have hsame : (w.edges.map Edge.bare).map Edge.portClock = w.edges.map Edge.portClock := by
      rw [List.map_map]
      rfl
    rw [hsame]
    exact w.distinct

variable {inv : Inventory} {options : OptionTable} {w w' : Wiring} {r : Resolution} {settings : Settings} {p : Parsed}
  {path : ChannelPath} {channel : Channel} {e : Edge}

/-- wirings with the same bare edges are the same but for modes and places -/
theorem Wiring.bare_eq_of_edges (h : w.edges.map Edge.bare = w'.edges.map Edge.bare) : w.bare = w'.bare :=
  Wiring.eq_of_edges_eq h

namespace Wiring

@[simp] theorem edges_bare (w : Wiring) : w.bare.edges = w.edges.map Edge.bare := edges_ofDistinct _

theorem portClocksOn_bare (w : Wiring) (path : ChannelPath) : w.bare.portClocksOn path = w.portClocksOn path := by
  rw [portClocksOn_eq, portClocksOn_eq, edges_bare, List.filter_map, List.map_map]
  rfl

theorem channels_bare (w : Wiring) : w.bare.channels = w.channels := by
  rw [channels_eq, channels_eq, edges_bare, List.map_map]
  rfl

end Wiring

/-! ## Frequencies -/

namespace Frequencies

variable {edges : List Edge} {feed : Feed} {lo : OscillatorRef}

theorem tuned_bare (inv : Inventory) (edges : List Edge) :
    tuned inv (edges.map Edge.bare) = (tuned inv edges).map Edge.bare := by
  rw [tuned, List.filter_map]
  rfl

theorem feeds_bare (inv : Inventory) (edges : List Edge) : feeds inv (edges.map Edge.bare) = feeds inv edges := by
  rw [feeds, tuned_bare, List.map_map]
  rfl

theorem fedMembers_bare (inv : Inventory) (edges : List Edge) (feed : Feed) :
    fedMembers inv (edges.map Edge.bare) feed = fedMembers inv edges feed := by
  rw [fedMembers, tuned_bare, List.filter_map, List.map_map]
  rfl

theorem resolution_bare (inv : Inventory) (options : OptionTable) (edges : List Edge) :
    resolution inv options (edges.map Edge.bare) = resolution inv options edges := by
  have hgroup : settledGroup inv options (edges.map Edge.bare) = settledGroup inv options edges := by
    funext feed
    rw [settledGroup, groupOf, fedMembers_bare]
    rfl
  rw [resolution, feeds_bare, hgroup]
  rfl

theorem requests_bare (inv : Inventory) (options : OptionTable) (edges : List Edge) (lo : OscillatorRef) :
    requests inv options (edges.map Edge.bare) lo = requests inv options edges lo := by
  rw [requests, members_eq, fedMembers_bare, ← members_eq]
  rfl

end Frequencies

/-! ## Checks -/

namespace Crosscheck

theorem fits_iff_bare :
    Fits inv e channel ↔ Fits inv e.bare channel ∧ ∀ mode, e.mode? = some mode → mode = channel.kind := by
  constructor
  · intro h
    exact ⟨⟨h.described, by simp [Edge.bare], h.oscillator⟩, h.mode⟩
  · rintro ⟨h, hmode⟩
    exact ⟨h.described, hmode, h.oscillator⟩

/-- an edge fits its channel iff it does without its mode, and its mode is the described kind -/
theorem exists_fits_iff_bare :
    (∃ channel, Fits inv e channel) ↔ (∃ channel, Fits inv e.bare channel) ∧ e.KeepsMode inv := by
  constructor
  · rintro ⟨channel, h⟩
    obtain ⟨hbare, hmode⟩ := fits_iff_bare.1 h
    exact ⟨⟨channel, hbare⟩, fun mode hdeclared => ⟨channel, h.described, hmode mode hdeclared⟩⟩
  · rintro ⟨⟨channel, hbare⟩, hkeeps⟩
    refine ⟨channel, fits_iff_bare.2 ⟨hbare, fun mode hdeclared => ?_⟩⟩
    obtain ⟨described, hdescribed, hkind⟩ := hkeeps mode hdeclared
    have hsame : some described = some channel := hdescribed.symm.trans hbare.described
    rw [hkind, Option.some.inj hsame]

theorem linked_iff_bare :
    Linked inv options w settings ↔ Linked inv options w.bare settings ∧ ∀ e ∈ w.edges, e.KeepsMode inv := by
  have hconnected : ∀ key : String, (∃ e ∈ w.bare.edges, e.portClock.text = key) ↔
      ∃ e ∈ w.edges, e.portClock.text = key := by
    intro key
    simp [Edge.bare]
  constructor
  · intro h
    refine ⟨⟨List.forall_mem_map.2 fun e he => ?_, fun herror key hkey => ?_⟩, fun e he => ?_⟩
    · exact (exists_fits_iff_bare.1 (h.edges e he)).1
    · exact (hconnected key).2 (h.options herror key hkey)
    · exact (exists_fits_iff_bare.1 (h.edges e he)).2
  · rintro ⟨h, hkeeps⟩
    refine ⟨fun e he => ?_, fun herror key hkey => ?_⟩
    · exact exists_fits_iff_bare.2 ⟨List.forall_mem_map.1 h.edges e he, hkeeps e he⟩
    · exact (hconnected key).1 (h.options herror key hkey)

theorem crowded_iff_bare : Crowded inv w.bare path channel ↔ Crowded inv w path channel := by
  constructor
  · rintro ⟨hdescribed, hkind, hmany⟩
    rw [Wiring.portClocksOn_bare] at hmany
    exact ⟨hdescribed, hkind, hmany⟩
  · rintro ⟨hdescribed, hkind, hmany⟩
    rw [← Wiring.portClocksOn_bare] at hmany
    exact ⟨hdescribed, hkind, hmany⟩

theorem warnings_bare (options : OptionTable) (w : Wiring) (settings : Settings) :
    warnings options w.bare settings = warnings options w settings := by
  have hunused : unusedKeys options w.bare = unusedKeys options w := by
    rw [unusedKeys, Wiring.edges_bare, List.map_map]
    rfl
  unfold warnings
  rw [hunused]

end Crosscheck

/-! ## Documents -/

namespace Parsed

/-- the documents with bare edges -/
def bare (p : Parsed) : Parsed := { p with wiring := p.wiring.bare }

theorem resolution_bare (p : Parsed) : p.bare.resolution = p.resolution :=
  Frequencies.resolution_bare p.inventory p.options p.wiring.edges

theorem entries_bare (p : Parsed) (path : ChannelPath) :
    Compile.entries p.options p.bare.wiring p.resolution path =
      Compile.entries p.options p.wiring p.resolution path := by
  rw [Compile.entries, bare, Wiring.portClocksOn_bare]
  rfl

/-- **Acceptance.** The modes of the edges are compared with the described kinds, and all else is checked without them. -/
theorem accepted_iff_bare : p.Accepted ↔ p.bare.Accepted ∧ ∀ e ∈ p.wiring.edges, e.KeepsMode p.inventory := by
  have hspacious : p.Spacious ↔ p.bare.Spacious := by
    simp only [Spacious, bare, Crosscheck.crowded_iff_bare]
  have hagreed : p.Agreed ↔ p.bare.Agreed := by
    simp only [Agreed, bare, Wiring.edges_bare, Frequencies.requests_bare]
  have hdistinct : p.Distinct ↔ p.bare.Distinct := by
    have hchannels : p.bare.wiring.channels = p.wiring.channels := Wiring.channels_bare p.wiring
    have hentries : ∀ path, Compile.entries p.bare.options p.bare.wiring p.bare.resolution path =
        Compile.entries p.options p.wiring p.resolution path := fun path => by
      rw [resolution_bare]
      exact entries_bare p path
    have hsettings : p.bare.settings = p.settings := rfl
    simp only [Distinct, hchannels, hentries, hsettings]
  constructor
  · intro h
    obtain ⟨hlinked, hkeeps⟩ := Crosscheck.linked_iff_bare.1 h.linked
    exact ⟨⟨hlinked, hspacious.1 h.spacious, hagreed.1 h.agreed, hdistinct.1 h.distinct⟩, hkeeps⟩
  · rintro ⟨h, hkeeps⟩
    exact ⟨Crosscheck.linked_iff_bare.2 ⟨h.linked, hkeeps⟩, hspacious.2 h.spacious, hagreed.2 h.agreed,
      hdistinct.2 h.distinct⟩

/-- **Maps.** They are made of bare edges. -/
theorem compiled_bare (p : Parsed) : p.bare.compiled = p.compiled := by
  have hchannel : Compile.channelAt p.inventory p.options p.bare.wiring p.bare.resolution =
      Compile.channelAt p.inventory p.options p.wiring p.resolution := by
    funext path
    have hfirst : p.bare.wiring.portClocksOn path = p.wiring.portClocksOn path := Wiring.portClocksOn_bare p.wiring path
    rw [resolution_bare]
    simp only [Compile.channelAt, Compile.compiledChannel, entries_bare, hfirst]
  have hchannels : p.bare.wiring.channels = p.wiring.channels := Wiring.channels_bare p.wiring
  have hwarnings : Crosscheck.warnings p.options p.bare.wiring p.settings =
      Crosscheck.warnings p.options p.wiring p.settings := Crosscheck.warnings_bare p.options p.wiring p.settings
  have hsame : p.bare.compiled = Compile.compiled p.inventory p.options p.bare.wiring p.bare.resolution
      (Crosscheck.warnings p.options p.bare.wiring p.settings) := rfl
  rw [hsame, Compile.compiled, hchannel, hchannels, resolution_bare, hwarnings]
  rfl

end Parsed

end RackMap
