/-
When compiling a map fails over intermediate frequencies, and what it then reports.

The scan of a channel looks only behind a port-clock for others with its intermediate frequency, and stops at the first
port-clock that has some. `Clashes` does not care where the others stand. Since equality is symmetric, no port-clock in
front of the first hit clashes with any other: the hit is the earliest that does, and nothing in front of it has its
frequency.
- `clash?_eq_none_iff` and `earliestClash_of_clash?`: the scan finds a clash iff there is one, and then the earliest;
- `Sound.interm?_eq`: where a channel has several port-clocks, they are resolved to what they ask for;
- `build_clash`: so compiling fails iff this is checked and port-clocks on one channel ask for the same frequency; it
  reports the first channel with such port-clocks, and all of them that ask for the first frequency that is shared.
-/
import Mathlib.Tactic
import RackMap.Proofs.ClosedForm
import RackMap.Proofs.Failures
import RackMap.Proofs.OpenFrequencies

namespace RackMap

open RackMap.Decimal (Double)

/-! ## Clashes -/

/-- two frequencies are given and are the same number -/
def Coincide (a b : Option Double) : Prop := ∃ f f', a = some f ∧ b = some f' ∧ f.same f' = true

/-- among these port-clocks, another one has the frequency of this one -/
def Clashes (interm? : PortClock → Option Double) (pcs : List PortClock) (pc : PortClock) : Prop :=
  pc ∈ pcs ∧ ∃ other ∈ pcs, other ≠ pc ∧ Coincide (interm? pc) (interm? other)

/-- a frequency is that of the first port-clock that clashes with another one, and these port-clocks are all that have
it -/
structure EarliestClash (interm? : PortClock → Option Double) (pcs : List PortClock) (frequency : Double)
    (reported : List PortClock) : Prop where
  earliest : ∃ before pc after, pcs = before ++ pc :: after ∧ (∀ other ∈ before, ¬Clashes interm? pcs other) ∧
    Clashes interm? pcs pc ∧ interm? pc = some frequency
  all : reported = pcs.filter fun pc => (interm? pc).any (·.same frequency)

section Clashes

variable {interm? interm?' : PortClock → Option Double} {pcs : List PortClock} {pc other : PortClock} {f : Double}
  {a b : Option Double}

theorem Coincide.symm (h : Coincide a b) : Coincide b a := by
  obtain ⟨f, f', ha, hb, hsame⟩ := h
  exact ⟨f', f, hb, ha, (Double.same_comm f' f).trans hsame⟩

/-- a frequency that coincides with another one is a number, so it coincides with itself -/
theorem Coincide.self (h : Coincide a b) : Coincide a a := by
  obtain ⟨f, f', ha, -, hsame⟩ := h
  exact ⟨f, f, ha, ha, Double.same_trans hsame ((Double.same_comm f' f).trans hsame)⟩

theorem coincide_some_iff : Coincide (some f) b ↔ b.any (·.same f) = true := by
  cases b with
  | none => simp [Coincide]
  | some f' => simp [Coincide, Double.same_comm f' f]

/-- one that coincides with none of the others changes no clash -/
theorem clashes_cons_iff (hpc : ∀ other ∈ pcs, ¬Coincide (interm? pc) (interm? other)) :
    Clashes interm? (pc :: pcs) other ↔ Clashes interm? pcs other := by
  constructor
  · rintro ⟨hother, third, hthird, hne, hsame⟩
    rw [List.mem_cons] at hother hthird
    rcases hother with rfl | hother
    · exact absurd hsame (hpc third (hthird.resolve_left hne))
    · rcases hthird with rfl | hthird
      · exact absurd hsame.symm (hpc other hother)
      · exact ⟨hother, third, hthird, hne, hsame⟩
  · rintro ⟨hother, third, hthird, hne, hsame⟩
    exact ⟨List.mem_cons_of_mem pc hother, third, List.mem_cons_of_mem pc hthird, hne, hsame⟩

/-- one that coincides with a later one clashes with it -/
theorem clashes_head (hnew : pc ∉ pcs) (hother : other ∈ pcs) (hsame : Coincide (interm? pc) (interm? other)) :
    Clashes interm? (pc :: pcs) pc :=
  ⟨List.mem_cons_self, other, List.mem_cons_of_mem pc hother, fun heq => hnew (heq ▸ hother), hsame⟩

/-- only the frequencies of port-clocks that have company matter -/
theorem clashes_congr (h : ∀ a ∈ pcs, ∀ b ∈ pcs, a ≠ b → interm? a = interm?' a) :
    Clashes interm? pcs pc ↔ Clashes interm?' pcs pc := by
  refine and_congr_right fun hpc => exists_congr fun other => and_congr_right fun hother =>
    and_congr_right fun hne => ?_
  rw [h pc hpc other hother hne.symm, h other hother pc hpc hne]

theorem EarliestClash.congr {reported : List PortClock} (hclash : EarliestClash interm? pcs f reported)
    (h : ∀ a ∈ pcs, ∀ b ∈ pcs, a ≠ b → interm? a = interm?' a) : EarliestClash interm?' pcs f reported := by
  obtain ⟨⟨before, pc, after, hsplit, hbefore, hclashes, hf⟩, hall⟩ := hclash
  have hclashes' := (clashes_congr h).1 hclashes
  obtain ⟨hpc, other, hother, hne, -⟩ := hclashes
  refine ⟨⟨before, pc, after, hsplit, fun x hx => ?_, hclashes', ?_⟩, ?_⟩
  · exact fun hclashes => hbefore x hx ((clashes_congr h).2 hclashes)
  · rw [← h pc hpc other hother hne.symm, hf]
  · rw [hall]
    refine List.filter_congr fun x hx => ?_
    by_cases hxpc : x = pc
    · rw [h x hx other hother (hxpc ▸ hne.symm)]
    · rw [h x hx pc hpc hxpc]

/-- a clash is between several port-clocks -/
theorem EarliestClash.several {reported : List PortClock} (hclash : EarliestClash interm? pcs f reported) :
    ∃ pc ∈ reported, ∃ other ∈ reported, pc ≠ other := by
  obtain ⟨⟨-, pc, -, -, -, ⟨hpc, other, hother, hne, hsame⟩, hf⟩, hall⟩ := hclash
  have hasked : ∀ x, Coincide (interm? pc) (interm? x) → (interm? x).any (·.same f) = true := by
    intro x hx
    rwa [hf, coincide_some_iff] at hx
  rw [hall]
  exact ⟨pc, List.mem_filter.2 ⟨hpc, hasked pc hsame.self⟩, other, List.mem_filter.2 ⟨hother, hasked other hsame⟩,
    hne.symm⟩

end Clashes

/-! ## The scan of a channel -/

/-- the intermediate frequency that a port-clock asks for -/
def OptionTable.interm? (t : OptionTable) (pc : PortClock) : Option Double := (t.modulation pc).interm?

/-- the intermediate frequency that a port-clock is resolved to -/
def Resolution.interm? (r : Resolution) (pc : PortClock) : Option Double := (r.split pc).interm?

namespace Compile

variable {inv : Inventory} {options : OptionTable} {wiring : Wiring} {settings : Settings} {r : Resolution}
  {pcs reported : List PortClock} {pc other : PortClock} {f : Double}

/-- the scan goes on behind a port-clock unless others there have its frequency -/
theorem clash?_cons (options : OptionTable) (r : Resolution) (pc : PortClock) (pcs : List PortClock) :
    clash? ((pc :: pcs).map (entry options r)) =
      match r.interm? pc with
      | none => clash? (pcs.map (entry options r))
      | some f =>
        if (pcs.filter fun other => (r.interm? other).any (·.same f)).isEmpty then clash? (pcs.map (entry options r))
        else some (f, pc :: pcs.filter fun other => (r.interm? other).any (·.same f)) := by
  rw [List.map_cons, clash?]
  simp only [entry, List.filter_map, List.isEmpty_map, List.map_cons, List.map_map, Function.comp_def, List.map_id']
  rfl

theorem clash?_cons_of_silent (h : ∀ other ∈ pcs, ¬Coincide (r.interm? pc) (r.interm? other)) :
    clash? ((pc :: pcs).map (entry options r)) = clash? (pcs.map (entry options r)) := by
  rw [clash?_cons]
  cases hf : r.interm? pc with
  | none => rfl
  | some f =>
    have hnone : pcs.filter (fun other => (r.interm? other).any (·.same f)) = [] := by
      refine List.filter_eq_nil_iff.2 fun other hother hsame => h other hother ?_
      rw [hf, coincide_some_iff]
      exact hsame
    simp only [hnone, List.isEmpty_nil, if_true]

theorem clash?_cons_of_heard (options : OptionTable) (hother : other ∈ pcs)
    (hsame : Coincide (r.interm? pc) (r.interm? other)) :
    ∃ f, r.interm? pc = some f ∧ clash? ((pc :: pcs).map (entry options r)) =
      some (f, pc :: pcs.filter fun other => (r.interm? other).any (·.same f)) := by
  cases hf : r.interm? pc with
  | none =>
    obtain ⟨f, -, hf', -, -⟩ := hsame
    rw [hf] at hf'
    cases hf'
  | some f =>
    rw [hf, coincide_some_iff] at hsame
    have hfound : (pcs.filter fun other => (r.interm? other).any (·.same f)).isEmpty = false :=
      List.isEmpty_eq_false_iff.2 (List.ne_nil_of_mem (List.mem_filter.2 ⟨hother, hsame⟩))
    refine ⟨f, rfl, ?_⟩
    rw [clash?_cons, hf]
    simp only [hfound, Bool.false_eq_true, if_false]

/-- looking only forward misses no clash -/
theorem clash?_eq_none_iff (hnodup : pcs.Nodup) :
    clash? (pcs.map (entry options r)) = none ↔ ∀ pc, ¬Clashes r.interm? pcs pc := by
  induction pcs with
  | nil => exact iff_of_true rfl fun pc h => List.not_mem_nil h.1
  | cons pc pcs ih =>
    obtain ⟨hpc, hrest⟩ := List.nodup_cons.1 hnodup
    by_cases hsilent : ∀ other ∈ pcs, ¬Coincide (r.interm? pc) (r.interm? other)
    · rw [clash?_cons_of_silent hsilent, ih hrest]
      exact forall_congr' fun x => not_congr (clashes_cons_iff hsilent).symm
    · push Not at hsilent
      obtain ⟨other, hother, hsame⟩ := hsilent
      obtain ⟨f, -, hclash⟩ := clash?_cons_of_heard options hother hsame
      rw [hclash]
      exact iff_of_false (by simp) fun h => h pc (clashes_head hpc hother hsame)

/-- **The scan of a channel.** It stops at the earliest port-clock that clashes with another one, and what it then finds
behind it is all that has this frequency. -/
theorem earliestClash_of_clash? (hnodup : pcs.Nodup) (h : clash? (pcs.map (entry options r)) = some (f, reported)) :
    EarliestClash r.interm? pcs f reported := by
  induction pcs with
  | nil => cases h
  | cons pc pcs ih =>
    obtain ⟨hpc, hrest⟩ := List.nodup_cons.1 hnodup
    by_cases hsilent : ∀ other ∈ pcs, ¬Coincide (r.interm? pc) (r.interm? other)
    · rw [clash?_cons_of_silent hsilent] at h
      obtain ⟨⟨before, first, after, hsplit, hbefore, hclashes, hf⟩, hall⟩ := ih hrest h
      refine ⟨⟨pc :: before, first, after, congrArg (pc :: ·) hsplit, ?_, ?_, hf⟩, ?_⟩
      · refine List.forall_mem_cons.2 ⟨fun hpcs => hpc ((clashes_cons_iff hsilent).1 hpcs).1, fun x hx => ?_⟩
        rw [clashes_cons_iff hsilent]
        exact hbefore x hx
      · exact (clashes_cons_iff hsilent).2 hclashes
      · -- the first port-clock does not have the frequency that is found behind it
        have hskip : (r.interm? pc).any (·.same f) ≠ true := by
          intro hsame
          rw [← coincide_some_iff, ← hf] at hsame
          exact hsilent first hclashes.1 hsame.symm
        rw [List.filter_cons, if_neg hskip, hall]
    · push Not at hsilent
      obtain ⟨other, hother, hsame⟩ := hsilent
      obtain ⟨f', hf', hclash⟩ := clash?_cons_of_heard options hother hsame
      rw [hclash] at h
      cases h
      have hkept : (r.interm? pc).any (·.same f) = true := by
        rw [← coincide_some_iff, ← hf']
        exact hsame.self
      refine ⟨⟨[], pc, pcs, rfl, List.forall_mem_nil _, clashes_head hpc hother hsame, hf'⟩, ?_⟩
      rw [List.filter_cons, if_pos hkept]

/-- a channel that is described and not overloaded fails over a clash only, and only where clashes are looked for -/
theorem channel_eq_error_iff {path : ChannelPath} {failure : Failure}
    (hdescribed : ∃ described, inv.channel? path = some described)
    (hspacious : Crosscheck.overload? inv wiring path = none) :
    channel inv options wiring settings r path = .error failure ↔
      settings.distinctIntermediate = true ∧ ∃ frequency pcs,
        clash? (entries options wiring r path) = some (frequency, pcs) ∧
          failure = .conflict (.intermediate path frequency pcs) := by
  obtain ⟨described, hdescribed⟩ := hdescribed
  simp only [channel, hdescribed, hspacious]
  cases settings.distinctIntermediate with
  | false => simp
  | true =>
    cases clash? (entries options wiring r path) with
    | none => simp
    | some found => simp [Prod.ext_iff, eq_comm]

end Compile

/-! ## Checked documents -/

/-- the port-clocks of the edges on a channel, in document order -/
def portClocksAt (edges : List Edge) (path : ChannelPath) : List PortClock :=
  (edges.filter (·.channel = path)).map Edge.portClock

/-- two port-clocks on the channel ask for the same intermediate frequency -/
def Contested (options : OptionTable) (edges : List Edge) (path : ChannelPath) : Prop :=
  ∃ pc, Clashes options.interm? (portClocksAt edges path) pc

/-- the report of a clash: the channel that is connected first of those where port-clocks clash, with all of its
port-clocks that ask for the frequency of the earliest that does -/
structure ReportsClash (options : OptionTable) (edges : List Edge) (path : ChannelPath) (frequency : Double)
    (reported : List PortClock) : Prop where
  channel : ∃ before after, Wiring.firsts (edges.map Edge.channel) = before ++ path :: after ∧
    ∀ other ∈ before, ¬Contested options edges other
  clash : EarliestClash options.interm? (portClocksAt edges path) frequency reported

theorem portClocksAt_eq (w : Wiring) (path : ChannelPath) : portClocksAt w.edges path = w.portClocksOn path :=
  (w.portClocksOn_eq path).symm

namespace Validated

variable {v : Validated} {frequencies : Resolution} {path : ChannelPath} {frequency : Double}
  {reported : List PortClock}

/-- a channel with several port-clocks is complex, so it carries frequencies -/
theorem Sound.exists_tuned (hv : v.Sound) {pc other : PortClock} (hpc : pc ∈ v.wiring.portClocksOn path)
    (hother : other ∈ v.wiring.portClocksOn path) (hne : pc ≠ other) :
    ∃ e ∈ v.wiring.edges, e.isTuned v.inventory = true ∧ e.channel = path ∧ e.portClock = pc := by
  have hmany : 1 < (v.wiring.portClocksOn path).length := by
    have htwo : [pc, other].Nodup := by simpa using hne
    exact (htwo.subperm (List.cons_subset.2 ⟨hpc, List.cons_subset.2 ⟨hother, List.nil_subset _⟩⟩)).length_le
  obtain ⟨e, he, rfl, rfl⟩ := Compile.mem_portClocksOn.1 hpc
  obtain ⟨channel, hfits⟩ := hv.fits e he
  refine ⟨e, he, Frequencies.isTuned_iff.2 ⟨channel, hfits.described, fun hkind => ?_⟩, rfl, rfl⟩
  have hover := hv.spacious e.channel (Compile.mem_channels.2 ⟨e, he, rfl⟩)
  rw [Crosscheck.overload?_eq_some_iff.2 ⟨channel, ⟨hfits.described, Or.inr hkind, hmany⟩, rfl⟩] at hover
  cases hover

/-- where a channel has several port-clocks, they are resolved to the intermediate frequencies that they ask for -/
theorem Sound.interm?_eq (hv : v.Sound) (hr : Frequencies.resolve v.inventory v.options v.wiring = .ok frequencies)
    {pc other : PortClock} (hpc : pc ∈ v.wiring.portClocksOn path) (hother : other ∈ v.wiring.portClocksOn path)
    (hne : pc ≠ other) : frequencies.interm? pc = v.options.interm? pc := by
  obtain ⟨e, he, ht, -, rfl⟩ := hv.exists_tuned hpc hother hne
  obtain rfl := Frequencies.eq_resolution_of_resolve hr
  rw [Resolution.interm?, Frequencies.split_resolution v.wiring.distinct he ht]
  rfl

/-- the scan of a channel finds nothing iff its port-clocks ask for different frequencies -/
theorem Sound.clash?_eq_none_iff (hv : v.Sound)
    (hr : Frequencies.resolve v.inventory v.options v.wiring = .ok frequencies) :
    Compile.clash? (Compile.entries v.options v.wiring frequencies path) = none ↔
      ¬Contested v.options v.wiring.edges path := by
  have hasked : ∀ pc, Clashes frequencies.interm? (v.wiring.portClocksOn path) pc ↔
      Clashes v.options.interm? (v.wiring.portClocksOn path) pc :=
    fun pc => clashes_congr fun a ha b hb hne => hv.interm?_eq hr ha hb hne
  rw [Contested, portClocksAt_eq, not_exists]
  exact (Compile.clash?_eq_none_iff (Compile.nodup_portClocksOn v.wiring path)).trans
    (forall_congr' fun pc => not_congr (hasked pc))

/-- what the scan of a channel finds is the earliest clash of what its port-clocks ask for -/
theorem Sound.earliestClash (hv : v.Sound)
    (hr : Frequencies.resolve v.inventory v.options v.wiring = .ok frequencies)
    (h : Compile.clash? (Compile.entries v.options v.wiring frequencies path) = some (frequency, reported)) :
    EarliestClash v.options.interm? (portClocksAt v.wiring.edges path) frequency reported := by
  rw [portClocksAt_eq]
  exact (Compile.earliestClash_of_clash? (Compile.nodup_portClocksOn v.wiring path) h).congr
    fun _ ha _ hb hne => hv.interm?_eq hr ha hb hne

/-- a clash that compiling fails over is looked for, and it is the first one in document order -/
theorem Sound.reportsClash (hv : v.Sound)
    (hr : Frequencies.resolve v.inventory v.options v.wiring = .ok frequencies)
    (h : Resolved.build ⟨v, frequencies⟩ = .error (.conflict (.intermediate path frequency reported))) :
    v.settings.distinctIntermediate = true ∧ ReportsClash v.options v.wiring.edges path frequency reported := by
  obtain ⟨before, failing, after, hsplit, hbefore, hfailing⟩ := Compile.map_eq_error_iff.1 h
  have hconnected : failing ∈ v.wiring.channels := by
    rw [hsplit]
    exact List.mem_append_right before List.mem_cons_self
  obtain ⟨e, he, rfl⟩ := Compile.mem_channels.1 hconnected
  have hdescribed := (hv.fits e he).imp fun _ hfits => hfits.described
  obtain ⟨hdistinct, _, _, hclash, heq⟩ :=
    (Compile.channel_eq_error_iff hdescribed (hv.spacious e.channel hconnected)).1 hfailing
  cases heq
  have hfirsts := v.wiring.channels_eq.symm.trans hsplit
  refine ⟨hdistinct, ⟨before, after, hfirsts, fun other hother => ?_⟩, hv.earliestClash hr hclash⟩
  obtain ⟨q, hq⟩ := hbefore other hother
  exact (hv.clash?_eq_none_iff hr).1 ((Compile.channel_eq_ok_iff.1 hq).1.distinct hdistinct)

/-- where clashes are looked for, compiling fails over one if there is any -/
theorem Sound.exists_clash (hv : v.Sound)
    (hr : Frequencies.resolve v.inventory v.options v.wiring = .ok frequencies)
    (hdistinct : v.settings.distinctIntermediate = true) (h : Contested v.options v.wiring.edges path) :
    ∃ path frequency reported,
      Resolved.build ⟨v, frequencies⟩ = .error (.conflict (.intermediate path frequency reported)) := by
  cases hbuild : Resolved.build ⟨v, frequencies⟩ with
  | error failure =>
    obtain ⟨path, frequency, reported, rfl⟩ := hv.build_eq_error hbuild
    exact ⟨path, frequency, reported, rfl⟩
  | ok m =>
    have hconnected : path ∈ v.wiring.channels := by
      obtain ⟨pc, hpc, -⟩ := h
      rw [portClocksAt_eq] at hpc
      obtain ⟨e, he, hpath, -⟩ := Compile.mem_portClocksOn.1 hpc
      exact Compile.mem_channels.2 ⟨e, he, hpath⟩
    have hclear := (Compile.map_eq_ok_iff_clear.1 hbuild).1 path hconnected
    exact absurd h ((hv.clash?_eq_none_iff hr).1 (hclear.distinct hdistinct))

end Validated

/-- **Distinct intermediate frequencies.** Once the documents are checked and their frequencies resolved, compiling
fails over intermediate frequencies iff distinct ones are required and two port-clocks on one channel ask for the same.
The first such channel is reported, with the earliest frequency that is shared there and all port-clocks that ask for
it. -/
theorem build_clash {config : Config} {settings : Settings} {p : Parsed} {v : Validated} {r : Resolved}
    (hp : Parsed.ofConfig config settings = .ok p) (hv : p.validate = .ok v) (hr : v.resolve = .ok r) :
    ((∃ path frequency reported, r.build = .error (.conflict (.intermediate path frequency reported))) ↔
      settings.distinctIntermediate = true ∧ ∃ path, Contested p.options config.connectivity.edges path) ∧
    ∀ path frequency reported, r.build = .error (.conflict (.intermediate path frequency reported)) →
      ReportsClash p.options config.connectivity.edges path frequency reported := by
  have hsound := Validated.sound_of_validate hp hv
  obtain ⟨backend, -, -, -, hwiring, hsettings⟩ := Parsed.ofConfig_eq_ok_iff.1 hp
  obtain ⟨warnings, -, rfl⟩ := map_eq_ok_iff.1 hv
  obtain ⟨frequencies, hresolve, rfl⟩ := map_eq_ok_iff.1 hr
  rw [← Wiring.build_edges hwiring, ← hsettings]
  refine ⟨⟨?_, ?_⟩, fun path frequency reported h => (hsound.reportsClash hresolve h).2⟩
  · rintro ⟨path, frequency, reported, h⟩
    obtain ⟨hdistinct, hreports⟩ := hsound.reportsClash hresolve h
    obtain ⟨before, pc, after, -, -, hclashes, -⟩ := hreports.clash.earliest
    exact ⟨hdistinct, path, pc, hclashes⟩
  · rintro ⟨hdistinct, path, hcontested⟩
    exact hsound.exists_clash hresolve hdistinct hcontested

/-! ### An example -/

/-- the conflict that something fails over -/
def conflict? {α : Type} : Except Failure α → Option Conflict
  | .error (.conflict c) => some c
  | _ => none

theorem conflict?_eq_some_iff {α : Type} {x : Except Failure α} {c : Conflict} :
    conflict? x = some c ↔ x = .error (.conflict c) := by
  unfold conflict?
  split <;> simp_all

/-- three port-clocks on one output, which may be fed by an oscillator; `asked` is what some of them ask for -/
def multiplexedConfig (lo? : Option String) (asked : Entries Modulation) : Config where
  backend := "qblox"
  description :=
    [("cluster0", { (default : InstrumentDescription) with type := "Cluster", modules? := some [("1", ⟨"QCM", []⟩)] }),
      ("lo0", { (default : InstrumentDescription) with type := "LocalOscillator" })]
  options? := some { modulation? := some asked }
  connectivity := .paths [("cluster0.module1.complex_output_0", .obj (
    lo?.toList.map (fun name => ("lo_name", .str name)) ++
    [("portclock_configs", .arr [.obj [("port", .str "q0:mw"), ("clock", .str "q0.01")],
      .obj [("port", .str "q1:mw"), ("clock", .str "q1.01")],
      .obj [("port", .str "q2:mw"), ("clock", .str "q2.01")]])]))]

/-- the second and the third of them ask for the same frequency, the first for another one -/
def repeatedRequests : Entries Modulation :=
  [("q0:mw-q0.01", ⟨some (.ofInt 70000000), none⟩), ("q1:mw-q1.01", ⟨some (.ofInt 50000000), none⟩),
    ("q2:mw-q2.01", ⟨some (.ofInt 50000000), none⟩)]

theorem multiplexedConfig_clash :
    ∃ p v r, Parsed.ofConfig (multiplexedConfig (some "lo0") repeatedRequests) (Settings.sanitize {}).2 = .ok p ∧
      p.validate = .ok v ∧ v.resolve = .ok r ∧
      r.build = .error (.conflict (.intermediate ⟨"cluster0.module1.complex_output_0"⟩ (.ofInt 50000000)
        [⟨"q1:mw", "q1.01"⟩, ⟨"q2:mw", "q2.01"⟩])) ∧
      ReportsClash p.options (multiplexedConfig (some "lo0") repeatedRequests).connectivity.edges
        ⟨"cluster0.module1.complex_output_0"⟩ (.ofInt 50000000) [⟨"q1:mw", "q1.01"⟩, ⟨"q2:mw", "q2.01"⟩] := by
  obtain ⟨p, hp, hchecked⟩ := exists_eq_ok
    (x := Parsed.ofConfig (multiplexedConfig (some "lo0") repeatedRequests) (Settings.sanitize {}).2)
    (c := fun p => p.validate.toOption.any fun v => v.resolve.toOption.any fun r =>
      conflict? r.build = some (.intermediate ⟨"cluster0.module1.complex_output_0"⟩ (.ofInt 50000000)
        [⟨"q1:mw", "q1.01"⟩, ⟨"q2:mw", "q2.01"⟩]))
    (by decide +kernel)
  obtain ⟨v, hv, hchecked⟩ := exists_eq_ok hchecked
  obtain ⟨r, hr, hfound⟩ := exists_eq_ok hchecked
  have hbuild := conflict?_eq_some_iff.1 (of_decide_eq_true hfound)
  exact ⟨p, v, r, hp, hv, hr, hbuild, (build_clash hp hv hr).2 _ _ _ hbuild⟩

end RackMap
