/-
Settings that the channels of a module share.

Some settings of a module can be written by more than one of its channels: the gain of an input by a complex channel and
by real ones, an attenuation by every output with the same number. The channels come one after the other and write over
each other, so what is left is what the last of them has written.
- `agreed_eq_ok_iff`: port-clocks of one channel agree iff there is one value that is asked for;
- `exists_stages_of_applyChannel` and the `_frame` lemmas: the steps that a channel takes, and which settings each leaves
  alone;
- `Register` is a setting with what each channel writes into it, `Register.step` is one channel more, and
  `Register.read_eq` all of them;
- `lastOn_eq_of_agree`: where the channels of a module agree, everything that was written is still there.
-/
import Mathlib.Tactic
import RackMap.Proofs.Instrument.Qblox
import RackMap.Proofs.Table

namespace RackMap.Instrument.Qblox

variable {α β : Type} {path : ChannelPath} {setting : String} {shared : α → Shared}
  {value? : CompiledPortClock → Option α} {entries : List CompiledPortClock} {a? : Option α} {channel : CompiledChannel}
  {m m' : ModuleSettings} {index : Nat}

/-! ## Agreement on one channel -/

/-- what a channel is asked for: by each of its port-clocks a value or nothing -/
def asked (value? : CompiledPortClock → Option α) (entries : List CompiledPortClock) : List (PortClock × α) :=
  entries.filterMap fun entry => (value? entry).map fun v => (entry.portClock, v)

theorem exists_mem_asked_iff {v : α} :
    (∃ pc, (pc, v) ∈ asked value? entries) ↔ ∃ entry ∈ entries, value? entry = some v := by
  simp only [asked, List.mem_filterMap, Option.map_eq_some_iff, Prod.mk.injEq]
  constructor
  · rintro ⟨pc, entry, hentry, v', hv', -, rfl⟩
    exact ⟨entry, hentry, hv'⟩
  · rintro ⟨entry, hentry, hv⟩
    exact ⟨entry.portClock, entry, hentry, v, hv, rfl, rfl⟩

theorem agreed_eq_ok_iff [BEq α] [LawfulBEq α] :
    agreed path setting (· == ·) shared value? entries = .ok a? ↔
      ∀ v, a? = some v ↔ ∃ entry ∈ entries, value? entry = some v := by
  simp only [← exists_mem_asked_iff]
  unfold agreed
  rw [← asked]
  cases asked value? entries with
  | nil => cases a? <;> simp
  | cons p rest =>
    obtain ⟨pc, first⟩ := p
    have hsame : (((pc, first) :: rest).all fun v => v.2 == first) = true ↔ ∀ v ∈ (pc, first) :: rest, v.2 = first := by
      simp only [List.all_eq_true, beq_iff_eq]
    constructor
    · intro h v
      simp only at h
      split at h
      · rename_i hall
        cases h
        constructor
        · intro hv
          cases hv
          exact ⟨pc, List.mem_cons_self⟩
        · rintro ⟨pc', hv⟩
          have hfirst : v = first := hsame.1 hall (pc', v) hv
          rw [hfirst]
      · cases h
    · intro h
      have hfirst : a? = some first := (h first).2 ⟨pc, List.mem_cons_self⟩
      have hall : ∀ v ∈ (pc, first) :: rest, v.2 = first := by
        intro v hv
        have hsome : a? = some v.2 := (h v.2).2 ⟨v.1, hv⟩
        exact Option.some.inj (hsome.symm.trans hfirst)
      simp only
      rw [if_pos (hsame.2 hall), hfirst]

/-- what is agreed on is the first value that is asked for -/
theorem eq_findSome?_of_agreed [BEq α] [LawfulBEq α]
    (h : agreed path setting (· == ·) shared value? entries = .ok a?) : a? = entries.findSome? value? := by
  rw [agreed_eq_ok_iff] at h
  cases hfirst : entries.findSome? value? with
  | none =>
    refine Option.eq_none_iff_forall_ne_some.2 fun v hv => ?_
    obtain ⟨entry, hentry, hvalue⟩ := (h v).1 hv
    rw [List.findSome?_eq_none_iff.1 hfirst entry hentry] at hvalue
    cases hvalue
  | some v => exact (h v).2 (List.exists_of_findSome?_eq_some hfirst)

/-! ## The steps of a channel -/

theorem exists_stages_of_applyChannel (h : applyChannel path channel m = .ok m') :
    ∃ index m₁ m₂ m₃ added, ioIndex? path.name = some index ∧
      applyAttenuation path index channel (applyOscillator channel m) = .ok m₁ ∧
      applyGain path index channel m₁ = .ok m₂ ∧ applyOffsets path index channel m₂ = .ok m₃ ∧
      m' = { m₃ with sequencers := m₃.sequencers ++ added } := by
  obtain ⟨index, m₁, m₂, m₃, hindex, h₁, h₂, h₃, h⟩ := applyChannel_eq_ok_iff.1 h
  obtain ⟨added, hadded, -⟩ := foldlM_addSequencer_eq_ok h
  exact ⟨index, m₁, m₂, m₃, added, hindex, h₁, h₂, h₃, hadded⟩

theorem applyAttenuation_frame (h : applyAttenuation path index channel m = .ok m') :
    ∃ out0? out1? in0?, m' = { m with out0Att? := out0?, out1Att? := out1?, in0Att? := in0? } := by
  unfold applyAttenuation at h
  obtain ⟨attenuation?, -, h⟩ := bind_eq_ok_iff.1 h
  split at h
  · cases h
    exact ⟨_, _, _, rfl⟩
  · simp only at h
    split at h <;> cases h <;> exact ⟨_, _, _, rfl⟩

theorem applyGain_frame (h : applyGain path index channel m = .ok m') :
    ∃ in0? in1?, m' = { m with in0Gain? := in0?, in1Gain? := in1? } := by
  unfold applyGain at h
  split at h
  · cases h
    exact ⟨_, _, rfl⟩
  · obtain ⟨gain?, -, h⟩ := bind_eq_ok_iff.1 h
    split at h
    · cases h
      exact ⟨_, _, rfl⟩
    · cases h
      exact ⟨_, _, rfl⟩
    · split at h <;> cases h <;> exact ⟨_, _, rfl⟩

theorem applyOffsets_frame (h : applyOffsets path index channel m = .ok m') :
    ∃ x00? x01? x10? x11?,
      m' = { m with offset00? := x00?, offset01? := x01?, offset10? := x10?, offset11? := x11? } := by
  unfold applyOffsets at h
  split at h
  · obtain ⟨offsetI?, -, h⟩ := bind_eq_ok_iff.1 h
    obtain ⟨offsetQ?, -, h⟩ := bind_eq_ok_iff.1 h
    split at h <;> cases h <;> exact ⟨_, _, _, _, rfl⟩
  · cases h
    exact ⟨_, _, _, _, rfl⟩

/-! ## The last of the channels -/

/-- what the last channel of a unit has written -/
def lastOn (writes : ChannelPath × CompiledChannel → Option β) (channels : List (ChannelPath × CompiledChannel))
    (unit : String) : Option β :=
  ((channels.filter fun q => q.1.parent? = some unit).filterMap writes).getLast?

variable {read : ModuleSettings → Option β} {writes : ChannelPath × CompiledChannel → Option β}
  {channels done : List (ChannelPath × CompiledChannel)} {modules modules' : Table String ModuleSettings}
  {unit : String} {ms : ModuleSettings} {q : ChannelPath × CompiledChannel} {x : β}

theorem lastOn_concat (hparent : q.1.parent? = some unit) :
    lastOn writes (done ++ [q]) unit = (writes q).or (lastOn writes done unit) := by
  have hlast : ([q].filterMap writes).getLast? = writes q := by
    cases hwrites : writes q <;> simp [hwrites]
  simp only [lastOn, List.filter_append, List.filter_singleton, hparent, decide_true, List.filterMap_append,
    List.getLast?_append, cond_true, hlast]

theorem lastOn_concat_of_ne (hparent : q.1.parent? ≠ some unit) :
    lastOn writes (done ++ [q]) unit = lastOn writes done unit := by
  simp [lastOn, hparent]

theorem mem_of_lastOn (h : lastOn writes channels unit = some x) :
    ∃ q ∈ channels, q.1.parent? = some unit ∧ writes q = some x := by
  obtain ⟨q, hq, hwrites⟩ := List.mem_filterMap.1 (List.mem_of_getLast? h)
  obtain ⟨hin, hparent⟩ := List.mem_filter.1 hq
  exact ⟨q, hin, of_decide_eq_true hparent, hwrites⟩

theorem lastOn_ne_none (hq : q ∈ channels) (hparent : q.1.parent? = some unit) (hwrites : writes q = some x) :
    lastOn writes channels unit ≠ none := by
  have hin : x ∈ (channels.filter fun q => q.1.parent? = some unit).filterMap writes :=
    List.mem_filterMap.2 ⟨q, List.mem_filter.2 ⟨hq, decide_eq_true hparent⟩, hwrites⟩
  rw [lastOn, Ne, List.getLast?_eq_none_iff]
  exact List.ne_nil_of_mem hin

/-- nothing is overwritten where the channels of a unit agree -/
theorem lastOn_eq_of_agree (h : ∀ q ∈ channels, q.1.parent? = some unit → ∀ q' ∈ channels, q'.1.parent? = some unit →
      ∀ x x', writes q = some x → writes q' = some x' → x = x')
    (hq : q ∈ channels) (hparent : q.1.parent? = some unit) (hwrites : writes q = some x) :
    lastOn writes channels unit = some x := by
  obtain ⟨last, hlast⟩ := Option.ne_none_iff_exists'.1 (lastOn_ne_none hq hparent hwrites)
  obtain ⟨q', hq', hparent', hwrites'⟩ := mem_of_lastOn hlast
  rw [hlast, h q hq hparent q' hq' hparent' x last hwrites hwrites']

/-! ## Registers -/

/-- a setting of a module that the channels write into: it is open at first, and a channel that writes nothing leaves it
as it is -/
structure Register (channels : List (ChannelPath × CompiledChannel)) (read : ModuleSettings → Option β)
    (writes : ChannelPath × CompiledChannel → Option β) : Prop where
  start : ∀ unitType, read { unitType := unitType } = none
  write : ∀ q ∈ channels, ∀ ms ms', applyChannel q.1 q.2 ms = .ok ms' → read ms' = (writes q).or (read ms)

namespace Register

/-- what is read of a module that may not be there yet -/
theorem read_getD (h : Register channels read writes) (module? : Option ModuleSettings) (unitType : String) :
    read (module?.getD { unitType := unitType }) = module?.bind read := by
  cases module? with
  | none => exact h.start unitType
  | some ms => rfl

/-- **One channel more.** -/
theorem step (h : Register channels read writes) (hq : q ∈ channels)
    (hdone : ∀ unit, (modules.lookup? unit).bind read = lastOn writes done unit)
    (hadd : addChannel modules q = .ok modules') (unit : String) :
    (modules'.lookup? unit).bind read = lastOn writes (done ++ [q]) unit := by
  obtain ⟨module, ms', hparent, happly, rfl⟩ := addChannel_eq_ok_iff.1 hadd
  rw [Table.lookup?_putSorted]
  split
  · rename_i hunit
    subst hunit
    rw [lastOn_concat hparent, Option.bind_some, h.write q hq _ ms' happly, h.read_getD, hdone]
  · rename_i hother
    have hne : q.1.parent? ≠ some unit := by
      intro hsame
      exact hother (Option.some.inj (hsame.symm.trans hparent))
    rw [lastOn_concat_of_ne hne, hdone]

/-- **All channels.** A module has what the last of its channels has written. -/
theorem read_eq (h : Register channels read writes) (hmodules : channels.foldlM addChannel [] = .ok modules)
    (hms : modules.lookup? unit = some ms) : read ms = lastOn writes channels unit := by
  have hall : ∀ unit, (modules.lookup? unit).bind read = lastOn writes channels unit :=
    foldlM_induction (fun done (modules : Table String ModuleSettings) =>
        ∀ unit, (modules.lookup? unit).bind read = lastOn writes done unit)
      (fun _ => rfl) (fun _ _ _ _ hq hdone hadd => h.step hq hdone hadd) hmodules
  rw [← hall unit, hms, Option.bind_some]

end Register

/-- channels that are added were applied to something -/
theorem exists_applied (hmodules : channels.foldlM addChannel [] = .ok modules) (hq : q ∈ channels) :
    ∃ before after, applyChannel q.1 q.2 before = .ok after := by
  obtain ⟨before, after, hadd⟩ := exists_of_foldlM_eq_ok hmodules hq
  obtain ⟨unit, ms', -, happly, -⟩ := addChannel_eq_ok_iff.1 hadd
  exact ⟨_, ms', happly⟩

/-- channels that are added have their module -/
theorem exists_module (hmodules : channels.foldlM addChannel [] = .ok modules) (hq : q ∈ channels)
    (hparent : q.1.parent? = some unit) : ∃ ms, modules.lookup? unit = some ms := by
  have hall : ∀ q ∈ channels, ∀ unit, q.1.parent? = some unit → modules.lookup? unit ≠ none := by
    refine foldlM_induction (fun done (modules : Table String ModuleSettings) => ∀ q ∈ done, ∀ unit,
      q.1.parent? = some unit → modules.lookup? unit ≠ none) (List.forall_mem_nil _) ?_ hmodules
    intro done last modules modules' _ hdone hadd q hq unit hparent
    obtain ⟨module, ms', hlast, -, rfl⟩ := addChannel_eq_ok_iff.1 hadd
    rw [Table.lookup?_putSorted]
    split
    · exact Option.some_ne_none ms'
    · rename_i hother
      rcases List.mem_append.1 hq with hq | hq
      · exact hdone q hq unit hparent
      · obtain rfl := List.mem_singleton.1 hq
        exact absurd (Option.some.inj (hparent.symm.trans hlast)) hother
  exact Option.ne_none_iff_exists'.1 (hall q hq unit hparent)

end RackMap.Instrument.Qblox
