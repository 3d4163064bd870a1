/-
Attenuators of RF modules.

Only the complex channels of an RF module have an attenuator. Which one a channel sets is told by its number, its
direction and the type of its unit alone, so the markers of an RF module, which are outputs numbered 0 and 1 as well, set
those of its complex outputs.
- `register_att?`: an attenuator is set to what the last of the channels has written;
- `Attenuates` says that attenuators are set by their own channels and by no others;
- `compile_attenuators`: so it is iff no marker of an RF module is asked for an attenuation; elsewhere a channel without
  an attenuator is refused;
- `markerConfig_overwrites` is a config with such a marker.
-/
import Mathlib.Tactic
import RackMap.Proofs.Instrument.Provided
import RackMap.Proofs.Instrument.Registers

namespace RackMap.Instrument

/-- the attenuators of an RF module -/
inductive Attenuator where
  | out0
  | out1
  | in0
deriving DecidableEq, Repr

namespace Attenuator

def all : List Attenuator := [out0, out1, in0]

theorem mem_all (a : Attenuator) : a ∈ all := by
  cases a <;> decide

/-- the name of the channel that it belongs to -/
def channelName : Attenuator → String
  | out0 => "complex_output_0"
  | out1 => "complex_output_1"
  | in0 => "complex_input_0"

/-- the attenuator that a channel with this direction and number sets -/
def at? : Direction → Nat → Option Attenuator
  | .output, 0 => some out0
  | .output, 1 => some out1
  | .input, 0 => some in0
  | _, _ => none

end Attenuator

namespace ModuleSettings

/-- what an attenuator is set to -/
def att? (m : ModuleSettings) : Attenuator → Option Nat
  | .out0 => m.out0Att?
  | .out1 => m.out1Att?
  | .in0 => m.in0Att?

def setAtt (m : ModuleSettings) (a : Attenuator) (value? : Option Nat) : ModuleSettings :=
  match a with
  | .out0 => { m with out0Att? := value? }
  | .out1 => { m with out1Att? := value? }
  | .in0 => { m with in0Att? := value? }

theorem att?_setAtt (m : ModuleSettings) (a b : Attenuator) (value? : Option Nat) :
    (m.setAtt a value?).att? b = if b = a then value? else m.att? b := by
  cases a <;> cases b <;> rfl

end ModuleSettings

namespace Qblox

variable {config : Config} {settings : Settings} {p : Parsed} {warnings : List String} {m : CompiledMap}
  {s : QbloxSettings} {path : ChannelPath} {channel : CompiledChannel} {ms ms' : ModuleSettings} {index v : Nat}
  {q : ChannelPath × CompiledChannel} {unit : String} {a : Attenuator} {fault : Fault}

/-! ## One channel -/

/-- whether units of this type have attenuators -/
def isRf (unitType : String) : Bool := (Backend.qblox.unitType? unitType).any UnitType.hasOscillator

/-- the direction that a channel name speaks of -/
def directionOf (name : String) : Direction := if isOutput name then .output else .input

/-- the attenuation that a port-clock asks for on a channel with this direction -/
def requestedAtt? (direction : Direction) (entry : CompiledPortClock) : Option Nat :=
  match direction with
  | .output => entry.corrections.outputAtt?
  | .input => entry.corrections.inputAtt?

/-- the attenuation that a channel asks for, if its port-clocks agree -/
def channelAtt? (q : ChannelPath × CompiledChannel) : Option Nat :=
  q.2.portClocks.findSome? (requestedAtt? (directionOf q.1.name))

/-- the attenuator that a channel sets -/
def attenuator? (q : ChannelPath × CompiledChannel) : Option Attenuator :=
  if isRf q.2.unitType then (ioIndex? q.1.name).bind (Attenuator.at? (directionOf q.1.name)) else none

/-- what a channel writes to an attenuator -/
def writtenAtt? (a : Attenuator) (q : ChannelPath × CompiledChannel) : Option Nat :=
  if attenuator? q = some a then channelAtt? q else none

/-- setting the attenuation of a channel, with the attenuator named -/
theorem applyAttenuation_eq (path : ChannelPath) (index : Nat) (channel : CompiledChannel) (ms : ModuleSettings) :
    applyAttenuation path index channel ms =
      (agreed path "attenuation" (· == ·) .attenuation (requestedAtt? (directionOf path.name)) channel.portClocks).bind
        fun attenuation? => match attenuation? with
          | none => .ok ms
          | some v => match if isRf channel.unitType then Attenuator.at? (directionOf path.name) index else none with
            | some a => .ok (ms.setAtt a (some v))
            | none => .error (.noAttenuator path) := by
  have hrequested : requestedAtt? (directionOf path.name) = fun entry =>
      if isOutput path.name then entry.corrections.outputAtt? else entry.corrections.inputAtt? := by
    funext entry
    unfold directionOf
    split <;> rfl
  rw [applyAttenuation, hrequested]
  refine congrArg (Except.bind _) (funext fun attenuation? => ?_)
  cases attenuation? with
  | none => rfl
  | some v =>
    unfold isRf directionOf
    cases (Backend.qblox.unitType? channel.unitType).any UnitType.hasOscillator <;> cases isOutput path.name <;>
      (try rfl) <;> rcases index with - | - | index <;> rfl

/-- what a channel that is taken does to the attenuators -/
structure SetsAttenuator (q : ChannelPath × CompiledChannel) (ms ms' : ModuleSettings) : Prop where
  agreed : ∀ v, channelAtt? q = some v ↔ ∃ entry ∈ q.2.portClocks, requestedAtt? (directionOf q.1.name) entry = some v
  written : ∀ a, ms'.att? a = (writtenAtt? a q).or (ms.att? a)
  there : attenuator? q = none → channelAtt? q = none

theorem setsAttenuator_of_applyAttenuation (hindex : ioIndex? q.1.name = some index)
    (h : applyAttenuation q.1 index q.2 ms = .ok ms') : SetsAttenuator q ms ms' := by
  rw [applyAttenuation_eq] at h
  obtain ⟨attenuation?, hagreed, h⟩ := bind_eq_ok_iff.1 h
  obtain rfl : attenuation? = channelAtt? q := eq_findSome?_of_agreed hagreed
  have hattenuator : (if isRf q.2.unitType then Attenuator.at? (directionOf q.1.name) index else none) =
      attenuator? q := by
    rw [attenuator?, hindex, Option.bind_some]
  rw [hattenuator] at h
  cases hasked : channelAtt? q with
  | none =>
    rw [hasked] at h
    cases h
    refine ⟨agreed_eq_ok_iff.1 hagreed, fun a => ?_, fun _ => hasked⟩
    rw [writtenAtt?, hasked, ite_self, Option.none_or]
  | some v =>
    rw [hasked] at h
    cases hset : attenuator? q with
    | none =>
      rw [hset] at h
      cases h
    | some b =>
      rw [hset] at h
      cases h
      refine ⟨agreed_eq_ok_iff.1 hagreed, fun a => ?_, fun hnone => absurd (hset.symm.trans hnone) (by simp)⟩
      rw [ModuleSettings.att?_setAtt, writtenAtt?, hset, hasked]
      by_cases hsame : a = b
      · rw [if_pos hsame, if_pos (congrArg some hsame.symm), Option.some_or]
      · rw [if_neg hsame, if_neg (fun h => hsame (Option.some.inj h).symm), Option.none_or]

/-- **One channel more.** -/
theorem setsAttenuator_of_applyChannel (h : applyChannel q.1 q.2 ms = .ok ms') : SetsAttenuator q ms ms' := by
  obtain ⟨index, m₁, m₂, m₃, added, hindex, h₁, h₂, h₃, rfl⟩ := exists_stages_of_applyChannel h
  obtain ⟨lo0?, lo1?, hoscillator⟩ := applyOscillator_frame q.2 ms
  have hbefore : ∀ a, (applyOscillator q.2 ms).att? a = ms.att? a := by
    intro a
    rw [hoscillator]
    cases a <;> rfl
  have hafter : ∀ a, ({ m₃ with sequencers := m₃.sequencers ++ added } : ModuleSettings).att? a = m₁.att? a := by
    intro a
    obtain ⟨in0?, in1?, rfl⟩ := applyGain_frame h₂
    obtain ⟨x00?, x01?, x10?, x11?, rfl⟩ := applyOffsets_frame h₃
    cases a <;> rfl
  have hsets := setsAttenuator_of_applyAttenuation hindex h₁
  refine ⟨hsets.agreed, fun a => ?_, hsets.there⟩
  rw [hafter, hsets.written, hbefore]

/-- **An attenuator as a register.** -/
theorem register_att? (channels : List (ChannelPath × CompiledChannel)) (a : Attenuator) :
    Register channels (fun ms => ms.att? a) (writtenAtt? a) where
  start _ := by cases a <;> rfl
  write _ _ _ _ happly := (setsAttenuator_of_applyChannel happly).written a

/-! ## Channels of the catalogue -/

theorem at?_channelName (a : Attenuator) :
    (ioIndex? a.channelName).bind (Attenuator.at? (directionOf a.channelName)) = some a := by
  cases a <;> decide

/-- a channel of an RF unit is a marker, or complex and named like its attenuator -/
theorem attenuator_slot : ∀ type ∈ Backend.qblox.unitTypes, type.hasOscillator = true → ∀ slot ∈ type.channels,
    (slot.kind? = some .digital ∧ slot.direction = .output) ∨ ∃ a ∈ Attenuator.all, slot.name = a.channelName := by
  decide

/-- a channel that is named like an attenuator is complex -/
theorem kind_slot : ∀ type ∈ Backend.qblox.unitTypes, ∀ slot ∈ type.channels, ∀ a ∈ Attenuator.all,
    slot.name = a.channelName → slot.kind? = some .complex := by
  decide

/-- on an RF unit, the channel that is named like an attenuator sets it -/
theorem attenuator?_of_named (hrf : isRf q.2.unitType = true) (hname : q.1.name = a.channelName) :
    attenuator? q = some a := by
  rw [attenuator?, hrf, if_pos rfl, hname]
  exact at?_channelName a

/-- only channels of RF units set attenuators -/
theorem isRf_of_attenuator? (h : attenuator? q ≠ none) : isRf q.2.unitType = true := by
  by_contra hrf
  rw [attenuator?, if_neg hrf] at h
  exact h rfl

/-- the channels that have an attenuator: those of RF units, less the markers -/
def HasAttenuator (channel : CompiledChannel) : Prop := isRf channel.unitType = true ∧ channel.kind ≠ .digital

/-- the port-clocks on the channel of a unit ask for this attenuation -/
def AsksAttenuation (m : CompiledMap) (unit name : String) (v : Nat) : Prop :=
  ∃ q ∈ m.channels, (q.1.parent? = some unit ∧ q.1.name = name) ∧
    ∃ entry ∈ q.2.portClocks, requestedAtt? q.2.direction entry = some v

instance (m : CompiledMap) (unit name : String) (v : Nat) : Decidable (AsksAttenuation m unit name v) :=
  decidable_of_iff
    (m.channels.any (fun q => decide (q.1.parent? = some unit ∧ q.1.name = name) &&
      q.2.portClocks.any fun entry => requestedAtt? q.2.direction entry = some v) = true)
    (by simp only [AsksAttenuation, List.any_eq_true, Bool.and_eq_true, decide_eq_true_eq])

/-- attenuators belong to their channels -/
structure Attenuates (m : CompiledMap) (s : QbloxSettings) : Prop where
  /-- an attenuator is set to what the port-clocks on its channel ask for -/
  set : ∀ unit a v, (s.modules.lookup? unit).bind (·.att? a) = some v ↔ AsksAttenuation m unit a.channelName v
  /-- no other channel sets it or writes over it -/
  kept : ∀ q ∈ m.channels, ∀ a, q.1.name ≠ a.channelName → ∀ ms ms', applyChannel q.1 q.2 ms = .ok ms' →
    ms'.att? a = ms.att? a
  /-- a channel without an attenuator is not asked for an attenuation -/
  refused : ∀ q ∈ m.channels, ¬ HasAttenuator q.2 → ∀ entry ∈ q.2.portClocks, requestedAtt? q.2.direction entry = none

/-- no marker of an RF unit is asked for an attenuation -/
def MarkersSilent (m : CompiledMap) : Prop :=
  ∀ q ∈ m.channels, isRf q.2.unitType = true → q.2.kind = .digital →
    ∀ entry ∈ q.2.portClocks, entry.corrections.outputAtt? = none

/-- no settings are made because a channel has no attenuator -/
structure RefusedAttenuation (m : CompiledMap) (q : ChannelPath × CompiledChannel) : Prop where
  refused : ∀ s, generate m ≠ .ok s
  /-- this is reported if the channels before it are taken and its own port-clocks agree -/
  reported : ∀ before after modules, m.channels = before ++ q :: after → before.foldlM addChannel [] = .ok modules →
    (∀ entry ∈ q.2.portClocks, ∀ entry' ∈ q.2.portClocks, ∀ v v', requestedAtt? q.2.direction entry = some v →
      requestedAtt? q.2.direction entry' = some v' → v = v') →
    generate m = .error (.noAttenuator q.1)

section Compiled

variable (hc : Compiled config p warnings m) (hbackend : m.backend = .qblox)

include hc hbackend

theorem directionOf_eq (hq : q ∈ m.channels) : directionOf q.1.name = q.2.direction := by
  rw [directionOf, hc.isOutput_eq hbackend hq]
  cases q.2.direction <;> rfl

/-- a channel of an RF unit is a marker, or has the attenuator that it is named like -/
theorem marker_or_named (hq : q ∈ m.channels) (hrf : isRf q.2.unitType = true) :
    (q.2.kind = .digital ∧ q.2.direction = .output) ∨ ∃ a : Attenuator, q.1.name = a.channelName := by
  obtain ⟨u, slot, hprovided⟩ := hc.exists_provided hbackend hq
  rw [isRf, hprovided.unitType?_eq, Option.any_some] at hrf
  rcases attenuator_slot u.type hprovided.type_mem hrf slot hprovided.known with ⟨hkind, hdirection⟩ | ⟨a, -, hname⟩
  · rw [hprovided.kind_eq, Option.some.injEq] at hkind
    exact Or.inl ⟨hkind, hprovided.direction.trans hdirection⟩
  · exact Or.inr ⟨a, hprovided.name_eq.trans hname⟩

theorem kind_of_named (hq : q ∈ m.channels) (hname : q.1.name = a.channelName) : q.2.kind = .complex := by
  obtain ⟨u, slot, hprovided⟩ := hc.exists_provided hbackend hq
  rw [hprovided.name_eq] at hname
  have hkind := kind_slot u.type hprovided.type_mem slot hprovided.known a a.mem_all hname
  rw [hprovided.kind_eq, Option.some.injEq] at hkind
  exact hkind

/-- the digital channels of an RF unit are outputs -/
theorem direction_of_marker (hq : q ∈ m.channels) (hrf : isRf q.2.unitType = true) (hkind : q.2.kind = .digital) :
    q.2.direction = .output := by
  rcases marker_or_named hc hbackend hq hrf with ⟨-, hdirection⟩ | ⟨a, hname⟩
  · exact hdirection
  · rw [kind_of_named hc hbackend hq hname] at hkind
    cases hkind

/-- if the markers are silent, an attenuator is written by its own channel only -/
theorem name_of_writtenAtt? (hsilent : MarkersSilent m) (hq : q ∈ m.channels) (hwritten : writtenAtt? a q = some v) :
    q.1.name = a.channelName ∧ ∃ entry ∈ q.2.portClocks, requestedAtt? q.2.direction entry = some v := by
  rw [writtenAtt?, Option.ite_none_right_eq_some] at hwritten
  obtain ⟨hset, hasked⟩ := hwritten
  have hrf : isRf q.2.unitType = true := isRf_of_attenuator? (by rw [hset]; exact Option.some_ne_none a)
  obtain ⟨entry, hentry, hvalue⟩ := List.exists_of_findSome?_eq_some hasked
  rw [directionOf_eq hc hbackend hq] at hvalue
  refine ⟨?_, entry, hentry, hvalue⟩
  rcases marker_or_named hc hbackend hq hrf with ⟨hkind, hdirection⟩ | ⟨b, hname⟩
  · rw [hdirection, requestedAtt?, hsilent q hq hrf hkind entry hentry] at hvalue
    cases hvalue
  · rw [attenuator?_of_named hrf hname, Option.some.injEq] at hset
    rw [← hset, hname]

/-- what is asked for on the channel of an attenuator is written to it, if the channel is taken -/
theorem writtenAtt?_of_asked (hq : q ∈ m.channels) (htaken : SetsAttenuator q ms ms') (hname : q.1.name = a.channelName)
    {entry : CompiledPortClock} (hentry : entry ∈ q.2.portClocks)
    (hasked : requestedAtt? q.2.direction entry = some v) : writtenAtt? a q = some v := by
  rw [← directionOf_eq hc hbackend hq] at hasked
  have hvalue : channelAtt? q = some v := (htaken.agreed v).2 ⟨entry, hentry, hasked⟩
  have hset : attenuator? q ≠ none := by
    intro hnone
    rw [htaken.there hnone] at hvalue
    cases hvalue
  rw [writtenAtt?, attenuator?_of_named (isRf_of_attenuator? hset) hname, if_pos rfl, hvalue]

/-- a channel of a unit without attenuators is not taken if it is asked for an attenuation -/
theorem requestedAtt?_eq_none (hq : q ∈ m.channels) (htaken : SetsAttenuator q ms ms')
    (hrf : isRf q.2.unitType = false) {entry : CompiledPortClock} (hentry : entry ∈ q.2.portClocks) :
    requestedAtt? q.2.direction entry = none := by
  have hnone : attenuator? q = none := by
    rw [attenuator?, hrf, if_neg Bool.false_ne_true]
  refine Option.eq_none_iff_forall_ne_some.2 fun v hasked => ?_
  rw [← directionOf_eq hc hbackend hq] at hasked
  have hvalue : channelAtt? q = some v := (htaken.agreed v).2 ⟨entry, hentry, hasked⟩
  rw [htaken.there hnone] at hvalue
  cases hvalue

/-- if the markers are silent, a channel without an attenuator that is taken is not asked for an attenuation -/
theorem requestedAtt?_of_silent (hsilent : MarkersSilent m) (hq : q ∈ m.channels) (htaken : SetsAttenuator q ms ms')
    (hhas : ¬ HasAttenuator q.2) {entry : CompiledPortClock} (hentry : entry ∈ q.2.portClocks) :
    requestedAtt? q.2.direction entry = none := by
  cases hrf : isRf q.2.unitType with
  | false => exact requestedAtt?_eq_none hc hbackend hq htaken hrf hentry
  | true =>
    have hkind : q.2.kind = .digital := by
      by_contra hother
      exact hhas ⟨hrf, hother⟩
    rw [direction_of_marker hc hbackend hq hrf hkind]
    exact hsilent q hq hrf hkind entry hentry

section Modules

variable (hmodules : m.channels.foldlM addChannel [] = .ok s.modules)

include hmodules

/-- if the markers are silent, nothing is overwritten: two channels that write the same attenuator are one -/
theorem att?_of_asked (hsilent : MarkersSilent m) (hasks : AsksAttenuation m unit a.channelName v) :
    (s.modules.lookup? unit).bind (·.att? a) = some v := by
  obtain ⟨q, hq, ⟨hparent, hname⟩, entry, hentry, hasked⟩ := hasks
  obtain ⟨ms, hms⟩ := exists_module hmodules hq hparent
  obtain ⟨before, after, happly⟩ := exists_applied hmodules hq
  have hwritten : writtenAtt? a q = some v :=
    writtenAtt?_of_asked hc hbackend hq (setsAttenuator_of_applyChannel happly) hname hentry hasked
  rw [hms, Option.bind_some, (register_att? m.channels a).read_eq hmodules hms]
  refine lastOn_eq_of_agree (fun q hq hparent q' hq' hparent' x x' hx hx' => ?_) hq hparent hwritten
  obtain ⟨hname, -⟩ := name_of_writtenAtt? hc hbackend hsilent hq hx
  obtain ⟨hname', -⟩ := name_of_writtenAtt? hc hbackend hsilent hq' hx'
  have hsame : q = q' := hc.eq_of_name_eq hq hq' (hparent.trans hparent'.symm) (hname.trans hname'.symm)
  rw [hsame, hx', Option.some.injEq] at hx
  exact hx.symm

theorem attenuates_of_silent (hsilent : MarkersSilent m) : Attenuates m s := by
  refine ⟨fun unit a v => ⟨fun hv => ?_, att?_of_asked hc hbackend hmodules hsilent⟩,
    fun q hq a hname ms ms' happly => ?_, fun q hq hhas entry hentry => ?_⟩
  · obtain ⟨ms, hms, hatt⟩ := Option.bind_eq_some_iff.1 hv
    rw [(register_att? m.channels a).read_eq hmodules hms] at hatt
    obtain ⟨q, hq, hparent, hwritten⟩ := mem_of_lastOn hatt
    obtain ⟨hname, hasked⟩ := name_of_writtenAtt? hc hbackend hsilent hq hwritten
    exact ⟨q, hq, ⟨hparent, hname⟩, hasked⟩
  · rw [(setsAttenuator_of_applyChannel happly).written]
    cases hwritten : writtenAtt? a q with
    | none => exact Option.none_or
    | some v => exact absurd (name_of_writtenAtt? hc hbackend hsilent hq hwritten).1 hname
  · obtain ⟨before, after, happly⟩ := exists_applied hmodules hq
    exact requestedAtt?_of_silent hc hbackend hsilent hq (setsAttenuator_of_applyChannel happly) hhas hentry

theorem attenuates_iff : Attenuates m s ↔ MarkersSilent m := by
  constructor
  · intro h q hq hrf hkind entry hentry
    have hnone := h.refused q hq (fun hhas => hhas.2 hkind) entry hentry
    rw [direction_of_marker hc hbackend hq hrf hkind] at hnone
    exact hnone
  · intro hsilent
    exact attenuates_of_silent hc hbackend hmodules hsilent

end Modules

/-! ## Refusals -/

/-- a channel of a unit without attenuators is refused if its port-clocks ask for the same attenuation -/
theorem applyChannel_eq_noAttenuator (hq : q ∈ m.channels) (hrf : isRf q.2.unitType = false)
    (hasked : ∀ v', some v = some v' ↔ ∃ entry ∈ q.2.portClocks, requestedAtt? q.2.direction entry = some v')
    (ms : ModuleSettings) : applyChannel q.1 q.2 ms = .error (.noAttenuator q.1) := by
  obtain ⟨unit, slot, hplaced⟩ := hc.exists_placed hq
  rw [hbackend] at hplaced
  obtain ⟨index, hindex⟩ := exists_ioIndex_of_placed hplaced
  have hagreed : agreed q.1 "attenuation" (· == ·) .attenuation (requestedAtt? (directionOf q.1.name)) q.2.portClocks =
      .ok (some v) := by
    rw [directionOf_eq hc hbackend hq]
    exact agreed_eq_ok_iff.2 hasked
  have hrefused : ∀ ms, applyAttenuation q.1 index q.2 ms = .error (.noAttenuator q.1) := by
    intro ms
    rw [applyAttenuation_eq, hagreed, hrf]
    rfl
  rw [applyChannel, hindex]
  simp only [hrefused, error_bind]

/-- the first channel that is refused is reported -/
theorem generate_eq_noAttenuator (hrf : isRf q.2.unitType = false)
    (hasked : ∀ v', some v = some v' ↔ ∃ entry ∈ q.2.portClocks, requestedAtt? q.2.direction entry = some v')
    {before after : List (ChannelPath × CompiledChannel)} (hchannels : m.channels = before ++ q :: after)
    {modules : Table String ModuleSettings} (hbefore : before.foldlM addChannel [] = .ok modules) :
    generate m = .error (.noAttenuator q.1) := by
  have hq : q ∈ m.channels := by
    rw [hchannels]
    exact List.mem_append_right before List.mem_cons_self
  obtain ⟨u, slot, hprovided⟩ := hc.exists_provided hbackend hq
  have hadd : addChannel modules q = .error (.noAttenuator q.1) := by
    obtain ⟨path, channel⟩ := q
    rw [addChannel, hprovided.parent?_eq]
    simp only [applyChannel_eq_noAttenuator hc hbackend hq hrf hasked, error_bind]
  have hfold : m.channels.foldlM addChannel [] = .error (.noAttenuator q.1) := by
    rw [hchannels, List.foldlM_append, hbefore, ok_bind, List.foldlM_cons, hadd, error_bind]
  rw [generate, if_neg (not_not.2 hbackend), hfold, error_bind]

end Compiled

/-- **Attenuators of a config.** They are set by their own channels, and no others, iff no marker of an RF unit is asked
for an attenuation. Where a channel of any other unit is asked for one, no settings are made. -/
theorem compile_attenuators (h : compile config settings = .ok m) (hbackend : m.backend = .qblox) :
    (∀ s, generate m = .ok s → (Attenuates m s ↔ MarkersSilent m)) ∧
      ∀ q ∈ m.channels, isRf q.2.unitType = false →
        (∃ entry ∈ q.2.portClocks, requestedAtt? q.2.direction entry ≠ none) → RefusedAttenuation m q := by
  obtain ⟨p, warnings, hc⟩ := compile_compiled h
  refine ⟨fun s hs => attenuates_iff hc hbackend (generate_eq_ok hs).2.1, ?_⟩
  rintro q hq hrf ⟨entry, hentry, hasked⟩
  refine ⟨fun s hs => ?_, fun before after modules hchannels hbefore hagree => ?_⟩
  · obtain ⟨before, after, happly⟩ := exists_applied (generate_eq_ok hs).2.1 hq
    exact hasked (requestedAtt?_eq_none hc hbackend hq (setsAttenuator_of_applyChannel happly) hrf hentry)
  · obtain ⟨v, hv⟩ := Option.ne_none_iff_exists'.1 hasked
    have hall : ∀ v', some v = some v' ↔ ∃ entry ∈ q.2.portClocks, requestedAtt? q.2.direction entry = some v' := by
      intro v'
      constructor
      · rintro ⟨⟩
        exact ⟨entry, hentry, hv⟩
      · rintro ⟨entry', hentry', hv'⟩
        rw [hagree entry hentry entry' hentry' v v' hv hv']
    exact generate_eq_noAttenuator hc hbackend hrf hall hchannels hbefore

/-- an RF module with an attenuation of 10 on its first output, and these on its first marker -/
def markerConfig (asked : List Nat) : Config where
  backend := "qblox"
  description := [("cluster0", { (default : InstrumentDescription) with
    type := "Cluster", modules? := some [("1", ⟨"QCM_RF", []⟩)] })]
  options? := some { outputAtt? := some (("q0:mw-q0.01", 10) :: asked.map fun v => ("q0:switch-cl0.baseband", v)) }
  connectivity := .paths [("cluster0.module1", .obj [
    ("complex_output_0", .obj [("portclock_configs", .arr [.obj [("port", .str "q0:mw"), ("clock", .str "q0.01")]])]),
    ("digital_output_0", .obj [("portclock_configs",
      .arr [.obj [("port", .str "q0:switch"), ("clock", .str "cl0.baseband")]])])])]

/-- a marker that is not asked for an attenuation leaves that of the output alone -/
theorem markerConfig_silent :
    ∃ m s, compile (markerConfig []) {} = .ok m ∧ m.backend = .qblox ∧ generate m = .ok s ∧
      (s.modules.lookup? "cluster0.module1").bind ModuleSettings.out0Att? = some 10 ∧
      (Attenuates m s ↔ MarkersSilent m) := by
  obtain ⟨m, hm, hmade⟩ := exists_eq_ok (x := compile (markerConfig []) {})
    (c := fun m => (generate m).toOption.any fun s =>
      (s.modules.lookup? "cluster0.module1").bind ModuleSettings.out0Att? = some 10)
    (by decide +kernel)
  obtain ⟨s, hs, hset⟩ := exists_eq_ok hmade
  have hbackend : m.backend = .qblox := (generate_eq_ok hs).1
  exact ⟨m, s, hm, hbackend, hs, of_decide_eq_true hset, (compile_attenuators hm hbackend).1 s hs⟩

/-- **A marker that sets an attenuator.** It has none, but its 12 is written over the 10 of the output. -/
theorem markerConfig_overwrites :
    ∃ m s, compile (markerConfig [12]) {} = .ok m ∧ generate m = .ok s ∧
      AsksAttenuation m "cluster0.module1" "complex_output_0" 10 ∧
      AsksAttenuation m "cluster0.module1" "digital_output_0" 12 ∧
      (s.modules.lookup? "cluster0.module1").bind ModuleSettings.out0Att? = some 12 := by
  obtain ⟨m, hm, hmade⟩ := exists_eq_ok (x := compile (markerConfig [12]) {})
    (c := fun m => (generate m).toOption.any fun s =>
      AsksAttenuation m "cluster0.module1" "complex_output_0" 10 ∧
        AsksAttenuation m "cluster0.module1" "digital_output_0" 12 ∧
        (s.modules.lookup? "cluster0.module1").bind ModuleSettings.out0Att? = some 12)
    (by decide +kernel)
  obtain ⟨s, hs, hset⟩ := exists_eq_ok hmade
  exact ⟨m, s, hm, hs, of_decide_eq_true hset⟩

end Qblox

end RackMap.Instrument
