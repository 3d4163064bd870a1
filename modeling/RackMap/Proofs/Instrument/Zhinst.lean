/-
What each step of making Zurich Instruments settings can do.

A channel is taken with the settings of its only port-clock (`output_eq_ok`). It is refused if it has any other number of
them, or an oscillator that is built in (`output_eq_error`).
-/
import Mathlib.Tactic
import RackMap.Instrument.Zhinst
import RackMap.Proofs.Outcome

namespace RackMap.Instrument.Zhinst

open RackMap.Decimal (Double)

variable {path : ChannelPath} {channel : CompiledChannel} {s : OutputSettings} {fault : Fault}
  {q : ChannelPath × CompiledChannel} {devices devices' : Table String (Table String OutputSettings)}
  {map : CompiledMap} {settings : ZhinstSettings}

/-- settings that are those of a port-clock -/
structure IsOutputOf (entry : CompiledPortClock) (s : OutputSettings) : Prop where
  modulation : s.modulation? = entry.frequencies.interm?
  gain1 : s.gain1? = entry.corrections.outputGain?.map OutputGain.gainI
  gain2 : s.gain2? = entry.corrections.outputGain?.map OutputGain.gainQ
  latency : s.latency? = entry.corrections.latency?
  mixer : s.mixer? = entry.corrections.mixer?

theorem output_eq_ok (h : output path channel = .ok s) :
    ∃ entry, channel.portClocks = [entry] ∧ IsOutputOf entry s := by
  unfold output at h
  split at h
  · rename_i entry hentry
    simp only at h
    split at h <;> cases h <;> exact ⟨entry, hentry, rfl, rfl, rfl, rfl, rfl⟩
  · cases h

theorem output_eq_error (h : output path channel = .error fault) :
    (channel.portClocks.length ≠ 1 ∧ fault = .notOnePortClock path channel.portClocks.length) ∨
      ∃ module index, channel.oscillator?.map CompiledOscillator.lo = some (.integrated module index) ∧
        fault = .builtInOscillator (.integrated module index) := by
  unfold output at h
  split at h
  · simp only at h
    split at h
    · cases h
    · cases h
    · rename_i module index hlo
      cases h
      exact Or.inr ⟨module, index, hlo, rfl⟩
  · rename_i hmany
    cases h
    refine Or.inl ⟨fun hone => ?_, rfl⟩
    obtain ⟨entry, hentry⟩ := List.length_eq_one_iff.1 hone
    exact hmany entry hentry

theorem addChannel_eq_ok_iff :
    addChannel devices q = .ok devices' ↔
      ∃ s, output q.1 q.2 = .ok s ∧ devices' = devices.putSorted q.1.instrument
        (((devices.lookup? q.1.instrument).getD []).putSorted q.1.name s) := by
  obtain ⟨path, channel⟩ := q
  simp [addChannel, bind_eq_ok_iff, @eq_comm _ devices']

/-- **Settings that are made.** -/
theorem generate_eq_ok (h : generate map = .ok settings) :
    map.backend = .zhinst ∧ map.channels.foldlM addChannel [] = .ok settings.devices ∧
      settings.oscillators = OscillatorSettings.ofMap map := by
  unfold generate at h
  split at h
  · cases h
  · rename_i hbackend
    obtain ⟨devices, hdevices, h⟩ := bind_eq_ok_iff.1 h
    cases h
    exact ⟨not_not.1 hbackend, hdevices, rfl⟩

/-- **Settings that are not made.** -/
theorem generate_eq_error (h : generate map = .error fault) :
    (map.backend ≠ .zhinst ∧ fault = .backendMismatch .zhinst map.backend) ∨
      ∃ q ∈ map.channels, output q.1 q.2 = .error fault := by
  unfold generate at h
  split at h
  · rename_i hbackend
    cases h
    exact Or.inl ⟨hbackend, rfl⟩
  · rcases bind_eq_error_iff.1 h with h | ⟨devices, -, h⟩
    · obtain ⟨q, hq, x, hx⟩ := exists_of_foldlM_eq_error h
      unfold addChannel at hx
      rcases bind_eq_error_iff.1 hx with hx | ⟨s, -, hx⟩
      · exact Or.inr ⟨q, hq, hx⟩
      · cases hx
    · cases h

end RackMap.Instrument.Zhinst
