/-
The slots of a composite instrument are numbers, however they are written.

`Denotes slot n`: the slot is written as a run of digits, behind `module` or not, and the digits stand for `n`.
- `withoutZeros_eq`: digits without the zeros before them are the decimals of the number that they stand for;
- `moduleName?_eq_some_iff`: a slot has a name iff it denotes a number, and the name is `module` and that number in
  decimals;
- `moduleName?_idem`: the name of a name is that name;
- `moduleName?_eq_iff`: slots have one name iff they denote one number.
-/
import Mathlib.Data.List.TakeWhile
import Mathlib.Tactic
import RackMap.Proofs.Inventory.Entering

namespace RackMap

namespace Inventory

/-- a slot is a number, in digits that may stand behind `module` -/
def Denotes (slot : String) (n : Nat) : Prop :=
  ∃ digits : String, digits.toList ≠ [] ∧ (∀ c ∈ digits.toList, c.isDigit = true) ∧
    (slot = digits ∨ slot = "module" ++ digits) ∧ Nat.ofDigitChars 10 digits.toList 0 = n

variable {slot name : String} {n : Nat} {c : Char} {cs : List Char}

/-! ## Decimals -/

theorem digitChar_toNat_sub (h : c.isDigit = true) : Nat.digitChar (c.toNat - 48) = c := by
  obtain ⟨hlow, hhigh⟩ : 48 ≤ c.toNat ∧ c.toNat ≤ 57 := Char.isDigit_iff_toNat.1 h
  apply Char.toNat_inj.1
  rw [Nat.toNat_digitChar_of_lt_ten (by omega)]
  omega

/-- digits behind a number that is not zero are its last digits -/
theorem toDigits_ofDigitChars_of_pos (hdigits : ∀ c ∈ cs, c.isDigit = true) (hn : 0 < n) :
    Nat.toDigits 10 (Nat.ofDigitChars 10 cs n) = Nat.toDigits 10 n ++ cs := by
  induction cs generalizing n with
  | nil => rw [Nat.ofDigitChars_nil, List.append_nil]
  | cons c cs ih =>
    obtain ⟨hc, hcs⟩ := List.forall_mem_cons.1 hdigits
    have hdigit : c.toNat - 48 < 10 := by
      have hhigh := (Char.isDigit_iff_toNat.1 hc).2
      simp at hhigh
      omega
    calc Nat.toDigits 10 (Nat.ofDigitChars 10 (c :: cs) n)
        = Nat.toDigits 10 (Nat.ofDigitChars 10 cs (10 * n + (c.toNat - 48))) := by rw [Nat.ofDigitChars_cons]; rfl
      _ = Nat.toDigits 10 (10 * n + (c.toNat - 48)) ++ cs := ih hcs (by omega)
      _ = Nat.toDigits 10 n ++ Nat.toDigits 10 (c.toNat - 48) ++ cs := by
        rw [Nat.toDigits_append_toDigits (by omega) hn hdigit]
      _ = Nat.toDigits 10 n ++ c :: cs := by
        rw [Nat.toDigits_of_lt_base hdigit, digitChar_toNat_sub hc, List.append_assoc, List.singleton_append]

/-- digits that do not start with a zero are the decimals of a number -/
theorem toDigits_ofDigitChars_of_first (hdigits : ∀ d ∈ c :: cs, d.isDigit = true) (hfirst : c ≠ '0') :
    Nat.toDigits 10 (Nat.ofDigitChars 10 (c :: cs) 0) = c :: cs := by
  obtain ⟨hc, hcs⟩ := List.forall_mem_cons.1 hdigits
  obtain ⟨hlow, hhigh⟩ : 48 ≤ c.toNat ∧ c.toNat ≤ 57 := Char.isDigit_iff_toNat.1 hc
  have hzero : c.toNat ≠ 48 := fun h => hfirst (Char.toNat_inj.1 h)
  calc Nat.toDigits 10 (Nat.ofDigitChars 10 (c :: cs) 0)
      = Nat.toDigits 10 (Nat.ofDigitChars 10 cs (c.toNat - 48)) := by
        rw [Nat.ofDigitChars_cons, Nat.mul_zero, Nat.zero_add]; rfl
    _ = Nat.toDigits 10 (c.toNat - 48) ++ cs := toDigits_ofDigitChars_of_pos hcs (by omega)
    _ = c :: cs := by
      rw [Nat.toDigits_of_lt_base (by omega), digitChar_toNat_sub hc, List.singleton_append]

/-- zeros at the start do not count -/
theorem ofDigitChars_dropWhile (cs : List Char) :
    Nat.ofDigitChars 10 (cs.dropWhile (· = '0')) 0 = Nat.ofDigitChars 10 cs 0 := by
  have hzeros : cs.takeWhile (· = '0') = List.replicate (cs.takeWhile (· = '0')).length '0' := by
    rw [List.eq_replicate_iff]
    exact ⟨rfl, fun c hc => by simpa using List.mem_takeWhile_imp hc⟩
  conv_rhs => rw [← List.takeWhile_append_dropWhile (p := (· = '0')) (l := cs)]
  rw [Nat.ofDigitChars_append, hzeros, Nat.ofDigitChars_replicate_zero, Nat.mul_zero]

/-- a number without the zeros before it, or `0` if there is nothing else -/
theorem withoutZeros_eq (hdigits : ∀ c ∈ cs, c.isDigit = true) :
    (if (cs.dropWhile (· = '0')).isEmpty then "0" else String.ofList (cs.dropWhile (· = '0'))) =
      toString (Nat.ofDigitChars 10 cs 0) := by
  rw [← ofDigitChars_dropWhile cs, Nat.toString_eq_ofList_toDigits]
  cases hrest : cs.dropWhile (· = '0') with
  | nil => rfl
  | cons c rest =>
    have hfirst : c ≠ '0' := by
      have hnot := List.head?_dropWhile_not (· = '0') cs
      rw [hrest] at hnot
      simpa using hnot
    have hall : ∀ d ∈ c :: rest, d.isDigit = true := fun d hd =>
      hdigits d ((List.dropWhile_suffix _).subset (hrest ▸ hd))
    rw [toDigits_ofDigitChars_of_first hall hfirst]
    rfl

/-! ## Names of slots -/

theorem index_of_digits {digits : String} (hdigits : ∀ c ∈ digits.toList, c.isDigit = true)
    (hslot : slot = digits ∨ slot = "module" ++ digits) : (Text.dropStart? "module" slot).getD slot = digits := by
  rcases hslot with rfl | rfl
  · cases hrest : Text.dropStart? "module" slot with
    | none => rfl
    | some rest =>
      have hm : 'm' ∈ slot.toList := by
        rw [Text.dropStart?_eq_some_iff.1 hrest]
        simp
      exact absurd (hdigits 'm' hm) (by decide)
  · rw [Text.dropStart?_eq_some_iff.2 rfl, Option.getD_some]

/-- a slot that is a number has the name of that number -/
theorem moduleName?_of_denotes (h : Denotes slot n) : moduleName? slot = some ("module" ++ toString n) := by
  obtain ⟨digits, hsome, hdigits, hslot, rfl⟩ := h
  rw [moduleName?, index_of_digits hdigits hslot]
  simp only [if_pos (Text.isDigits_iff.2 ⟨hsome, hdigits⟩), withoutZeros_eq hdigits]

/-- **Names of slots.** A slot has a name iff it is a number, and the name is the number without zeros before it. -/
theorem moduleName?_eq_some_iff {m : String} :
    moduleName? slot = some m ↔ ∃ n, Denotes slot n ∧ m = "module" ++ toString n := by
  constructor
  · intro h
    have hdigits : Text.isDigits ((Text.dropStart? "module" slot).getD slot) = true := by
      unfold moduleName? at h
      simp only at h
      split at h
      · assumption
      · cases h
    obtain ⟨hsome, hall⟩ := Text.isDigits_iff.1 hdigits
    have hslot : slot = (Text.dropStart? "module" slot).getD slot ∨
        slot = "module" ++ (Text.dropStart? "module" slot).getD slot := by
      cases hrest : Text.dropStart? "module" slot with
      | none => exact Or.inl rfl
      | some rest => exact Or.inr (Text.dropStart?_eq_some_iff.1 hrest)
    have hdenotes : Denotes slot _ := ⟨_, hsome, hall, hslot, rfl⟩
    exact ⟨_, hdenotes, Option.some.inj (h.symm.trans (moduleName?_of_denotes hdenotes))⟩
  · rintro ⟨n, hn, rfl⟩
    exact moduleName?_of_denotes hn

/-- the name of a number denotes it -/
theorem denotes_name (n : Nat) : Denotes ("module" ++ toString n) n := by
  have hlist : (toString n).toList = Nat.toDigits 10 n := Nat.toList_repr
  refine ⟨toString n, ?_, fun c hc => ?_, Or.inr rfl, ?_⟩
  · rw [hlist]
    exact Nat.toDigits_ne_nil
  · rw [hlist] at hc
    exact Nat.isDigit_of_mem_toDigits (by omega) (by omega) hc
  · rw [hlist, Nat.ofDigitChars_ten_toDigits]

/-- naming a name changes nothing -/
theorem moduleName?_idem {m : String} (h : moduleName? slot = some m) : moduleName? m = some m := by
  obtain ⟨n, -, rfl⟩ := moduleName?_eq_some_iff.1 h
  exact moduleName?_of_denotes (denotes_name n)

theorem name_inj {n n' : Nat} : "module" ++ toString n = "module" ++ toString n' ↔ n = n' := by
  constructor
  · intro h
    apply Wiring.toDigits_inj
    simpa using congrArg String.toList h
  · rintro rfl
    rfl

/-- slots have one name iff they are one number -/
theorem moduleName?_eq_iff {slot' : String} {n' : Nat} (h : Denotes slot n) (h' : Denotes slot' n') :
    moduleName? slot = moduleName? slot' ↔ n = n' := by
  rw [moduleName?_of_denotes h, moduleName?_of_denotes h', Option.some.injEq, name_inj]

end Inventory

end RackMap
