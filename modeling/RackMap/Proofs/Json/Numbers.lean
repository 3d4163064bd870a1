/-
Numbers in JSON trees.

A number that is infinite or undefined has no written form and becomes `null`, as if it were left out. `nulls` counts the
`null`s of a tree: if all numbers of a value are finite, then each `null` of its tree is a value that is left out
(`nulls_ofOption`), and a member for an optional number adds none (`memberNulls_member?_ofDouble`).
-/
import Mathlib.Tactic
import RackMap.Json.Value

namespace RackMap

open RackMap.Decimal (Double)

/-! ## Finite numbers -/

/-- no number is infinite or undefined -/
def AllFinite (xs : List Double) : Prop := ∀ x ∈ xs, x.isFinite = true

section AllFinite

variable {xs ys : List Double} {x? : Option Double}

@[simp] theorem allFinite_nil : AllFinite [] := nofun

@[simp] theorem allFinite_append : AllFinite (xs ++ ys) ↔ AllFinite xs ∧ AllFinite ys := List.forall_mem_append

@[simp] theorem allFinite_flatMap {α : Type} {as : List α} {f : α → List Double} :
    AllFinite (as.flatMap f) ↔ ∀ a ∈ as, AllFinite (f a) := List.forall_mem_flatMap

theorem allFinite_toList : AllFinite x?.toList ↔ ∀ x, x? = some x → x.isFinite = true := by
  simp [AllFinite]

end AllFinite

/-- what lies between two finite bounds is finite: an infinity lies beyond one of them, and what is no number compares
with nothing -/
theorem isFinite_of_within {x low high : Double} (hlow : low.le (.infinite true) = false)
    (hhigh : Double.le (.infinite false) high = false) (h : x.within low high = true) : x.isFinite = true := by
  obtain ⟨habove, hbelow⟩ := Bool.and_eq_true_iff.1 h
  cases x with
  | finite => rfl
  | infinite negative =>
    cases negative with
    | true => rw [hlow] at habove; cases habove
    | false => rw [hhigh] at hbelow; cases hbelow
  | undefined => simp [Double.le, Double.rank?] at hbelow

/-- what lies in [-1, 1] is finite -/
theorem isFinite_of_unit {x : Double} (h : x.within (Double.ofInt (-1)) (Double.ofInt 1) = true) :
    x.isFinite = true := isFinite_of_within (by decide +kernel) (by decide +kernel) h

/-- 1 if there is no value -/
def absent {α : Type} (x? : Option α) : Nat := if x?.isNone then 1 else 0

namespace Json

/-! ## Trees -/

mutual

/-- the floating numbers of a tree -/
def numbers : Json → List Double
  | float x => [x]
  | arr items => itemNumbers items
  | obj members => memberNumbers members
  | _ => []

def itemNumbers : List Json → List Double
  | [] => []
  | item :: rest => numbers item ++ itemNumbers rest

def memberNumbers : List (String × Json) → List Double
  | [] => []
  | (_, value) :: rest => numbers value ++ memberNumbers rest

end

mutual

/-- how many `null`s a tree has -/
def nulls : Json → Nat
  | null => 1
  | arr items => itemNulls items
  | obj members => memberNulls members
  | _ => 0

def itemNulls : List Json → Nat
  | [] => 0
  | item :: rest => nulls item + itemNulls rest

def memberNulls : List (String × Json) → Nat
  | [] => 0
  | (_, value) :: rest => nulls value + memberNulls rest

end

attribute [simp] itemNulls memberNulls

variable {x : Double} {x? : Option Double} {members members' : List (String × Json)}

-- the leaves are not unfolded by `rfl`: simp could not use that for the condition of `memberNulls_member?_of_forall`
@[simp] theorem nulls_bool (b : Bool) : (bool b).nulls = 0 := by simp [nulls]

@[simp] theorem nulls_int (n : Int) : (int n).nulls = 0 := by simp [nulls]

@[simp] theorem nulls_str (s : String) : (str s).nulls = 0 := by simp [nulls]

@[simp] theorem nulls_arr (items : List Json) : (arr items).nulls = itemNulls items := rfl

@[simp] theorem nulls_obj (members : List (String × Json)) : (obj members).nulls = memberNulls members := rfl

@[simp] theorem nulls_ofNat (n : Nat) : (ofNat n).nulls = 0 := by simp [ofNat]

theorem itemNulls_eq_sum (items : List Json) : itemNulls items = (items.map nulls).sum := by
  induction items with
  | nil => rfl
  | cons item rest ih => rw [itemNulls, ih, List.map_cons, List.sum_cons]

theorem memberNulls_eq_sum (members : List (String × Json)) :
    memberNulls members = (members.map fun p => p.2.nulls).sum := by
  induction members with
  | nil => rfl
  | cons member rest ih => rw [memberNulls, ih, List.map_cons, List.sum_cons]

@[simp] theorem memberNulls_append : memberNulls (members ++ members') = memberNulls members + memberNulls members' := by
  simp [memberNulls_eq_sum]

/-- the `null`s of a list of values are those of the values -/
theorem itemNulls_map {α : Type} {f : α → Json} {count : α → Nat} {as : List α} (h : ∀ a ∈ as, (f a).nulls = count a) :
    itemNulls (as.map f) = (as.map count).sum := by
  rw [itemNulls_eq_sum, List.map_map, ← List.map_congr_left h]
  rfl

theorem memberNulls_map {α : Type} (key : α → String) {f : α → Json} {count : α → Nat} {as : List α}
    (h : ∀ a ∈ as, (f a).nulls = count a) :
    memberNulls (as.map fun a => (key a, f a)) = (as.map count).sum := by
  rw [memberNulls_eq_sum, List.map_map, ← List.map_congr_left h]
  rfl

section Members

variable {α : Type} {key : String} {f : α → Json} {a? : Option α}

/-- the member of an optional value has the `null`s of the value -/
theorem memberNulls_member? {count : α → Nat} (h : ∀ a, a? = some a → (f a).nulls = count a) :
    memberNulls (member? key f a?) = (a?.map count).getD 0 := by
  cases a? with
  | none => rfl
  | some a => simp [member?, h a rfl]

theorem memberNulls_member?_eq_zero (h : ∀ a, a? = some a → (f a).nulls = 0) :
    memberNulls (member? key f a?) = 0 := by
  rw [memberNulls_member? h]
  cases a? <;> rfl

@[simp] theorem memberNulls_member?_of_forall (h : ∀ a, (f a).nulls = 0) : memberNulls (member? key f a?) = 0 :=
  memberNulls_member?_eq_zero fun a _ => h a

end Members

/-! ## Finite numbers in trees -/

theorem nulls_ofDouble (h : x.isFinite = true) : (ofDouble x).nulls = 0 := by
  rw [ofDouble, if_pos h]
  rfl

/-- **Optional numbers.** If they are finite, then only one that is left out is written as `null`. -/
theorem nulls_ofOption (h : AllFinite x?.toList) : (ofOption ofDouble x?).nulls = absent x? := by
  cases x? with
  | none => rfl
  | some x => exact nulls_ofDouble (h x (List.mem_singleton_self x))

theorem memberNulls_member?_ofDouble {key : String} (h : AllFinite x?.toList) :
    memberNulls (member? key ofDouble x?) = 0 :=
  memberNulls_member?_eq_zero fun x hx => nulls_ofDouble (allFinite_toList.1 h x hx)

end Json

end RackMap
