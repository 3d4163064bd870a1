/-
Double-precision numbers as points of their grid.

The finite values of one sign are counted from zero upwards: the count is the bit pattern without its sign. Order and
numeric equality are those of the counts, so nothing here depends on machine arithmetic:
- `le` and `same` compare numbers; zero has two signs and one place, and what is no number compares with nothing;
- `ofRatio` rounds a fraction to the nearest point, a half to the point with an even count;
- `mul` and `div` round the exact product and quotient of two points.
-/
namespace RackMap.Decimal

/-- a signed point of the grid of finite values, an infinity, or no number -/
inductive Double where
  | finite (negative : Bool) (steps : Nat)
  | infinite (negative : Bool)
  | undefined
deriving DecidableEq, Repr, Inhabited

/-- the greater neighbour of `num / den` if it is nearer, or equally near and even; else the smaller one -/
def roundDiv (num den : Nat) : Nat :=
  let low := num / den
  let twice := 2 * (num % den)
  if den < twice || (twice == den && low % 2 == 1) then low + 1 else low

namespace Double

/-- the points that share one power of two -/
def binade : Nat := Nat.pow 2 52

/-- the count at which the infinities stand -/
def limit : Nat := 2047 * binade

def zero : Double := finite false 0

def isFinite : Double → Bool
  | finite _ _ => true
  | _ => false

/-- the factor of the power of two in the value of a point -/
def mantissa (steps : Nat) : Nat := if steps < binade then steps else binade + steps % binade

/-- the power of two in the value of a point -/
def exponent (steps : Nat) : Int := if steps < binade then -1074 else (steps / binade : Nat) - 1075

/-- the place of a number in the order; both zeros have place 0 -/
def rank? : Double → Option Int
  | finite negative steps => some (if negative then -(steps : Int) else steps)
  | infinite negative => some (if negative then -(limit : Int) else limit)
  | undefined => none

/-- `a ≤ b` as numbers -/
def le (a b : Double) : Bool :=
  match a.rank?, b.rank? with
  | some x, some y => x ≤ y
  | _, _ => false

/-- `a = b` as numbers: the two zeros are the same, and what is no number is not even itself -/
def same (a b : Double) : Bool :=
  match a.rank?, b.rank? with
  | some x, some y => x == y
  | _, _ => false

/-- `low ≤ x ≤ high` -/
def within (x low high : Double) : Bool := low.le x && x.le high

/-- the point nearest to `num / den`, or an infinity beyond the last one -/
def ofRatio (negative : Bool) (num den : Nat) : Double :=
  if num = 0 then finite negative 0
  else
    let scaled (e : Int) : Nat × Nat := (num * Nat.pow 2 (-e).toNat, den * Nat.pow 2 e.toNat)
    -- the quotient scaled by this power of two lies between 2 ^ 52 and 2 ^ 54
    let low : Int := (Nat.log2 num : Int) - (Nat.log2 den : Int) - 53
    let wide := 2 * binade ≤ (scaled low).1 / (scaled low).2
    let e := max (-1074) (if wide then low + 1 else low)
    let steps := (e + 1074).toNat * binade + roundDiv (scaled e).1 (scaled e).2
    if steps < limit then finite negative steps else infinite negative

/-- the point nearest to `digits · 10 ^ power`; powers far outside the range are decided by the number of digits -/
def ofScientific (negative : Bool) (digits : Nat) (power : Int) : Double :=
  let size : Int := (Nat.toDigits 10 digits).length + power
  if digits = 0 || size < -330 then finite negative 0
  else if 310 < size then infinite negative
  else ofRatio negative (digits * Nat.pow 10 power.toNat) (Nat.pow 10 (-power).toNat)

/-- the value of a point as a fraction -/
def ratio (steps : Nat) : Nat × Nat :=
  (mantissa steps * Nat.pow 2 (exponent steps).toNat, Nat.pow 2 (-exponent steps).toNat)

/-- the product of two numbers -/
def mul : Double → Double → Double
  | finite s a, finite t b => ofRatio (s != t) ((ratio a).1 * (ratio b).1) ((ratio a).2 * (ratio b).2)
  | finite s a, infinite t => if a = 0 then undefined else infinite (s != t)
  | infinite s, finite t b => if b = 0 then undefined else infinite (s != t)
  | infinite s, infinite t => infinite (s != t)
  | _, _ => undefined

/-- the quotient of two numbers -/
def div : Double → Double → Double
  | finite s a, finite t b =>
    if b = 0 then if a = 0 then undefined else infinite (s != t)
    else ofRatio (s != t) ((ratio a).1 * (ratio b).2) ((ratio a).2 * (ratio b).1)
  | finite s _, infinite t => finite (s != t) 0
  | infinite s, finite t _ => infinite (s != t)
  | _, _ => undefined

/-- the point nearest to `10 ^ power` -/
def tenTo (power : Nat) : Double := ofRatio false (Nat.pow 10 power) 1

/-- `significand · 10 ^ power` in floating arithmetic: both factors are rounded, and then their product or quotient, so
this need not be the nearest point. Quotients are taken by at most `10 ^ 308` at a time; two such steps leave nothing of
a significand that 64 bits can hold. -/
def ofParts (negative : Bool) (significand : Nat) (power : Int) : Double :=
  let x := ofRatio negative significand 1
  if significand = 0 then finite negative 0
  else if 308 < power then infinite negative
  else if 0 ≤ power then x.mul (tenTo power.toNat)
  else if -308 ≤ power then x.div (tenTo (-power).toNat)
  else if -616 ≤ power then (x.div (tenTo 308)).div (tenTo (-power - 308).toNat)
  else finite negative 0

/-- the point nearest to an integer -/
def ofInt (n : Int) : Double := ofRatio (n < 0) n.natAbs 1

theorem same_self_of_isFinite {a : Double} (h : a.isFinite = true) : a.same a = true := by
  cases a <;> simp_all [isFinite, same, rank?]

theorem same_comm (a b : Double) : a.same b = b.same a := by
  unfold same
  cases a.rank? <;> cases b.rank? <;> simp [Bool.beq_comm]

theorem same_trans {a b c : Double} (hab : a.same b = true) (hbc : b.same c = true) : a.same c = true := by
  unfold same at *
  cases ha : a.rank? <;> cases hb : b.rank? <;> cases hc : c.rank? <;> simp_all

end Double

end RackMap.Decimal
