/-
The shortest decimal that reads back as a given double-precision number.

Every decimal between the half-way marks to the two neighbours reads back, the marks themselves only if the mantissa
is even. The grids 10 ^ k are tried from the coarsest downwards; on each only the two decimals around the value can
lie between the marks. The first grid with a hit wins, and of two hits the nearer one.
-/
import RackMap.Decimal.Double

namespace RackMap.Decimal

/-- the number `digits · 10 ^ power` -/
structure Scientific where
  digits : Nat
  power : Int
deriving DecidableEq, Repr, Inhabited

/-- which of two equally near decimals is taken -/
inductive Tie where
  | toEven
  | up
deriving DecidableEq, Repr

namespace Scientific

/-- four times the mantissa and the two half-way marks, in units of a quarter of the last place -/
structure Interval where
  low : Nat
  value : Nat
  high : Nat
  /-- whether the marks belong to the interval -/
  closed : Bool
  /-- the power of two of the unit -/
  power : Int

/-- the decimals that read back as the point `steps`; below a power of two the points lie twice as dense -/
def interval (steps : Nat) : Interval :=
  let m := Double.mantissa steps
  let narrow := m == Double.binade && 2 * Double.binade ≤ steps
  { low := 4 * m - (if narrow then 1 else 2), value := 4 * m, high := 4 * m + 2, closed := m % 2 == 0,
    power := Double.exponent steps - 2 }

/-- the multiple of `10 ^ k` in the interval that is nearest to its value, if there is one -/
def hit? (tie : Tie) (i : Interval) (k : Int) : Option Nat :=
  -- `c · 10 ^ k` and `x · 2 ^ power` compare as `c · up` and `x · down`
  let up := Nat.pow 10 k.toNat * Nat.pow 2 (-i.power).toNat
  let down := Nat.pow 2 i.power.toNat * Nat.pow 10 (-k).toNat
  let inside (c : Nat) : Bool :=
    if i.closed then i.low * down ≤ c * up && c * up ≤ i.high * down
    else i.low * down < c * up && c * up < i.high * down
  let c := i.value * down / up
  if inside c && inside (c + 1) then
    let below := i.value * down - c * up
    let above := (c + 1) * up - i.value * down
    if below < above then some c
    else if above < below then some (c + 1)
    else if tie = .toEven && c % 2 == 0 then some c
    else some (c + 1)
  else if inside c then some c
  else if inside (c + 1) then some (c + 1)
  else none

/-- the first hit on the grids `10 ^ k`, `10 ^ (k - 1)`, …; the last grid is taken as it is -/
def search (tie : Tie) (i : Interval) : Nat → Int → Scientific
  | 0, k => ⟨(hit? tie i k).getD 0, k⟩
  | n + 1, k =>
    match hit? tie i k with
    | some c => ⟨c, k⟩
    | none => search tie i n (k - 1)

/-- the shortest decimal that reads back as the point `steps`, which is not zero; 24 grids reach below 17 digits -/
def shortest (tie : Tie) (steps : Nat) : Scientific :=
  let i := interval steps
  -- a little more than the decimal exponent of the value
  let top : Int := (Double.exponent steps + Nat.log2 (Double.mantissa steps) + 1) * 30103 / 100000 + 2
  search tie i 24 top

end Scientific

end RackMap.Decimal
