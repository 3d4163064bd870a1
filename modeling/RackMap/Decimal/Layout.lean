/-
Written forms of double-precision numbers.

Every form has the fewest digits that read back the same number. A layout says the rest: which magnitudes are written
out positionally, whether a whole number keeps a `.0`, whether an exponent carries a plus sign, and which of two
equally short and near decimals is taken.
-/
import RackMap.Decimal.Shortest

namespace RackMap.Decimal

/-- the decisions of a written form -/
structure Layout where
  /-- powers of ten of the leading digit that are written positionally, the second excluded; `none` for all -/
  positional? : Option (Int × Int)
  /-- write `.0` after a whole number -/
  wholePoint : Bool
  /-- write a `+` before an exponent that is not negative -/
  plusSign : Bool
  tie : Tie

namespace Layout

/-- the layout of messages: never an exponent, and no point in a whole number -/
def plain : Layout := ⟨none, false, false, .up⟩

def zeros (n : Nat) : List Char := List.replicate n '0'

/-- the digits with a point at the right place -/
def writePositional (wholePoint : Bool) (digits : List Char) (power : Int) : String :=
  if 0 ≤ power then
    String.ofList (digits ++ zeros power.toNat) ++ (if wholePoint then ".0" else "")
  else
    let places := (-power).toNat
    if places < digits.length then
      String.ofList (digits.take (digits.length - places) ++ '.' :: digits.drop (digits.length - places))
    else
      String.ofList ('0' :: '.' :: (zeros (places - digits.length) ++ digits))

/-- one digit before the point and the power of ten behind an `e` -/
def writeExponent (plusSign : Bool) (digits : List Char) (leading : Int) : String :=
  let mantissa :=
    match digits with
    | [] => "0"
    | [d] => String.singleton d
    | d :: more => String.ofList (d :: '.' :: more)
  mantissa ++ "e" ++ (if plusSign && 0 ≤ leading then "+" else "") ++ toString leading

/-- the magnitude of a point in this layout -/
def magnitude (l : Layout) (steps : Nat) : String :=
  if steps = 0 then writePositional l.wholePoint ['0'] 0
  else
    let s := Scientific.shortest l.tie steps
    let digits := Nat.toDigits 10 s.digits
    let leading : Int := s.power + digits.length - 1
    let isPositional :=
      match l.positional? with
      | none => true
      | some (low, high) => low ≤ leading && leading < high
    if isPositional then writePositional l.wholePoint digits s.power else writeExponent l.plusSign digits leading

/-- a number in this layout; both signs of zero are shown -/
def text (l : Layout) : Double → String
  | .undefined => "NaN"
  | .infinite negative => if negative then "-inf" else "inf"
  | .finite negative steps => (if negative then "-" else "") ++ l.magnitude steps

end Layout

/-- a number as messages show it -/
def Double.plain (d : Double) : String := Layout.plain.text d

end RackMap.Decimal
