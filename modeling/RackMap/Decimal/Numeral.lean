/-
Numerals: the texts of double-precision numbers, from `12` and `.5e-3` to `inf` and `nan`.

A numeral has an optional sign, digits with an optional point among, before or behind them, and an optional exponent;
the names of the infinity and of what is no number are read in any case.
-/
import RackMap.Decimal.Double

namespace RackMap.Decimal

/-- the number that a run of digits denotes -/
def natOfDigits (cs : List Char) : Nat := cs.foldl (fun n c => 10 * n + (c.toNat - '0'.toNat)) 0

namespace Double

/-- an optional sign and what follows it; true for a minus -/
def takeSign : List Char → Bool × List Char
  | '-' :: rest => (true, rest)
  | '+' :: rest => (false, rest)
  | cs => (false, cs)

/-- the power of ten behind the digits: nothing, or `e` with a signed run of digits -/
def exponent? : List Char → Option Int
  | [] => some 0
  | c :: rest =>
    let (negative, digits) := takeSign rest
    if c.toLower = 'e' && !digits.isEmpty && digits.all Char.isDigit then
      some (if negative then -(natOfDigits digits : Int) else natOfDigits digits)
    else none

/-- an unsigned numeral -/
def magnitude? (negative : Bool) (cs : List Char) : Option Double :=
  let name := String.ofList (cs.map Char.toLower)
  if name = "nan" then some undefined
  else if name = "inf" || name = "infinity" then some (infinite negative)
  else
    let whole := cs.takeWhile Char.isDigit
    let rest := cs.dropWhile Char.isDigit
    let (places, rest) :=
      match rest with
      | '.' :: more => (more.takeWhile Char.isDigit, more.dropWhile Char.isDigit)
      | _ => ([], rest)
    if whole.isEmpty && places.isEmpty then none
    else (exponent? rest).map fun e => ofScientific negative (natOfDigits (whole ++ places)) (e - places.length)

/-- the number a numeral denotes, rounded to the nearest point -/
def ofNumeral? (s : String) : Option Double :=
  let (negative, rest) := takeSign s.toList
  magnitude? negative rest

end Double

end RackMap.Decimal
