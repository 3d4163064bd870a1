/-
Reading plain values off JSON: texts, switches, numbers, lists, and values that may be absent.

A reader takes an excerpt from its start to its end, so it gives the fault that comes first: one of shape, or the one
that breaks the text off.
-/
import RackMap.Shape.Fault

namespace RackMap.Shape

open RackMap.Decimal (Double)
open RackMap.Json (Excerpt Ending)

/-- a way to read a value off an excerpt -/
abbrev Reader (α : Type) := Excerpt → Except Fault α

namespace Reader

variable {α : Type}

/-- the value that a whole tree denotes -/
def ofTree (read : Reader α) (json : Json) : Except Fault α := read (.ofJson json)

/-- the fault of an excerpt that is not what was wanted -/
def mismatch (wanted : String) (e : Excerpt) : Except Fault α :=
  match Found.ofExcerpt e with
  | .ok found => .error (.invalidType found wanted)
  | .error fault => .error (.text fault)

/-- items and members must not be broken off -/
def close (ending : Ending) : Except Fault Unit := ending.check.mapError .text

def text : Reader String
  | .str s => .ok s
  | e => mismatch "a string" e

def boolean : Reader Bool
  | .bool b => .ok b
  | e => mismatch "a boolean" e

/-- integers are taken for the nearest double-precision number -/
def double : Reader Double
  | .int n => .ok (Double.ofInt n)
  | .float x => .ok x
  | e => mismatch "f64" e

/-- an integer from `low` up to but not including `high`; floating numbers are no integers, whole or not -/
def integer (low high : Int) (wanted : String) : Reader Int
  | .int n => if low ≤ n ∧ n < high then .ok n else .error (.invalidValue (.integer n) wanted)
  | e => mismatch wanted e

/-- a signed integer of 64 bits -/
def signed : Reader Int := integer (-Int.ofNat (Nat.pow 2 63)) (Int.ofNat (Nat.pow 2 63)) "i64"

/-- an unsigned integer of 32 bits -/
def unsigned : Reader Nat := fun e => (integer 0 (Int.ofNat (Nat.pow 2 32)) "u32" e).map Int.toNat

/-- a value, or `null` for none -/
def nullable (read : Reader α) : Reader (Option α)
  | .null => .ok none
  | e => (read e).map some

/-- the values of an array, in order -/
def list (read : Reader α) : Reader (List α)
  | .arr items ending => do
    let values ← items.mapM read
    close ending
    return values
  | e => mismatch "a sequence" e

/-- the end of an array of `length` items, of which `left` are more than wanted -/
def endItems (length : Nat) (left : List Excerpt) (ending : Ending) : Except Fault Unit :=
  match ending, left with
  | .whole, [] | .closed, [] => .ok ()
  | .whole, _ => .error (.invalidLength length "fewer elements in array")
  | .broken .endInList, [] => .error (.text .endInList)
  | .broken .trailingComma, [] => .error (.text .trailingComma)
  | _, _ => .error (.text .trailingCharacters)

/-- the tree as it is -/
def tree : Reader Json := fun e => e.tree.mapError .text

/-- the tree read as maps -/
def any : Reader Json := fun e => (tree e).map Json.collapse

/-- one member of an object -/
def entry (read : Reader α) (member : String × Excerpt) : Except Fault (String × α) := do
  return (member.1, ← read member.2)

/-- the members of an object in order, repeated keys kept -/
def entries (wanted : String) (read : Reader α) : Reader (List (String × α))
  | .obj members ending => do
    let entries ← members.mapM (entry read)
    close ending
    return entries
  | e => mismatch wanted e

/-- the members of an object as a map -/
def map (read : Reader α) : Reader (Table String α) := fun e => (entries "a map" read e).map Table.ofPairs

end Reader

end RackMap.Shape
