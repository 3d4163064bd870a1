/-
Skimming: passing over a value without keeping it.

The grammar is checked and nothing else: numbers have no range, strings may hold lone surrogates, and the nesting has
no limit, since only the stack of open brackets is kept.
-/
import RackMap.Json.Scan

namespace RackMap.Json

/-- an open bracket -/
inductive Bracket where
  | list
  | object
deriving DecidableEq, Repr

namespace Bracket

def closing : Bracket → Char
  | list => ']'
  | object => '\x7d'

def endFault : Bracket → Fault
  | list => .endInList
  | object => .endInObject

def commaFault : Bracket → Fault
  | list => .expectedListCommaOrEnd
  | object => .expectedObjectCommaOrEnd

end Bracket

/-- the rest behind a key and its colon -/
def passKey (cs : List Char) : Except Fault (List Char) :=
  match skipBlanks cs with
  | [] => .error .endInObject
  | '"' :: rest => do
    match skipBlanks (← passString rest) with
    | [] => .error .endInObject
    | ':' :: rest => return rest
    | _ => .error .expectedColon
  | _ => .error .keyMustBeText

mutual

/-- the rest behind the value that `cs` starts with and behind the brackets of `stack` around it -/
def skimValue : Nat → List Bracket → List Char → Except Fault (List Char)
  | 0, _, _ => .error .endInValue
  | fuel + 1, stack, cs =>
    match skipBlanks cs with
    | [] => .error .endInValue
    | 'n' :: rest => do skimRest fuel true stack (← expectWord ['u', 'l', 'l'] rest)
    | 't' :: rest => do skimRest fuel true stack (← expectWord ['r', 'u', 'e'] rest)
    | 'f' :: rest => do skimRest fuel true stack (← expectWord ['a', 'l', 's', 'e'] rest)
    | '"' :: rest => do skimRest fuel true stack (← passString rest)
    | '[' :: rest => skimRest fuel false (.list :: stack) rest
    | '\x7b' :: rest => skimRest fuel false (.object :: stack) rest
    | c :: rest =>
      if c = '-' || c.isDigit then do skimRest fuel true stack (← passNumber (c :: rest))
      else .error .expectedValue

/-- the rest behind the brackets of `stack`; `afterItem` says that an item of the innermost one was just passed -/
def skimRest : Nat → Bool → List Bracket → List Char → Except Fault (List Char)
  | 0, _, _, _ => .error .endInValue
  | _ + 1, _, [], cs => .ok cs
  | fuel + 1, afterItem, bracket :: outer, cs =>
    match skipBlanks cs with
    | [] => .error bracket.endFault
    | c :: rest =>
      if c = bracket.closing then skimRest fuel true outer rest
      else if afterItem && c != ',' then .error bracket.commaFault
      else
        let next := if afterItem then rest else c :: rest
        match bracket with
        | .list => skimValue fuel (.list :: outer) next
        | .object => do skimValue fuel (.object :: outer) (← passKey next)

end

/-- the rest behind the value that `cs` starts with; every two steps take at least one character -/
def skim (cs : List Char) : Except Fault (List Char) := skimValue (2 * cs.length + 2) [] cs

end RackMap.Json
