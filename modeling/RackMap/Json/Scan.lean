/-
The words of JSON: blanks, names, strings and numbers.

Each function takes one word off the front of a text and gives what it denotes and the rest, or the fault that stands
there. The lenient form of a string takes lone surrogates, the lenient form of a number has no range.
-/
import RackMap.Decimal.Numeral
import RackMap.Json.Fault
import RackMap.Json.Value

namespace RackMap.Json

open RackMap.Decimal

/-- `cs` from its first character that is no JSON blank -/
def skipBlanks (cs : List Char) : List Char :=
  cs.dropWhile fun c => c = ' ' || c = '\n' || c = '\t' || c = '\r'

/-- the letters that a name still needs -/
def expectWord : List Char → List Char → Except Fault (List Char)
  | [], cs => .ok cs
  | _ :: _, [] => .error .endInWord
  | w :: word, c :: cs => if w = c then expectWord word cs else .error .expectedIdent

/-! ## Strings -/

/-- how far the writing of the next character of a string has come -/
inductive Stroke where
  | plain
  /-- a backslash is written; `lead?` is a high surrogate that waits for its partner -/
  | escape (lead? : Option Nat)
  /-- `left` more hexadecimal digits belong to a number that is `value` so far -/
  | digits (lead? : Option Nat) (left value : Nat)
  /-- a high surrogate is complete -/
  | halfway (lead : Nat)

def hexDigit? (c : Char) : Option Nat :=
  if c.isDigit then some (c.toNat - '0'.toNat)
  else if 'a' ≤ c ∧ c ≤ 'f' then some (c.toNat - 'a'.toNat + 10)
  else if 'A' ≤ c ∧ c ≤ 'F' then some (c.toNat - 'A'.toNat + 10)
  else none

/-- the character that a letter stands for behind a backslash -/
def escaped? (c : Char) : Option Char :=
  match c with
  | '"' => some '"'
  | '\\' => some '\\'
  | '/' => some '/'
  | 'b' => some '\x08'
  | 'f' => some '\x0c'
  | 'n' => some '\n'
  | 'r' => some '\r'
  | 't' => some '\t'
  | _ => none

/-- whether fewer than four bytes are left -/
def isShort (cs : List Char) : Bool := (String.ofList (cs.take 4)).utf8ByteSize < 4

/-- the state after the code unit `n`, and the character it completes -/
def completeUnit (strict : Bool) (lead? : Option Nat) (n : Nat) : Except Fault (Stroke × Option Char) :=
  let isLow := 0xDC00 ≤ n && n ≤ 0xDFFF
  if !strict then .ok (.plain, none)
  else
    match lead? with
    | some lead =>
      if isLow then .ok (.plain, some (Char.ofNat ((lead - 0xD800) * 0x400 + (n - 0xDC00) + 0x10000)))
      else .error .loneSurrogate
    | none =>
      if isLow then .error .loneSurrogate
      else if 0xD800 ≤ n && n ≤ 0xDBFF then .ok (.halfway n, none)
      else .ok (.plain, some (Char.ofNat n))

/-- the characters of a string up to its closing quote; `written` holds those before, the last one first -/
def scanString (strict : Bool) : Stroke → List Char → List Char → Except Fault (List Char × List Char)
  | _, _, [] => .error .endInString
  | .plain, written, c :: cs =>
    if c = '"' then .ok (written.reverse, cs)
    else if c = '\\' then scanString strict (.escape none) written cs
    else if c.toNat < 0x20 then .error .controlCharacter
    else scanString strict .plain (c :: written) cs
  | .escape lead?, written, c :: cs =>
    if c = 'u' then
      if isShort cs then .error .endInString else scanString strict (.digits lead? 4 0) written cs
    else if lead?.isSome then .error .unpairedEscape
    else
      match escaped? c with
      | some e => scanString strict .plain (e :: written) cs
      | none => .error .invalidEscape
  | .digits lead? left value, written, c :: cs =>
    match hexDigit? c with
    | none => .error .invalidEscape
    | some d =>
      if 1 < left then scanString strict (.digits lead? (left - 1) (16 * value + d)) written cs
      else
        match completeUnit strict lead? (16 * value + d) with
        | .error fault => .error fault
        | .ok (next, char?) => scanString strict next (char?.toList ++ written) cs
  | .halfway lead, written, c :: cs =>
    if c = '\\' then scanString strict (.escape (some lead)) written cs else .error .unpairedEscape

/-- the string after an opening quote -/
def string (cs : List Char) : Except Fault (String × List Char) :=
  (scanString true .plain [] cs).map fun p => (String.ofList p.1, p.2)

/-- the rest behind a string after an opening quote, whatever its escapes denote -/
def passString (cs : List Char) : Except Fault (List Char) := (scanString false .plain [] cs).map Prod.snd

/-! ## Numbers -/

/-- the fault of a missing digit -/
def noDigit : List Char → Fault
  | [] => .endInWord
  | _ => .invalidNumber

/-- a run of at least one digit -/
def digits1 (cs : List Char) : Except Fault (List Char × List Char) :=
  let run := cs.takeWhile Char.isDigit
  let rest := cs.dropWhile Char.isDigit
  if run.isEmpty then .error (noDigit rest) else .ok (run, rest)

/-- the digits before the point: a zero stands alone -/
def wholeDigits (cs : List Char) : Except Fault (List Char × List Char) := do
  let (run, rest) ← digits1 cs
  if run.head? = some '0' && 1 < run.length then .error .invalidNumber else .ok (run, rest)

/-- the digits behind a point, if there is one -/
def placeDigits : List Char → Except Fault (Option (List Char) × List Char)
  | '.' :: cs => do
    let (run, rest) ← digits1 cs
    return (some run, rest)
  | cs => .ok (none, cs)

/-- the power of ten behind an `e`, if there is one -/
def powerDigits : List Char → Except Fault (Option Int × List Char)
  | c :: cs =>
    if c = 'e' || c = 'E' then do
      let (negative, cs) := Double.takeSign cs
      let (run, rest) ← digits1 cs
      return (some (if negative then -(natOfDigits run : Int) else natOfDigits run), rest)
    else .ok (none, c :: cs)
  | [] => .ok (none, [])

/-- the digits that follow `n`, as long as 64 bits can hold the number, and those that are left -/
def takeDigits (n : Nat) : List Char → Nat × List Char
  | [] => (n, [])
  | c :: cs =>
    let next := 10 * n + (c.toNat - '0'.toNat)
    if next < Nat.pow 2 64 then takeDigits next cs else (n, c :: cs)

/-- an integer of 64 bits where one with a sign can hold it, else the nearest floating number; minus zero is a floating
number -/
def integer (negative : Bool) (n : Nat) : Json :=
  if negative then
    if n = 0 || Nat.pow 2 63 < n then float (Double.ofRatio true n 1) else int (-n)
  else int n

/-- the number a text starts with; a floating number must be finite. Digits beyond 64 bits are passed over, and what is
left is scaled in floating arithmetic: a text of many digits may denote a neighbour of the nearest point -/
def number (cs : List Char) : Except Fault (Json × List Char) := do
  let (negative, cs) : Bool × List Char :=
    match cs with
    | '-' :: rest => (true, rest)
    | _ => (false, cs)
  let (whole, cs) ← wholeDigits cs
  let (places?, cs) ← placeDigits cs
  let (power?, cs) ← powerDigits cs
  let (n, passed) := takeDigits 0 whole
  let json :=
    match places?, power?, passed with
    | none, none, [] => integer negative n
    | _, _, _ =>
      let places := places?.getD []
      let (n, unused) := takeDigits n places
      float (Double.ofParts negative n (power?.getD 0 + passed.length - (places.length - unused.length : Nat)))
  match json with
  | .float x => if x.isFinite then return (json, cs) else .error .numberOutOfRange
  | _ => return (json, cs)

/-- the rest behind a number of any size; a missing digit is always the same fault here -/
def passNumber (cs : List Char) : Except Fault (List Char) :=
  let unsigned :=
    match cs with
    | '-' :: rest => rest
    | _ => cs
  let passed := do
    let (_, cs) ← wholeDigits unsigned
    let (_, cs) ← placeDigits cs
    let (_, cs) ← powerDigits cs
    return cs
  passed.mapError fun _ => .invalidNumber

end RackMap.Json
