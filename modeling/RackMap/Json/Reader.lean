/-
Reading JSON texts.

A text is read strictly: no comments, no trailing commas, no blank but the four of JSON, at most 127 nested brackets.
`excerpt` keeps what is read before the text breaks off, and what stands behind the value; of the outermost object it
drops the members whose keys are not wanted, whose values are only skimmed. `parse` gives the tree of a whole text.
-/
import RackMap.Json.Excerpt
import RackMap.Json.Skim

namespace RackMap.Json

/-- how many brackets may be open at once -/
def maxDepth : Nat := 127

/-- what stands behind a part of a text, or the fault that broke it off -/
abbrev Rest := Except Fault (List Char)

/-- items or members end with a bracket unless they are broken off -/
def Rest.ending : Rest → Ending
  | .ok _ => .closed
  | .error fault => .broken fault

/-- a value without brackets, as it was scanned -/
def Excerpt.ofScan : Except Fault (Excerpt × List Char) → Excerpt × Rest
  | .ok (e, rest) => (e, .ok rest)
  | .error fault => (.broken fault, .error fault)

/-- the rest behind the colon that follows a key -/
def passColon (cs : List Char) : Rest :=
  match skipBlanks cs with
  | [] => .error .endInObject
  | ':' :: rest => .ok rest
  | _ => .error .expectedColon

mutual

/-- the value that `cs` starts with; `depth` more brackets may be opened -/
def value : Nat → Nat → List Char → Excerpt × Rest
  | 0, _, _ => (.broken .endInValue, .error .endInValue)
  | fuel + 1, depth, cs =>
    match skipBlanks cs with
    | [] => (.broken .endInValue, .error .endInValue)
    | 'n' :: rest => Excerpt.ofScan do return (.null, ← expectWord ['u', 'l', 'l'] rest)
    | 't' :: rest => Excerpt.ofScan do return (.bool true, ← expectWord ['r', 'u', 'e'] rest)
    | 'f' :: rest => Excerpt.ofScan do return (.bool false, ← expectWord ['a', 'l', 's', 'e'] rest)
    | '"' :: rest => Excerpt.ofScan ((string rest).map fun p => (.str p.1, p.2))
    | '[' :: rest =>
      match depth with
      | 0 => (.broken .tooDeep, .error .tooDeep)
      | depth + 1 =>
        let (items, rest) := elements fuel depth true rest
        (.arr items rest.ending, rest)
    | '\x7b' :: rest =>
      match depth with
      | 0 => (.broken .tooDeep, .error .tooDeep)
      | depth + 1 =>
        let (ms, rest) := members fuel depth (fun _ => true) true rest
        (.obj ms rest.ending, rest)
    | c :: rest =>
      if c = '-' || c.isDigit then Excerpt.ofScan ((number (c :: rest)).map fun p => (.ofJson p.1, p.2))
      else (.broken .expectedValue, .error .expectedValue)

/-- the elements up to the closing bracket; `isFirst` if none was read yet -/
def elements : Nat → Nat → Bool → List Char → List Excerpt × Rest
  | 0, _, _, _ => ([], .error .endInValue)
  | fuel + 1, depth, isFirst, cs =>
    match skipBlanks cs with
    | [] => ([], .error .endInList)
    | ']' :: rest => ([], .ok rest)
    | c :: rest =>
      if !isFirst && c != ',' then ([], .error .expectedListCommaOrEnd)
      else
        match if isFirst then c :: rest else skipBlanks rest with
        | [] => ([], .error .endInValue)
        | ']' :: _ => ([], .error .trailingComma)
        | cs =>
          match value fuel depth cs with
          | (item, .error fault) => ([item], .error fault)
          | (item, .ok cs) =>
            let (items, rest) := elements fuel depth false cs
            (item :: items, rest)

/-- the wanted members up to the closing brace; `isFirst` if none was read yet -/
def members : Nat → Nat → (String → Bool) → Bool → List Char → List (String × Excerpt) × Rest
  | 0, _, _, _, _ => ([], .error .endInValue)
  | fuel + 1, depth, wanted, isFirst, cs =>
    match skipBlanks cs with
    | [] => ([], .error .endInObject)
    | '\x7d' :: rest => ([], .ok rest)
    | c :: rest =>
      if !isFirst && c != ',' then ([], .error .expectedObjectCommaOrEnd)
      else
        match if isFirst then c :: rest else skipBlanks rest with
        | [] => ([], .error .endInValue)
        | '\x7d' :: _ => ([], .error .trailingComma)
        | '"' :: rest =>
          match string rest with
          | .error fault => ([], .error fault)
          | .ok (key, rest) =>
            match passColon rest with
            | .error fault => ([(key, .broken fault)], .error fault)
            | .ok rest =>
              if wanted key then
                match value fuel depth rest with
                | (item, .error fault) => ([(key, item)], .error fault)
                | (item, .ok cs) =>
                  let (more, rest) := members fuel depth wanted false cs
                  ((key, item) :: more, rest)
              else
                match skim rest with
                | .error fault => ([(key, .broken fault)], .error fault)
                | .ok cs => members fuel depth wanted false cs
        | _ => ([], .error .keyMustBeText)

end

/-- the excerpt of a text, and what stands behind it; of an object only the members with wanted keys -/
def excerpt (wanted : String → Bool) (s : String) : Excerpt × Rest :=
  let cs := skipBlanks s.toList
  -- a value takes at most two steps for each of its characters
  let fuel := 2 * cs.length + 2
  match cs with
  | '\x7b' :: rest =>
    let (ms, rest) := members fuel (maxDepth - 1) wanted true rest
    (.obj ms rest.ending, rest)
  | _ => value fuel maxDepth cs

/-- nothing but blanks may follow a document -/
def Rest.finish (rest : Rest) : Except Fault Unit := do
  if (skipBlanks (← rest)).isEmpty then return () else .error .trailingCharacters

/-- the tree of a text -/
def parse (s : String) : Except Fault Json := do
  let (e, rest) := excerpt (fun _ => true) s
  let json ← e.tree
  rest.finish
  return json

end RackMap.Json
