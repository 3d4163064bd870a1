/-
Writing JSON trees: on one line, or indented by two spaces with one member or element a line.

Only the quote, the backslash and the characters below the space are escaped. Floating numbers always show a point or
an exponent: positionally from 0.00001 up to below 1e16, otherwise with an exponent and its sign.
-/
import RackMap.Decimal.Layout
import RackMap.Json.Value
import RackMap.Text.Cut
import RackMap.Text.Quoted

namespace RackMap.Json

open RackMap.Decimal (Layout)

/-- how floating numbers are written -/
def numberLayout : Layout := ⟨some (-5, 16), true, true, .toEven⟩

/-- a character inside a string -/
def writeChar (c : Char) : String :=
  match c with
  | '"' => "\\\""
  | '\\' => "\\\\"
  | '\x08' => "\\b"
  | '\t' => "\\t"
  | '\n' => "\\n"
  | '\x0c' => "\\f"
  | '\r' => "\\r"
  | c =>
    if c.toNat < 0x20 then "\\u00" ++ (if c.toNat < 0x10 then "0" else "") ++ Text.hex c.toNat
    else String.singleton c

def writeString (s : String) : String := "\"" ++ String.join (s.toList.map writeChar) ++ "\""

/-- a value that holds no others -/
def writeAtom : Json → String
  | null => "null"
  | bool b => if b then "true" else "false"
  | int n => toString n
  | float x => if x.isFinite then numberLayout.text x else "null"
  | str s => writeString s
  | arr _ => "[]"
  | obj _ => "\x7b\x7d"

mutual

/-- the tree on one line -/
def compact : Json → String
  | arr items => "[" ++ Text.join "," (compactItems items) ++ "]"
  | obj ms => "\x7b" ++ Text.join "," (compactMembers ms) ++ "\x7d"
  | json => writeAtom json

def compactItems : List Json → List String
  | [] => []
  | item :: rest => compact item :: compactItems rest

def compactMembers : List (String × Json) → List String
  | [] => []
  | (name, item) :: rest => (writeString name ++ ":" ++ compact item) :: compactMembers rest

end

/-- a line break and the indentation of a level -/
def newLine (level : Nat) : String := "\n" ++ String.ofList (List.replicate (2 * level) ' ')

mutual

/-- the tree over several lines; its first line stands at `level` -/
def prettyAt (level : Nat) : Json → String
  | arr [] => "[]"
  | arr items =>
    "[" ++ newLine (level + 1) ++ Text.join ("," ++ newLine (level + 1)) (prettyItems (level + 1) items) ++
      newLine level ++ "]"
  | obj [] => "\x7b\x7d"
  | obj ms =>
    "\x7b" ++ newLine (level + 1) ++ Text.join ("," ++ newLine (level + 1)) (prettyMembers (level + 1) ms) ++
      newLine level ++ "\x7d"
  | json => writeAtom json

def prettyItems (level : Nat) : List Json → List String
  | [] => []
  | item :: rest => prettyAt level item :: prettyItems level rest

def prettyMembers (level : Nat) : List (String × Json) → List String
  | [] => []
  | (name, item) :: rest => (writeString name ++ ": " ++ prettyAt level item) :: prettyMembers level rest

end

/-- the tree over several lines -/
def pretty (json : Json) : String := prettyAt 0 json

end RackMap.Json
