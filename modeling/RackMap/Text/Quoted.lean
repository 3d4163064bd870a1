/-
Quoted texts, as messages show a text that stood where something else was wanted: between double quotes, with a
backslash before a quote or a backslash, short names for four controls and the code point for what is not visible.
-/
import RackMap.Text.Visible

namespace RackMap.Text

/-- the lower-case hexadecimal digits of `n`, without leading zeros -/
def hex (n : Nat) : String := String.ofList (Nat.toDigits 16 n)

/-- how `c` stands between the quotes -/
def quoteChar (c : Char) : String :=
  match c with
  | '"' => "\\\""
  | '\\' => "\\\\"
  | '\t' => "\\t"
  | '\n' => "\\n"
  | '\r' => "\\r"
  | c =>
    if c.toNat = 0 then "\\0"
    else if isVisible c then String.singleton c
    else "\\u" ++ "\x7b" ++ hex c.toNat ++ "\x7d"

/-- `s` between double quotes -/
def quoted (s : String) : String := "\"" ++ String.join (s.toList.map quoteChar) ++ "\""

end RackMap.Text
