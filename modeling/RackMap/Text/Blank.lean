/-
Blank characters and trimming.

A character is blank when it has the White_Space property. Trimming takes the blank characters off both ends of a
text and leaves those between other characters alone.
-/
namespace RackMap.Text

/-- the 25 characters with the White_Space property: six ranges and single characters -/
def isBlank (c : Char) : Bool :=
  let n := c.toNat
  (9 ≤ n && n ≤ 13) || n == 0x20 || n == 0x85 || n == 0xA0 || n == 0x1680 || (0x2000 ≤ n && n ≤ 0x200A) ||
    n == 0x2028 || n == 0x2029 || n == 0x202F || n == 0x205F || n == 0x3000

/-- `cs` without the blank characters at its start -/
def trimStart (cs : List Char) : List Char := cs.dropWhile isBlank

/-- `cs` without the blank characters at its end -/
def trimEnd (cs : List Char) : List Char := (cs.reverse.dropWhile isBlank).reverse

/-- `s` without the blank characters at its two ends -/
def trim (s : String) : String := String.ofList (trimEnd (trimStart s.toList))

theorem trimStart_cons_of_not_blank {c : Char} {cs : List Char} (h : isBlank c = false) :
    trimStart (c :: cs) = c :: cs := by
  simp [trimStart, h]

end RackMap.Text
