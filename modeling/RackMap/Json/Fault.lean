/-
What can be wrong with a text that should be JSON.

The faults of the first group say that the text ended too early; all others, that what stands there is wrong.
-/
namespace RackMap.Json

/-- a fault of a JSON text -/
inductive Fault where
  | endInList
  | endInObject
  | endInString
  /-- in the midst of a name or a number -/
  | endInWord
  /-- before a value -/
  | endInValue
  | expectedColon
  | expectedListCommaOrEnd
  | expectedObjectCommaOrEnd
  | expectedIdent
  | expectedValue
  | invalidEscape
  | invalidNumber
  | numberOutOfRange
  | controlCharacter
  | keyMustBeText
  | loneSurrogate
  | unpairedEscape
  | trailingComma
  | trailingCharacters
  | tooDeep
deriving DecidableEq, Repr

namespace Fault

/-- whether more text could have mended it -/
def isEnd : Fault → Bool
  | endInList | endInObject | endInString | endInWord | endInValue => true
  | _ => false

/-- whether it is a fault of a name or a number that was begun -/
def isInWord : Fault → Bool
  | endInWord | expectedIdent | invalidNumber | numberOutOfRange => true
  | _ => false

def message : Fault → String
  | endInList => "EOF while parsing a list"
  | endInObject => "EOF while parsing an object"
  | endInString => "EOF while parsing a string"
  | endInWord => "EOF while parsing a value"
  | endInValue => "EOF while parsing a value"
  | expectedColon => "expected `:`"
  | expectedListCommaOrEnd => "expected `,` or `]`"
  | expectedObjectCommaOrEnd => "expected `,` or `\x7d`"
  | expectedIdent => "expected ident"
  | expectedValue => "expected value"
  | invalidEscape => "invalid escape"
  | invalidNumber => "invalid number"
  | numberOutOfRange => "number out of range"
  | controlCharacter => "control character (\\u0000-\\u001F) found while parsing a string"
  | keyMustBeText => "key must be a string"
  | loneSurrogate => "lone leading surrogate in hex escape"
  | unpairedEscape => "unexpected end of hex escape"
  | trailingComma => "trailing comma"
  | trailingCharacters => "trailing characters"
  | tooDeep => "recursion limit exceeded"

end Fault

end RackMap.Json
