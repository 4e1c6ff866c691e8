namespace ScmPlugins.Json

inductive Unfinished where | value | list | object | string
  deriving DecidableEq, Repr

inductive Fault where
  | ended (inside : Unfinished)
  | expectedValue
  | expectedIdent
  | keyMustBeString
  | expectedColon
  | expectedCommaOrBracket
  | expectedCommaOrBrace
  | trailingComma
  | trailingCharacters
  | invalidNumber
  | numberOutOfRange
  | controlCharacter
  | invalidEscape
  | loneSurrogate
  | unexpectedEndOfEscape
  | tooDeep
  deriving DecidableEq, Repr

def Unfinished.name : Unfinished → String
  | .value => "a value"
  | .list => "a list"
  | .object => "an object"
  | .string => "a string"

/-- What is wrong, without the line and the column at which it was found. -/
def Fault.message : Fault → String
  | .ended inside => "EOF while parsing " ++ inside.name
  | .expectedValue => "expected value"
  | .expectedIdent => "expected ident"
  | .keyMustBeString => "key must be a string"
  | .expectedColon => "expected `:`"
  | .expectedCommaOrBracket => "expected `,` or `]`"
  | .expectedCommaOrBrace => "expected `,` or `\x7d`"
  | .trailingComma => "trailing comma"
  | .trailingCharacters => "trailing characters"
  | .invalidNumber => "invalid number"
  | .numberOutOfRange => "number out of range"
  | .controlCharacter => "control character (\\u0000-\\u001F) found while parsing a string"
  | .invalidEscape => "invalid escape"
  | .loneSurrogate => "lone leading surrogate in hex escape"
  | .unexpectedEndOfEscape => "unexpected end of hex escape"
  | .tooDeep => "recursion limit exceeded"

end ScmPlugins.Json
