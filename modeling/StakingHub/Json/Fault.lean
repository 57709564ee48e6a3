import StakingHub.Json.Value
import StakingHub.Number.Shortest
import StakingHub.Text.Quote

/-!
# Why JSON text or a JSON value does not give a record

Two families of faults: the text is no JSON (`Malformation`), or it is JSON of the wrong shape for
the record (`Fault`). A fault found while reading text carries the line and column where it was
found: lines count from one, columns count the bytes since the start of the line.

They are the failures of reading the records of `crates/ns-mock/src/domain/payloads.rs:12-110`.
-/

namespace StakingHub.Json

/-- The ways JSON text can be malformed. -/
inductive Malformation where
  | eofWhileParsingList
  | eofWhileParsingObject
  | eofWhileParsingString
  | eofWhileParsingValue
  | expectedColon
  | expectedListCommaOrEnd
  | expectedObjectCommaOrEnd
  | expectedSomeIdent
  | expectedSomeValue
  | invalidEscape
  | invalidNumber
  | numberOutOfRange
  | invalidUnicodeCodePoint
  | controlCharacterWhileParsingString
  | keyMustBeAString
  | loneLeadingSurrogateInHexEscape
  | trailingComma
  | trailingCharacters
  | unexpectedEndOfHexEscape
  | recursionLimitExceeded
  deriving DecidableEq, Repr

/-- The text of a malformation. -/
def Malformation.message : Malformation → String
  | .eofWhileParsingList => "EOF while parsing a list"
  | .eofWhileParsingObject => "EOF while parsing an object"
  | .eofWhileParsingString => "EOF while parsing a string"
  | .eofWhileParsingValue => "EOF while parsing a value"
  | .expectedColon => "expected `:`"
  | .expectedListCommaOrEnd => "expected `,` or `]`"
  | .expectedObjectCommaOrEnd => "expected `,` or `\x7d`"
  | .expectedSomeIdent => "expected ident"
  | .expectedSomeValue => "expected value"
  | .invalidEscape => "invalid escape"
  | .invalidNumber => "invalid number"
  | .numberOutOfRange => "number out of range"
  | .invalidUnicodeCodePoint => "invalid unicode code point"
  | .controlCharacterWhileParsingString =>
    "control character (\\u0000-\\u001F) found while parsing a string"
  | .keyMustBeAString => "key must be a string"
  | .loneLeadingSurrogateInHexEscape => "lone leading surrogate in hex escape"
  | .trailingComma => "trailing comma"
  | .trailingCharacters => "trailing characters"
  | .unexpectedEndOfHexEscape => "unexpected end of hex escape"
  | .recursionLimitExceeded => "recursion limit exceeded"

/-- What was found where something else was expected. -/
inductive Found where
  | bool (b : Bool)
  | unsigned (n : Nat)
  | signed (n : Int)
  | float (f : Binary64)
  | str (s : String)
  | unit
  | seq
  | map
  deriving Repr

/-- How a found value is described. -/
def Found.describe : Found → String
  | .bool b => "boolean `" ++ (if b then "true" else "false") ++ "`"
  | .unsigned n => "integer `" ++ toString n ++ "`"
  | .signed n => "integer `" ++ toString n ++ "`"
  | .float f => "floating point `" ++ f.toText ++ "`"
  | .str s => "string " ++ Text.quoteText s
  | .unit => "null"
  | .seq => "sequence"
  | .map => "map"

/-- What a number read from JSON is found as. -/
def Number.found : Number → Found
  | .unsigned n => .unsigned n
  | .signed n => .signed n
  | .float f => .float f

/-- What a JSON value is found as. -/
def Value.found : Value → Found
  | .null => .unit
  | .bool b => .bool b
  | .number n => n.found
  | .string s => .str s
  | .array _ => .seq
  | .object _ => .map

/-- A fault of JSON text or of its shape. -/
inductive Fault where
  | malformed (fault : Malformation)
  | invalidType (found : Found) (expected : String)
  | invalidValue (found : Found) (expected : String)
  | invalidLength (length : Nat) (expected : String)
  | missingField (name : String)
  | duplicateField (name : String)
  | unknownVariant (name : String) (expected : List String)
  | custom (text : String)
  deriving Repr

/-- The names a field or variant may take, each between backticks: one name, two joined by
"or", or "one of" and the list. -/
def oneOf : List String → String
  | [] => ""
  | [a] => "`" ++ a ++ "`"
  | [a, b] => "`" ++ a ++ "` or `" ++ b ++ "`"
  | names => "one of " ++ ", ".intercalate (names.map fun n => "`" ++ n ++ "`")

/-- The text of a fault. -/
def Fault.message : Fault → String
  | .malformed fault => fault.message
  | .invalidType found expected => "invalid type: " ++ found.describe ++ ", expected " ++ expected
  | .invalidValue found expected =>
    "invalid value: " ++ found.describe ++ ", expected " ++ expected
  | .invalidLength n expected => "invalid length " ++ toString n ++ ", expected " ++ expected
  | .missingField name => "missing field `" ++ name ++ "`"
  | .duplicateField name => "duplicate field `" ++ name ++ "`"
  | .unknownVariant name [] => "unknown variant `" ++ name ++ "`, there are no variants"
  | .unknownVariant name expected => "unknown variant `" ++ name ++ "`, expected " ++ oneOf expected
  | .custom text => text

/-- A place in JSON text. -/
structure Position where
  line : Nat
  column : Nat
  deriving DecidableEq, Repr

/-- A fault, with the place in the text where it was found if it came from text. -/
structure Error where
  fault : Fault
  position : Option Position := none
  deriving Repr

/-- The text of an error: the fault, then its place. -/
def Error.message (e : Error) : String :=
  match e.position with
  | none => e.fault.message
  | some p => e.fault.message ++ " at line " ++ toString p.line ++ " column " ++ toString p.column

end StakingHub.Json
