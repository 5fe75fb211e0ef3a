import VersionedStore.Json.Printer
import VersionedStore.Text.Quoted

/-!
# Why a document cannot be read

The causes, those of the syntax and those of a value that is not of the wanted shape, and their
texts.
-/

namespace VersionedStore.Json

/-- What stands where something else was expected.  Of an array or an object only the kind is known,
since it is refused before its contents are read. -/
inductive Found
  | null
  | boolean (b : Bool)
  | number (n : Number)
  | string (s : String)
  | sequence
  | map
  deriving DecidableEq

def found : Value → Found
  | .null => .null
  | .bool b => .boolean b
  | .number n => .number n
  | .string s => .string s
  | .array _ => .sequence
  | .object _ => .map

/-- The cause of a failed reading. -/
inductive ReadError
  /-- The text ends where a value, or the rest of one, is due. -/
  | endInValue
  /-- The text ends between the members of an object. -/
  | endInObject
  /-- The text ends between the items of an array. -/
  | endInArray
  /-- The text ends inside a string. -/
  | endInString
  | valueExpected
  /-- A word that starts like `null`, `true` or `false` and goes on differently. -/
  | wordExpected
  | colonExpected
  /-- Neither a comma nor the closing bracket after a member. -/
  | memberEndExpected
  /-- Neither a comma nor the closing bracket after an item. -/
  | itemEndExpected
  | keyExpected
  | trailingComma
  | trailingCharacters
  /-- A leading zero, or a digit that is missing. -/
  | invalidNumber
  | numberOutOfRange
  | invalidEscape
  | controlCharacter
  /-- A low surrogate in front, or a high one before another escape. -/
  | loneSurrogate
  /-- A high surrogate without an escape after it. -/
  | unpairedSurrogate
  /-- Bytes in a string that are not UTF-8. -/
  | notUnicode
  /-- More open brackets than a document may have. -/
  | tooDeep
  | wrongType (found : Found) (expected : String)
  | outOfRange (n : Int) (expected : String)
  | wrongLength (length : Nat) (expected : String)
  | missingField (name : String)
  | duplicateField (name : String)
  | unknownVariant (name : String) (known : List String)
  deriving DecidableEq

/-- A name between grave accents. -/
def ticked (s : String) : String := "`" ++ s ++ "`"

def Found.text : Found → String
  | null => "null"
  | boolean b => "boolean " ++ ticked (String.ofList (printBool b))
  | number (.integer n h) => "integer " ++ ticked (String.ofList (printNumber (.integer n h)))
  | number (.double x) => "floating point " ++ ticked (String.ofList x.text)
  | string s => "string " ++ Text.quoted s
  | sequence => "sequence"
  | map => "map"

def ReadError.message : ReadError → String
  | endInValue => "EOF while parsing a value"
  | endInObject => "EOF while parsing an object"
  | endInArray => "EOF while parsing a list"
  | endInString => "EOF while parsing a string"
  | valueExpected => "expected value"
  | wordExpected => "expected ident"
  | colonExpected => "expected `:`"
  | memberEndExpected => "expected `,` or `\x7d`"
  | itemEndExpected => "expected `,` or `]`"
  | keyExpected => "key must be a string"
  | trailingComma => "trailing comma"
  | trailingCharacters => "trailing characters"
  | invalidNumber => "invalid number"
  | numberOutOfRange => "number out of range"
  | invalidEscape => "invalid escape"
  | controlCharacter => "control character (\\u0000-\\u001F) found while parsing a string"
  | loneSurrogate => "lone leading surrogate in hex escape"
  | unpairedSurrogate => "unexpected end of hex escape"
  | notUnicode => "invalid unicode code point"
  | tooDeep => "recursion limit exceeded"
  | wrongType found expected => "invalid type: " ++ found.text ++ ", expected " ++ expected
  | outOfRange n expected =>
    "invalid value: integer " ++ ticked (toString n) ++ ", expected " ++ expected
  | wrongLength n expected => "invalid length " ++ toString n ++ ", expected " ++ expected
  | missingField name => "missing field " ++ ticked name
  | duplicateField name => "duplicate field " ++ ticked name
  | unknownVariant name known =>
    "unknown variant " ++ ticked name ++ ", expected " ++ " or ".intercalate (known.map ticked)

end VersionedStore.Json
