/-!
# What can be wrong with a settings or state text

A text is read into a value of a known shape while it is scanned, so the first
problem in text order is the one reported, whether it is about the notation or
about the data.  `Fault.message` gives the wording and `Fault.category` the kind.
-/

namespace FlowControl.Json

/-- The kind of a fault: bad notation, data of the wrong shape, or a text that ends early. -/
inductive Category where
  | malformed
  | data
  | ended
  deriving DecidableEq, Repr

/-- What stood where something else was expected. -/
inductive Found where
  | null
  | bool (value : Bool)
  | integer (value : Int)
  | float (text : String)
  | text (quoted : String)
  | list
  | object
  deriving DecidableEq, Repr

/-- The first problem of a text. -/
inductive Fault where
  | endsInValue
  | endsInList
  | endsInObject
  | endsInString
  | expectedColon
  | expectedListEnd
  | expectedObjectEnd
  | expectedIdent
  | expectedValue
  | invalidEscape
  | invalidNumber
  | numberOutOfRange
  | controlCharacter
  | keyMustBeString
  | loneSurrogate
  | trailingComma
  | trailingCharacters
  | brokenSurrogate
  | invalidType (found : Found) (expected : String)
  | invalidValue (found : Found) (expected : String)
  | invalidLength (length : Nat) (expected : String)
  | missingField (name : String)
  | duplicateField (name : String)
  | unknownVariant (name : String) (known : List String)
  deriving DecidableEq, Repr

/-- How a found thing is named in a message. -/
def Found.describe : Found → String
  | .null => "null"
  | .bool b => s!"boolean `{b}`"
  | .integer n => s!"integer `{n}`"
  | .float t => s!"floating point `{t}`"
  | .text q => s!"string {q}"
  | .list => "sequence"
  | .object => "map"

/-- The known names of an enumeration, as a message lists them. -/
def describeVariants (names : List String) : String :=
  let marked := names.map fun n => s!"`{n}`"
  match marked with
  | [] => "there are no variants"
  | [a] => s!"expected {a}"
  | [a, b] => s!"expected {a} or {b}"
  | many => "expected one of " ++ String.intercalate ", " many

namespace Fault

/-- The kind of a fault. -/
def category : Fault → Category
  | .endsInValue | .endsInList | .endsInObject | .endsInString => .ended
  | .invalidType .. | .invalidValue .. | .invalidLength .. | .missingField _
  | .duplicateField _ | .unknownVariant .. => .data
  | _ => .malformed

/-- The wording of a fault. -/
def message : Fault → String
  | .endsInValue => "EOF while parsing a value"
  | .endsInList => "EOF while parsing a list"
  | .endsInObject => "EOF while parsing an object"
  | .endsInString => "EOF while parsing a string"
  | .expectedColon => "expected `:`"
  | .expectedListEnd => "expected `,` or `]`"
  | .expectedObjectEnd => "expected `,` or `\x7d`"
  | .expectedIdent => "expected ident"
  | .expectedValue => "expected value"
  | .invalidEscape => "invalid escape"
  | .invalidNumber => "invalid number"
  | .numberOutOfRange => "number out of range"
  | .controlCharacter => "control character (\\u0000-\\u001F) found while parsing a string"
  | .keyMustBeString => "key must be a string"
  | .loneSurrogate => "lone leading surrogate in hex escape"
  | .trailingComma => "trailing comma"
  | .trailingCharacters => "trailing characters"
  | .brokenSurrogate => "unexpected end of hex escape"
  | .invalidType found expected => s!"invalid type: {found.describe}, expected {expected}"
  | .invalidValue found expected => s!"invalid value: {found.describe}, expected {expected}"
  | .invalidLength length expected => s!"invalid length {length}, expected {expected}"
  | .missingField name => s!"missing field `{name}`"
  | .duplicateField name => s!"duplicate field `{name}`"
  | .unknownVariant name known => s!"unknown variant `{name}`, {describeVariants known}"

end Fault

/-- A reader takes a value off the front of a text or reports the first problem. -/
abbrev Reader (α : Type) := List Char → Except Fault (α × List Char)

end FlowControl.Json
