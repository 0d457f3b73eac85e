import Lowering.Json.Number
import Lowering.Text.Quoted

/-! # Why reading JSON failed

* `Unexpected` — what was found where something else was expected;
* `Problem` — the cause of a failure, from broken syntax to a missing field;
* `DecodeError` — a problem and, for a reading that started from text, the line and column
  where it was noticed (columns count bytes from the start of the line);
* `DecodeError.message` — the text of a failure.
-/

namespace Lowering.Json

/-- What a reader found in place of the expected thing. -/
inductive Unexpected where
  | bool (b : Bool)
  | unsigned (n : Nat)
  | signed (i : Int)
  | float (f : Float)
  | str (s : String)
  | null
  | seq
  | map
  deriving Repr

/-- How a message names what was found. -/
def Unexpected.describe : Unexpected → String
  | .bool b => "boolean `" ++ (if b then "true" else "false") ++ "`"
  | .unsigned n => "integer `" ++ toString n ++ "`"
  | .signed i => "integer `" ++ toString i ++ "`"
  | .float f => "floating point `" ++ floatText f ++ "`"
  | .str s => "string " ++ Text.quoted s
  | .null => "null"
  | .seq => "sequence"
  | .map => "map"

/-- What a number is when it is not what was expected. -/
def Number.unexpected : Number → Unexpected
  | .nat n => .unsigned n
  | .neg i => .signed i
  | .float f => .float f

/-- What a value is when it is not what was expected. -/
def Value.unexpected : Value → Unexpected
  | .null => .null
  | .bool b => .bool b
  | .num n => n.unexpected
  | .str s => .str s
  | .arr _ => .seq
  | .obj _ => .map

/-- The cause of a failed reading. -/
inductive Problem where
  | invalidType (found : Unexpected) (expected : String)
  | invalidValue (found : Unexpected) (expected : String)
  | invalidLength (len : Nat) (expected : String)
  | unknownVariant (name : String) (variants : List String)
  | missingField (name : String)
  | duplicateField (name : String)
  /-- A failure of a conversion after reading, with its own text. -/
  | custom (text : String)
  | eofInList
  | eofInObject
  | eofInString
  | eofInValue
  | expectedColon
  | expectedListCommaOrEnd
  | expectedObjectCommaOrEnd
  | expectedIdent
  | expectedValue
  | invalidEscape
  | invalidNumber
  | numberOutOfRange
  | controlCharInString
  | keyMustBeString
  | loneLeadingSurrogate
  | unexpectedEndOfHexEscape
  | trailingComma
  | trailingCharacters
  | recursionLimit
  deriving Repr

/-- Names in backquotes, joined the way a list of alternatives is written. -/
def alternatives : List String → String
  | [] => "there are no variants"
  | [a] => "`" ++ a ++ "`"
  | [a, b] => "`" ++ a ++ "` or `" ++ b ++ "`"
  | names => "one of " ++ ", ".intercalate (names.map fun n => "`" ++ n ++ "`")

/-- The text of a problem. -/
def Problem.message : Problem → String
  | .invalidType found exp => "invalid type: " ++ found.describe ++ ", expected " ++ exp
  | .invalidValue found exp => "invalid value: " ++ found.describe ++ ", expected " ++ exp
  | .invalidLength n exp => "invalid length " ++ toString n ++ ", expected " ++ exp
  | .unknownVariant name [] => "unknown variant `" ++ name ++ "`, there are no variants"
  | .unknownVariant name vs => "unknown variant `" ++ name ++ "`, expected " ++ alternatives vs
  | .missingField name => "missing field `" ++ name ++ "`"
  | .duplicateField name => "duplicate field `" ++ name ++ "`"
  | .custom text => text
  | .eofInList => "EOF while parsing a list"
  | .eofInObject => "EOF while parsing an object"
  | .eofInString => "EOF while parsing a string"
  | .eofInValue => "EOF while parsing a value"
  | .expectedColon => "expected `:`"
  | .expectedListCommaOrEnd => "expected `,` or `]`"
  | .expectedObjectCommaOrEnd => "expected `,` or `\x7d`"
  | .expectedIdent => "expected ident"
  | .expectedValue => "expected value"
  | .invalidEscape => "invalid escape"
  | .invalidNumber => "invalid number"
  | .numberOutOfRange => "number out of range"
  | .controlCharInString => "control character (\\u0000-\\u001F) found while parsing a string"
  | .keyMustBeString => "key must be a string"
  | .loneLeadingSurrogate => "lone leading surrogate in hex escape"
  | .unexpectedEndOfHexEscape => "unexpected end of hex escape"
  | .trailingComma => "trailing comma"
  | .trailingCharacters => "trailing characters"
  | .recursionLimit => "recursion limit exceeded"

/-- A place in a text: lines count from 1, columns count the bytes before it on its line. -/
structure TextPos where
  line : Nat
  column : Nat
  deriving Repr, DecidableEq

/-- A failed reading: its cause and, when the reading started from text, where it was
noticed. -/
structure DecodeError where
  problem : Problem
  pos : Option TextPos := none
  deriving Repr

/-- The text of a failure, with its place when it has one. -/
def DecodeError.message (e : DecodeError) : String :=
  match e.pos with
  | some p => e.problem.message ++ " at line " ++ toString p.line ++ " column " ++ toString p.column
  | none => e.problem.message

/-- A failure with no place yet; the reader that sees it gives it the place it is at. -/
def DecodeError.bare (p : Problem) : DecodeError := ⟨p, none⟩

end Lowering.Json
