import Signet.Decimal.Notation
import Signet.Json.Cursor
import Signet.Text.Quoted

/-!
# What can be wrong with a text

A fault has a cause, a place, and the path of members and elements that leads to where it was found.
Causes are of three kinds: the text ends too early, it is not well formed, or it is well formed and
means nothing.
-/

namespace Signet.Json

/-- A value that was found where another kind was expected. -/
inductive Found
  | null
  | boolean (value : Bool)
  | natural (value : Nat)
  | negative (magnitude : Nat)
  | fraction (value : Float)
  | text (value : String)
  | list
  | object

def Found.description : Found → String
  | null => "null"
  | boolean value => if value then "boolean `true`" else "boolean `false`"
  | natural value => s!"integer `{value}`"
  | negative magnitude => s!"integer `-{magnitude}`"
  | fraction value => s!"floating point `{Decimal.floatText value}`"
  | text value => "string " ++ Text.quote value
  | list => "sequence"
  | object => "map"

inductive Cause
  | endInList
  | endInObject
  | endInText
  | endInValue
  | expectedColon
  | expectedListCommaOrEnd
  | expectedObjectCommaOrEnd
  | expectedWord
  | expectedValue
  | invalidEscape
  | invalidNumber
  | numberOutOfRange
  | invalidCharacter
  | controlCharacter
  | nameMustBeText
  | loneSurrogate
  | trailingComma
  | trailingCharacters
  | unfinishedSurrogate
  | wrongKind (found : Found) (expected : String)
  | wrongLength (length : Nat) (expected : String)
  | unknownVariant (name : String) (expected : List String)
  | unknownField (name : String) (expected : List String)
  | missingField (name : String)
  | duplicateField (name : String)

inductive Category
  | ending
  | form
  | meaning
  deriving DecidableEq, Repr

/-- Names in quotation marks, as a choice between them. -/
def oneOf (names : List String) : String :=
  match names with
  | [] => "there are no fields"
  | [name] => s!"expected `{name}`"
  | [first, second] => s!"expected `{first}` or `{second}`"
  | names => "expected one of " ++ ", ".intercalate (names.map fun name => s!"`{name}`")

namespace Cause

def category : Cause → Category
  | endInList | endInObject | endInText | endInValue => .ending
  | wrongKind .. | wrongLength .. | unknownVariant .. | unknownField .. | missingField ..
  | duplicateField .. => .meaning
  | _ => .form

def message : Cause → String
  | endInList => "EOF while parsing a list"
  | endInObject => "EOF while parsing an object"
  | endInText => "EOF while parsing a string"
  | endInValue => "EOF while parsing a value"
  | expectedColon => "expected `:`"
  | expectedListCommaOrEnd => "expected `,` or `]`"
  | expectedObjectCommaOrEnd => "expected `,` or `\x7d`"
  | expectedWord => "expected ident"
  | expectedValue => "expected value"
  | invalidEscape => "invalid escape"
  | invalidNumber => "invalid number"
  | numberOutOfRange => "number out of range"
  | invalidCharacter => "invalid unicode code point"
  | controlCharacter => "control character (\\u0000-\\u001F) found while parsing a string"
  | nameMustBeText => "key must be a string"
  | loneSurrogate => "lone leading surrogate in hex escape"
  | trailingComma => "trailing comma"
  | trailingCharacters => "trailing characters"
  | unfinishedSurrogate => "unexpected end of hex escape"
  | wrongKind found expected => s!"invalid type: {found.description}, expected {expected}"
  | wrongLength length expected => s!"invalid length {length}, expected {expected}"
  | unknownVariant name expected => s!"unknown variant `{name}`, {oneOf expected}"
  | unknownField name expected => s!"unknown field `{name}`, {oneOf expected}"
  | missingField name => s!"missing field `{name}`"
  | duplicateField name => s!"duplicate field `{name}`"

end Cause

/-- One step from a value to a value inside it. -/
inductive Segment
  | member (name : String)
  | element (index : Nat)
  | unread
  deriving DecidableEq, Repr

structure Fault where
  cause : Cause
  place : Place
  path : List Segment := []

namespace Fault

/-- A fault inside a value is a fault of the value around it. -/
def within (segment : Segment) (fault : Fault) : Fault :=
  { fault with path := segment :: fault.path }

def message (fault : Fault) : String :=
  s!"{fault.cause.message} at line {fault.place.line} column {fault.place.column}"

/-- Whether no step of the path is known. -/
def isPathUnread (fault : Fault) : Bool :=
  fault.path.all (· == .unread)

/-- The path as text: members behind points, elements as numbers in brackets. -/
def pathText (fault : Fault) : String :=
  (fault.path.foldl (fun (text, isFirst) segment =>
    match segment with
    | .member name => (text ++ (if isFirst then "" else ".") ++ name, false)
    | .unread => (text ++ (if isFirst then "" else ".") ++ "?", false)
    | .element index => (text ++ s!"[{index}]", false)) ("", true)).1

def messageWithPath (fault : Fault) : String :=
  if fault.isPathUnread then fault.message else s!"{fault.pathText}: {fault.message}"

end Fault

abbrev Reader (α : Type) := Cursor → Except Fault (α × Cursor)

namespace Cursor

def fault {α : Type} (cursor : Cursor) (cause : Cause) : Except Fault α :=
  .error { cause, place := cursor.place }

def nextFault {α : Type} (cursor : Cursor) (cause : Cause) : Except Fault α :=
  .error { cause, place := cursor.nextPlace }

end Cursor

end Signet.Json
