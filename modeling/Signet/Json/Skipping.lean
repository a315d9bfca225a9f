import Signet.Json.Number
import Signet.Json.Text

/-!
# Skipping a value

A member that no one asked for is skipped: its form is checked, its content is not. Values may be
nested to any depth, so the brackets that are still open are kept in a list.
-/

namespace Signet.Json

inductive Bracket
  | list
  | object
  deriving DecidableEq, Repr

def Bracket.closing : Bracket → UInt8
  | list => 93
  | object => 125

def Bracket.endCause : Bracket → Cause
  | list => .endInList
  | object => .endInObject

/-- The cause of a fault where neither a comma nor the closing bracket follows a value. -/
def Bracket.commaCause : Bracket → Cause
  | list => .expectedListCommaOrEnd
  | object => .expectedObjectCommaOrEnd

def expectWord : (letters : Octets) → Cursor → Except Fault Cursor
  | [], cursor => .ok cursor
  | letter :: letters, cursor =>
    match cursor.peek? with
    | none => cursor.fault .endInValue
    | some octet =>
      if octet = letter then expectWord letters cursor.advance
      else cursor.advance.fault .expectedWord

/-- The words that stand for values, without their first letter. -/
def wordRest? (first : UInt8) : Option (Octets × Found) :=
  if first = 110 then some ([117, 108, 108], .null)
  else if first = 116 then some ([114, 117, 101], .boolean true)
  else if first = 102 then some ([97, 108, 115, 101], .boolean false)
  else none

def expectColon (cursor : Cursor) : Except Fault Cursor :=
  let cursor := cursor.skipBlanks
  match cursor.peek? with
  | some 58 => .ok cursor.advance
  | some _ => cursor.nextFault .expectedColon
  | none => cursor.fault .endInObject

/-- Skips a name and its colon, where a name has to stand. -/
def skipName (cursor : Cursor) : Except Fault Cursor :=
  let cursor := cursor.skipBlanks
  match cursor.peek? with
  | some 34 =>
    match Text.skip cursor.advance with
    | .ok cursor => expectColon cursor
    | .error fault => .error fault
  | some _ => cursor.nextFault .nameMustBeText
  | none => cursor.fault .endInObject

/-- What skipping expects next. -/
inductive Expected
  | value
  /-- The first value of the innermost bracket, or its end. -/
  | firstOrEnd
  /-- A comma or the end of the innermost bracket. -/
  | commaOrEnd

/-- What skipping comes to after a step: what is expected next, and which brackets are open. -/
abbrev Skipped := Except Fault (Expected × List Bracket × Cursor)

/-- Skips a value without brackets, or the opening bracket of a value. -/
def startValue (brackets : List Bracket) (cursor : Cursor) : Skipped :=
  match cursor.peek? with
  | none => cursor.fault .endInValue
  | some octet =>
    if octet = 91 then .ok (.firstOrEnd, .list :: brackets, cursor.advance)
    else if octet = 123 then .ok (.firstOrEnd, .object :: brackets, cursor.advance)
    else
      let behind :=
        if octet = 34 then Text.skip cursor.advance
        else if octet = 45 ∨ Number.isDigit octet then Number.skip cursor
        else
          match wordRest? octet with
          | some (letters, _) => expectWord letters cursor.advance
          | none => cursor.nextFault .expectedValue
      behind.map fun cursor => (.commaOrEnd, brackets, cursor)

/-- Skips what has to stand before the next value of the innermost bracket: in an object, its
name. -/
def startElement (bracket : Bracket) (brackets : List Bracket) (cursor : Cursor) : Skipped :=
  match bracket with
  | .list => .ok (.value, .list :: brackets, cursor)
  | .object => (skipName cursor).map fun cursor => (.value, .object :: brackets, cursor)

/-- Skips at least one octet: a value without brackets, a bracket, or what stands between two
values. -/
def skipToken (expected : Expected) (brackets : List Bracket) (cursor : Cursor) : Skipped :=
  let cursor := cursor.skipBlanks
  match expected, brackets with
  | .value, brackets => startValue brackets cursor
  | _, [] => .ok (expected, [], cursor)
  | .firstOrEnd, bracket :: brackets =>
    match cursor.peek? with
    | none => cursor.fault bracket.endCause
    | some octet =>
      if octet = bracket.closing then .ok (.commaOrEnd, brackets, cursor.advance)
      else
        match bracket with
        | .list => startValue (.list :: brackets) cursor
        | .object => startElement .object brackets cursor
  | .commaOrEnd, bracket :: brackets =>
    match cursor.peek? with
    | none => cursor.fault bracket.endCause
    | some octet =>
      if octet = bracket.closing then .ok (.commaOrEnd, brackets, cursor.advance)
      else if octet = 44 then startElement bracket brackets cursor.advance
      else cursor.nextFault bracket.commaCause

/-- Skips tokens until all brackets are closed behind a value. The bound is longer than what is
left. -/
def skipTokens : (bound : Octets) → Expected → List Bracket → Cursor → Except Fault Cursor
  | _, .commaOrEnd, [], cursor => .ok cursor
  | [], _, _, cursor => cursor.fault .endInValue
  | _ :: bound, expected, brackets, cursor =>
    match skipToken expected brackets cursor with
    | .ok (expected, brackets, cursor) => skipTokens bound expected brackets cursor
    | .error fault => .error fault

def skipValue (cursor : Cursor) : Except Fault Cursor :=
  skipTokens (0 :: cursor.rest) .value [] cursor

end Signet.Json
