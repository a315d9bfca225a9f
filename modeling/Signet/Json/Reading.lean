import Signet.Json.Skipping

/-!
# Reading values of known kinds

A reader takes a value of one kind from a text: a text, a list, one of several names, or a record. A
record is written as an object, whose members may come in any order, or as a list of its fields in
their order, of which the last may be missing if they have defaults.

Some faults of a record are only found when it is complete, such as a missing field. They are
reported at the place behind its closing bracket, and so are two that are found earlier, an unknown
and a repeated field: reading then goes on to the closing bracket if that is what comes next.
-/

namespace Signet.Json

/-! ## Values of another kind -/

/-- Reads what stands at a cursor where something else was expected. Brackets are seen but not
entered. -/
def readFound : Reader Found := fun cursor =>
  match cursor.peek? with
  | none => cursor.fault .endInValue
  | some octet =>
    if octet = 34 then (Text.read cursor.advance).map fun (text, cursor) => (.text text, cursor)
    else if octet = 91 then .ok (.list, cursor)
    else if octet = 123 then .ok (.object, cursor)
    else if octet = 45 ∨ Number.isDigit octet then Number.read cursor
    else
      match wordRest? octet with
      | some (letters, found) =>
        (expectWord letters cursor.advance).map fun cursor => (found, cursor)
      | none => cursor.nextFault .expectedValue

/-- The fault of a value that is not of the expected kind. -/
def refuse {α : Type} (expected : String) (cursor : Cursor) : Except Fault α :=
  match readFound cursor with
  | .ok (found, cursor) => cursor.fault (.wrongKind found expected)
  | .error fault => .error fault

/-! ## Texts, nothing, and choices -/

def readText : Reader String := fun cursor =>
  let cursor := cursor.skipBlanks
  match cursor.peek? with
  | none => cursor.fault .endInValue
  | some octet => if octet = 34 then Text.read cursor.advance else refuse "a string" cursor

def readUnit : Reader Unit := fun cursor =>
  let cursor := cursor.skipBlanks
  match cursor.peek? with
  | none => cursor.fault .endInValue
  | some octet =>
    if octet = 110 then
      (expectWord [117, 108, 108] cursor.advance).map fun cursor => ((), cursor)
    else refuse "unit" cursor

def readOption {α : Type} (inner : Reader α) : Reader (Option α) := fun cursor =>
  let cursor := cursor.skipBlanks
  match cursor.peek? with
  | some 110 =>
    (expectWord [117, 108, 108] cursor.advance).map fun cursor => (none, cursor)
  | _ => (inner cursor).map fun (value, cursor) => (some value, cursor)

/-- Reads the name of a choice behind its opening mark. -/
def readChoiceName {α : Type} (choices : List (String × α)) : Reader α := fun cursor =>
  match Text.read cursor with
  | .error fault => .error fault
  | .ok (name, cursor) =>
    match choices.lookup name with
    | some choice => .ok (choice, cursor)
    | none => cursor.fault (.unknownVariant name (choices.map (·.1)))

/-- Reads one of several names, written as a text or as an object with this one name and nothing as
its value. -/
def readChoice {α : Type} (choices : List (String × α)) : Reader α := fun cursor =>
  let cursor := cursor.skipBlanks
  match cursor.peek? with
  | some 34 => readChoiceName choices cursor.advance
  | some 123 => do
    let cursor := cursor.advance.skipBlanks
    match cursor.peek? with
    | some 34 =>
      let (choice, cursor) ← readChoiceName choices cursor.advance
      let cursor ← expectColon cursor
      let ((), cursor) ← readUnit cursor
      let cursor := cursor.skipBlanks
      match cursor.peek? with
      | some 125 => .ok (choice, cursor.advance)
      | some _ => cursor.fault .expectedValue
      | none => cursor.fault .endInObject
    | some 125 => cursor.nextFault .expectedValue
    | some _ => cursor.nextFault .nameMustBeText
    | none => cursor.fault .endInObject
  | some _ => cursor.nextFault .expectedValue
  | none => cursor.fault .endInValue

/-! ## Elements and members -/

/-- Moves to the next element of a list, or stops before its closing bracket. -/
def nextElement? (isFirst : Bool) (cursor : Cursor) : Except Fault (Option Cursor) :=
  let cursor := cursor.skipBlanks
  match cursor.peek? with
  | none => cursor.fault .endInList
  | some octet =>
    if octet = 93 then .ok none
    else if isFirst then .ok (some cursor)
    else if octet = 44 then
      let cursor := cursor.advance.skipBlanks
      match cursor.peek? with
      | none => cursor.fault .endInValue
      | some octet =>
        if octet = 93 then cursor.nextFault .trailingComma else .ok (some cursor)
    else cursor.nextFault .expectedListCommaOrEnd

/-- Moves to behind the opening mark of the next name of an object, or stops before its closing
bracket. -/
def nextName? (isFirst : Bool) (cursor : Cursor) : Except Fault (Option Cursor) :=
  let cursor := cursor.skipBlanks
  match cursor.peek? with
  | none => cursor.fault .endInObject
  | some octet =>
    if octet = 125 then .ok none
    else if isFirst then
      if octet = 34 then .ok (some cursor.advance) else cursor.nextFault .nameMustBeText
    else if octet = 44 then
      let cursor := cursor.advance.skipBlanks
      match cursor.peek? with
      | none => cursor.fault .endInValue
      | some octet =>
        if octet = 34 then .ok (some cursor.advance)
        else if octet = 125 then cursor.nextFault .trailingComma
        else cursor.nextFault .nameMustBeText
    else cursor.nextFault .expectedObjectCommaOrEnd

/-- Moves over a closing bracket. What stands there instead is a fault, and the cursor then shows
how far it was looked at: behind a comma in a list, but not in an object. -/
def close (bracket : Bracket) (cursor : Cursor) : Cursor × Except Fault Unit :=
  let cursor := cursor.skipBlanks
  match cursor.peek? with
  | none => (cursor, cursor.fault bracket.endCause)
  | some octet =>
    if octet = bracket.closing then (cursor.advance, .ok ())
    else if octet ≠ 44 then (cursor, cursor.nextFault .trailingCharacters)
    else
      match bracket with
      | .object => (cursor, cursor.nextFault .trailingComma)
      | .list =>
        let cursor := cursor.advance.skipBlanks
        if cursor.peek? == some bracket.closing then (cursor, cursor.nextFault .trailingComma)
        else (cursor, cursor.nextFault .trailingCharacters)

/-- The elements of a list behind its opening bracket, up to its closing bracket, behind elements
already read in reverse. The bound is longer than what is left. -/
def readElements {α : Type} (inner : Reader α) :
    (bound : Octets) → (read : List α) → Cursor → Except Fault (List α × Cursor)
  | [], _, cursor => cursor.fault .endInList
  | _ :: bound, read, cursor =>
    match nextElement? read.isEmpty cursor with
    | .error fault => .error fault
    | .ok none => .ok (read.reverse, cursor)
    | .ok (some element) =>
      match inner element with
      | .error fault => .error (fault.within (.element read.length))
      | .ok (value, cursor) => readElements inner bound (value :: read) cursor

def readList {α : Type} (inner : Reader α) : Reader (List α) := fun cursor =>
  let cursor := cursor.skipBlanks
  match cursor.peek? with
  | none => cursor.fault .endInValue
  | some octet =>
    if octet = 91 then
      match readElements inner cursor.rest [] cursor.advance with
      | .error fault => .error fault
      | .ok (values, cursor) =>
        match close .list cursor with
        | (cursor, .ok ()) => .ok (values, cursor)
        | (_, .error fault) => .error fault
    else refuse "a sequence" cursor

/-! ## Records -/

/-- A field of a record that is read into a draft of it. -/
structure Field (δ : Type) where
  name : String
  /-- Whether the draft has the field already. -/
  isSet : δ → Bool
  read : δ → Reader δ

/-- How a record is read: its name, its fields in their order, and how a draft becomes the
record. -/
structure Record (δ α : Type) where
  name : String
  fields : List (Field δ)
  /-- Whether other names are refused in an object. -/
  isClosed : Bool
  blank : δ
  /-- The record of a draft, or the name of a field that it needs and does not have. -/
  complete : δ → Except String α

def Field.of {δ β : Type} (name : String) (get : δ → Option β) (set : δ → β → δ)
    (reader : Reader β) : Field δ where
  name := name
  isSet draft := (get draft).isSome
  read draft cursor := (reader cursor).map fun (value, cursor) => (set draft value, cursor)

namespace Record

variable {δ α : Type}

def expectation (record : Record δ α) : String :=
  s!"struct {record.name}"

def lengthExpectation (record : Record δ α) : String :=
  let count := record.fields.length
  let plural := if count = 1 then "" else "s"
  s!"struct {record.name} with {count} element{plural}"

/-- What came of the content of a record, and where its closing bracket is to be looked for: a
draft, or the cause of a fault without a place of its own. -/
abbrev Content (δ : Type) := Except Cause δ × Cursor

/-- The fields of a record written as a list, up to its end or the last field. -/
def readFields : (fields : List (Field δ)) → (index : Nat) → δ → Cursor →
    Except Fault (δ × Cursor)
  | [], _, draft, cursor => .ok (draft, cursor)
  | field :: fields, index, draft, cursor =>
    match nextElement? (index == 0) cursor with
    | .error fault => .error fault
    | .ok none => .ok (draft, cursor)
    | .ok (some element) =>
      match field.read draft element with
      | .error fault => .error (fault.within (.element index))
      | .ok (draft, cursor) => readFields fields (index + 1) draft cursor

/-- The content of a record written as a list. A missing field counts as the length of the list. -/
def readListContent (record : Record δ α) (cursor : Cursor) : Except Fault (Content α) :=
  match readFields record.fields 0 record.blank cursor with
  | .error fault => .error fault
  | .ok (draft, cursor) =>
    match record.complete draft with
    | .ok value => .ok (.ok value, cursor)
    | .error missing =>
      let length := record.fields.findIdx (·.name == missing)
      .ok (.error (.wrongLength length record.lengthExpectation), cursor)

/-- The members of a record written as an object, up to its closing bracket or to a name that cannot
stand there. The bound is longer than what is left. -/
def readMembers (record : Record δ α) :
    (bound : Octets) → (isFirst : Bool) → δ → Cursor → Except Fault (Content δ)
  | [], _, _, cursor => cursor.fault .endInObject
  | _ :: bound, isFirst, draft, cursor =>
    match nextName? isFirst cursor with
    | .error fault => .error (fault.within .unread)
    | .ok none => .ok (.ok draft, cursor)
    | .ok (some behindMark) =>
      match Text.read behindMark with
      | .error fault => .error (fault.within .unread)
      | .ok (name, behindName) =>
        match record.fields.find? (·.name == name) with
        | some field =>
          if field.isSet draft then .ok (.error (.duplicateField name), behindName)
          else
            match expectColon behindName with
            | .error fault => .error fault
            | .ok behindColon =>
              match field.read draft behindColon with
              | .error fault => .error (fault.within (.member name))
              | .ok (draft, cursor) => readMembers record bound false draft cursor
        | none =>
          if record.isClosed then
            .ok (.error (.unknownField name (record.fields.map (·.name))), behindName)
          else
            match expectColon behindName with
            | .error fault => .error fault
            | .ok behindColon =>
              match skipValue behindColon with
              | .error fault => .error (fault.within (.member name))
              | .ok cursor => readMembers record bound false draft cursor

def readObjectContent (record : Record δ α) (cursor : Cursor) : Except Fault (Content α) :=
  match readMembers record (0 :: cursor.rest) true record.blank cursor with
  | .error fault => .error fault
  | .ok (.error cause, cursor) => .ok (.error cause, cursor)
  | .ok (.ok draft, cursor) => .ok ((record.complete draft).mapError .missingField, cursor)

def closeContent (bracket : Bracket) : Content α → Except Fault (α × Cursor)
  | (content, cursor) =>
    match content, close bracket cursor with
    | .ok value, (cursor, .ok ()) => .ok (value, cursor)
    | .ok _, (_, .error fault) => .error fault
    | .error cause, (cursor, _) => cursor.fault cause

def read (record : Record δ α) : Reader α := fun cursor =>
  let cursor := cursor.skipBlanks
  match cursor.peek? with
  | none => cursor.fault .endInValue
  | some octet =>
    if octet = 91 then
      match record.readListContent cursor.advance with
      | .ok content => closeContent .list content
      | .error fault => .error fault
    else if octet = 123 then
      match record.readObjectContent cursor.advance with
      | .ok content => closeContent .object content
      | .error fault => .error fault
    else refuse record.expectation cursor

end Record

/-! ## Whole texts -/

def expectEnd (cursor : Cursor) : Except Fault Unit :=
  let cursor := cursor.skipBlanks
  match cursor.peek? with
  | none => .ok ()
  | some _ => cursor.nextFault .trailingCharacters

def readWhole {α : Type} (reader : Reader α) (text : Octets) : Except Fault α :=
  match reader (Cursor.start text) with
  | .error fault => .error fault
  | .ok (value, cursor) => (expectEnd cursor).map fun () => value

end Signet.Json
