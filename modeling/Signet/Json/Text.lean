import Signet.Json.Fault

/-!
# Texts inside a text

Between quotation marks stand characters and escapes. Reading gives the characters that both stand
for; skipping only finds the closing mark and checks the form of the escapes.
-/

namespace Signet.Json.Text

def advanceBy : (count : Nat) → Cursor → Cursor
  | 0, cursor => cursor
  | count + 1, cursor => advanceBy count cursor.advance

/-- Reads four hexadecimal digits. -/
def readHex (cursor : Cursor) : Except Fault (Nat × Cursor) :=
  match cursor.rest with
  | a :: b :: c :: d :: _ =>
    let behind := advanceBy 4 cursor
    match Octets.hexValue? a, Octets.hexValue? b, Octets.hexValue? c, Octets.hexValue? d with
    | some a, some b, some c, some d => .ok (a * 4096 + b * 256 + c * 16 + d, behind)
    | _, _, _, _ => behind.fault .invalidEscape
  | _ => (advanceBy 3 cursor).fault .endInText

def shortEscape? (letter : UInt8) : Option UInt8 :=
  if letter = 34 ∨ letter = 92 ∨ letter = 47 then some letter
  else if letter = 98 then some 8
  else if letter = 102 then some 12
  else if letter = 110 then some 10
  else if letter = 114 then some 13
  else if letter = 116 then some 9
  else none

/-- Whether a number is the first half of a pair of surrogates. -/
def isLeading (unit : Nat) : Bool :=
  0xD800 ≤ unit && unit ≤ 0xDBFF

/-- Whether a number is the second half of a pair of surrogates. -/
def isTrailing (unit : Nat) : Bool :=
  0xDC00 ≤ unit && unit ≤ 0xDFFF

/-- Moves over an octet that must be there and be a certain one. -/
def expectInPair (octet : UInt8) (cursor : Cursor) : Except Fault Cursor :=
  match cursor.peek? with
  | none => cursor.fault .endInText
  | some found =>
    if found = octet then .ok cursor.advance else cursor.advance.fault .unfinishedSurrogate

/-- Reads the number of an escape behind its `u`, with the second escape of a pair of surrogates. -/
def readNumbered (cursor : Cursor) : Except Fault (Char × Cursor) := do
  let (first, cursor) ← readHex cursor
  if isTrailing first then cursor.fault .loneSurrogate
  else if isLeading first then
    let cursor ← expectInPair 92 cursor
    let cursor ← expectInPair 117 cursor
    let (second, cursor) ← readHex cursor
    if isTrailing second then
      .ok (Char.ofNat (0x10000 + (first - 0xD800) * 0x400 + (second - 0xDC00)), cursor)
    else cursor.fault .loneSurrogate
  else .ok (Char.ofNat first, cursor)

/-- Reads an escape behind its backslash, as the octets of the character it stands for. -/
def readEscape (cursor : Cursor) : Except Fault (Octets × Cursor) :=
  match cursor.peek? with
  | none => cursor.fault .endInText
  | some letter =>
    match shortEscape? letter with
    | some octet => .ok ([octet], cursor.advance)
    | none =>
      if letter = 117 then
        (readNumbered cursor.advance).map fun (c, cursor) => (String.utf8EncodeChar c, cursor)
      else cursor.advance.fault .invalidEscape

/-- The characters of octets that were read between quotation marks, at the cursor behind the
closing mark. Where they are not characters, the fault is reported as many octets before that cursor
as there are octets from the first on that is not a character, escapes counted as what they stand
for. -/
def finish (closing : Cursor) (octets : Octets) : Except Fault (String × Cursor) :=
  match Octets.toText? octets with
  | some text => .ok (text, closing)
  | none =>
    let valid := ((Octets.utf8Fault? octets).map (·.validUpTo)).getD 0
    let invalid := octets.length - valid
    .error
      { cause := .invalidCharacter
        place := ⟨closing.place.line, closing.place.column - invalid⟩ }

/-- Reads octets up to the closing mark, behind octets already read in reverse. The bound is at
least as long as what is left. -/
def readOnto : (bound : Octets) → (read : Octets) → Cursor → Except Fault (String × Cursor)
  | [], _, cursor => cursor.fault .endInText
  | _ :: bound, read, cursor =>
    match cursor.peek? with
    | none => cursor.fault .endInText
    | some octet =>
      if octet = 34 then finish cursor.advance read.reverse
      else if octet = 92 then
        match readEscape cursor.advance with
        | .ok (octets, cursor) => readOnto bound (octets.reverse ++ read) cursor
        | .error fault => .error fault
      else if octet < 32 then cursor.advance.fault .controlCharacter
      else readOnto bound (octet :: read) cursor.advance

/-- Reads a text behind its opening mark. -/
def read : Reader String := fun cursor =>
  readOnto cursor.rest [] cursor

/-- Moves to behind the closing mark. The bound is at least as long as what is left. -/
def skipWith : (bound : Octets) → Cursor → Except Fault Cursor
  | [], cursor => cursor.fault .endInText
  | _ :: bound, cursor =>
    match cursor.peek? with
    | none => cursor.fault .endInText
    | some octet =>
      if octet = 34 then .ok cursor.advance
      else if octet = 92 then
        match cursor.advance.peek? with
        | none => cursor.advance.fault .endInText
        | some letter =>
          if letter = 117 then
            match readHex cursor.advance.advance with
            | .ok (_, cursor) => skipWith bound cursor
            | .error fault => .error fault
          else if (shortEscape? letter).isSome then skipWith bound cursor.advance.advance
          else cursor.advance.advance.fault .invalidEscape
      else if octet < 32 then cursor.fault .controlCharacter
      else skipWith bound cursor.advance

/-- Skips a text behind its opening mark. -/
def skip (cursor : Cursor) : Except Fault Cursor :=
  skipWith cursor.rest cursor

end Signet.Json.Text
