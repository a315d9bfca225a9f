import Signet.Json.Fault

/-!
# Numbers in a text

Numbers are read only to say what was found where something else was expected. A whole number that
fits into sixty-four bits stays whole; every other number is rounded to a floating-point number,
digit by digit as far as sixty-four bits reach and then by powers of ten.
-/

namespace Signet.Json.Number

def isDigit (octet : UInt8) : Bool :=
  48 ≤ octet && octet ≤ 57

def digit? (cursor : Cursor) : Option Nat :=
  match cursor.peek? with
  | some octet => if isDigit octet then some (octet.toNat - 48) else none
  | none => none

def isAtExponent (cursor : Cursor) : Bool :=
  cursor.peek? == some 101 || cursor.peek? == some 69

/-- The bound of whole numbers. -/
def wholeBound : Nat := Nat.pow 2 64

/-- The bound of exponents that are counted. -/
def exponentBound : Nat := Nat.pow 2 31

/-! ## Rounding -/

def powerOfTen (exponent : Nat) : Float :=
  Float.ofScientific 1 false exponent

/-- Divides by powers of ten until the exponent is in range, then scales by what is left of it. -/
def scale : (tries : Nat) → Float → Int → Option Float
  | 0, value, _ => some value
  | tries + 1, value, exponent =>
    if exponent.natAbs ≤ 308 then
      if 0 ≤ exponent then
        let scaled := value * powerOfTen exponent.natAbs
        if scaled.isInf then none else some scaled
      else some (value / powerOfTen exponent.natAbs)
    else if value == 0 then some value
    else if 0 ≤ exponent then none
    else scale tries (value / powerOfTen 308) (exponent + 308)

/-- Rounds a whole number times a power of ten; the cursor is where a number out of range is
reported. -/
def toFound (isNegative : Bool) (whole : Nat) (exponent : Int) : Reader Found := fun cursor =>
  match scale 16 (Float.ofNat whole) exponent with
  | some value => .ok (.fraction (if isNegative then -value else value), cursor)
  | none => cursor.fault .numberOutOfRange

/-! ## Reading -/

def skipDigits (cursor : Cursor) : Cursor :=
  cursor.skipWhile isDigit

/-- Reads the digits of an exponent, the first of which is already read. The fuel is at least the
number of octets left. Nothing comes of an exponent that is too large to count. -/
def exponentDigits : (fuel : Nat) → (value : Nat) → Cursor → Option Nat × Cursor
  | 0, value, cursor => (some value, cursor)
  | fuel + 1, value, cursor =>
    match digit? cursor with
    | none => (some value, cursor)
    | some digit =>
      if value * 10 + digit < exponentBound then
        exponentDigits fuel (value * 10 + digit) cursor.advance
      else (none, cursor.advance)

/-- Reads an exponent from its letter on. -/
def readExponent (isNegative : Bool) (whole : Nat) (exponent : Int) : Reader Found := fun cursor =>
  let cursor := cursor.advance
  let (isDown, cursor) :=
    match cursor.peek? with
    | some 43 => (false, cursor.advance)
    | some 45 => (true, cursor.advance)
    | _ => (false, cursor)
  match cursor.peek?, digit? cursor with
  | none, _ => cursor.fault .endInValue
  | some _, none => cursor.advance.fault .invalidNumber
  | some _, some first =>
    match exponentDigits cursor.rest.length first cursor.advance with
    | (some value, cursor) =>
      toFound isNegative whole (if isDown then exponent - value else exponent + value) cursor
    | (none, cursor) =>
      if whole ≠ 0 ∧ !isDown then cursor.fault .numberOutOfRange
      else .ok (.fraction (if isNegative then -0.0 else 0.0), skipDigits cursor)

/-- What may follow the digits of a number: an exponent or nothing. -/
def readEnd (isNegative : Bool) (whole : Nat) (exponent : Int) : Reader Found := fun cursor =>
  if isAtExponent cursor then readExponent isNegative whole exponent cursor
  else toFound isNegative whole exponent cursor

/-- Reads digits behind the point as long as the whole number made of all digits stays within its
bound; the remaining ones are skipped. The fuel is at least the number of octets left. -/
def decimalDigits : (fuel : Nat) → (whole : Nat) → (places : Nat) → Cursor →
    Nat × Nat × Cursor
  | 0, whole, places, cursor => (whole, places, cursor)
  | fuel + 1, whole, places, cursor =>
    match digit? cursor with
    | none => (whole, places, cursor)
    | some digit =>
      if whole * 10 + digit < wholeBound then
        decimalDigits fuel (whole * 10 + digit) (places + 1) cursor.advance
      else (whole, places, skipDigits cursor)

def readDecimal (isNegative : Bool) (whole : Nat) (exponent : Int) : Reader Found := fun cursor =>
  let behindPoint := cursor.advance
  match behindPoint.peek?, digit? behindPoint with
  | none, _ => behindPoint.nextFault .endInValue
  | some _, none => behindPoint.nextFault .invalidNumber
  | some _, some _ =>
    let (whole, places, cursor) := decimalDigits behindPoint.rest.length whole 0 behindPoint
    readEnd isNegative whole (exponent - places) cursor

/-- Reads digits until the number reaches its bound. The digits from there on only count as powers
of ten. The fuel is at least the number of octets left. -/
def wholeDigits : (fuel : Nat) → (whole : Nat) → Cursor → Nat × Nat × Cursor
  | 0, whole, cursor => (whole, 0, cursor)
  | fuel + 1, whole, cursor =>
    match digit? cursor with
    | none => (whole, 0, cursor)
    | some digit =>
      if whole * 10 + digit < wholeBound then wholeDigits fuel (whole * 10 + digit) cursor.advance
      else
        let behind := skipDigits cursor
        (whole, cursor.rest.length - behind.rest.length, behind)

/-- A whole number without point or exponent, if it is kept whole. -/
def whole? (isNegative : Bool) (whole : Nat) : Option Found :=
  if isNegative then if 1 ≤ whole ∧ whole ≤ Nat.pow 2 63 then some (.negative whole) else none
  else some (.natural whole)

/-- Reads a number from its first digit on. -/
def readUnsigned (isNegative : Bool) : Reader Found := fun cursor =>
  match cursor.peek?, digit? cursor with
  | none, _ => cursor.fault .endInValue
  | some _, none => cursor.advance.fault .invalidNumber
  | some _, some first =>
    let behind := cursor.advance
    if first = 0 ∧ (digit? behind).isSome then behind.nextFault .invalidNumber
    else
      let (whole, dropped, behind) := wholeDigits behind.rest.length first behind
      if behind.peek? == some 46 then readDecimal isNegative whole dropped behind
      else if isAtExponent behind then readExponent isNegative whole dropped behind
      else if dropped = 0 then
        match whole? isNegative whole with
        | some found => .ok (found, behind)
        | none => toFound isNegative whole 0 behind
      else toFound isNegative whole dropped behind

def read : Reader Found := fun cursor =>
  if cursor.peek? == some 45 then readUnsigned true cursor.advance else readUnsigned false cursor

/-! ## Skipping -/

/-- Skips an exponent from its letter on. -/
def skipExponent (cursor : Cursor) : Except Fault Cursor :=
  let cursor := cursor.advance
  let cursor :=
    match cursor.peek? with
    | some 43 | some 45 => cursor.advance
    | _ => cursor
  match digit? cursor with
  | some _ => .ok (skipDigits cursor)
  | none => cursor.advance.fault .invalidNumber

def skipEnd (cursor : Cursor) : Except Fault Cursor :=
  if isAtExponent cursor then skipExponent cursor else .ok cursor

/-- Skips a number from its first digit on. -/
def skipUnsigned (cursor : Cursor) : Except Fault Cursor :=
  match digit? cursor with
  | none => cursor.advance.fault .invalidNumber
  | some first =>
    let behind := cursor.advance
    if first = 0 ∧ (digit? behind).isSome then behind.nextFault .invalidNumber
    else
      let behind := if first = 0 then behind else skipDigits behind
      if behind.peek? == some 46 then
        let behindPoint := behind.advance
        if (digit? behindPoint).isSome then skipEnd (skipDigits behindPoint)
        else behindPoint.nextFault .invalidNumber
      else skipEnd behind

def skip (cursor : Cursor) : Except Fault Cursor :=
  if cursor.peek? == some 45 then skipUnsigned cursor.advance else skipUnsigned cursor

end Signet.Json.Number
