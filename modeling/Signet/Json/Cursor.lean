import Signet.Octets

/-!
# Places in a text

A text is read from left to right as octets. A cursor holds what is still to be read and the place
it stands at: the line, from one on, and how many octets of that line have been read.
-/

namespace Signet.Json

structure Place where
  line : Nat
  column : Nat
  deriving DecidableEq, Repr

/-- The place behind one more octet. -/
def Place.after (place : Place) (octet : UInt8) : Place :=
  if octet = 10 then ⟨place.line + 1, 0⟩ else ⟨place.line, place.column + 1⟩

structure Cursor where
  place : Place
  rest : Octets

namespace Cursor

def start (text : Octets) : Cursor :=
  ⟨⟨1, 0⟩, text⟩

def peek? (cursor : Cursor) : Option UInt8 :=
  cursor.rest.head?

/-- The cursor behind the next octet; at the end it stays where it is. -/
def advance (cursor : Cursor) : Cursor :=
  match cursor.rest with
  | [] => cursor
  | octet :: rest => ⟨cursor.place.after octet, rest⟩

/-- The place behind the next octet, which is where a fault of that octet is reported. -/
def nextPlace (cursor : Cursor) : Place :=
  cursor.advance.place

/-- Whether an octet is a space, a tab or a line break. -/
def isBlank (octet : UInt8) : Bool :=
  octet == 32 || octet == 10 || octet == 9 || octet == 13

def skipWhile (test : UInt8 → Bool) (cursor : Cursor) : Cursor :=
  go cursor.place cursor.rest
where
  go (place : Place) : Octets → Cursor
    | [] => ⟨place, []⟩
    | octet :: rest =>
      if test octet then go (place.after octet) rest else ⟨place, octet :: rest⟩

def skipBlanks (cursor : Cursor) : Cursor :=
  cursor.skipWhile isBlank

end Cursor

end Signet.Json
