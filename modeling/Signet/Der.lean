import Signet.Octets

/-!
# DER

The few forms of the distinguished encoding that keys and signatures are written in. Every element
is a tag, the length of its content, and the content.
-/

namespace Signet.Der

/-- The octets of a number without leading zeros; zero has one octet. -/
def magnitude (number : Nat) : Octets :=
  Octets.ofNat (number.log2 / 8 + 1) number

/-- The length of a content: one octet below 128, else the count of its octets and these. -/
def length (content : Octets) : Octets :=
  if content.length < 128 then [UInt8.ofNat content.length]
  else
    let octets := magnitude content.length
    UInt8.ofNat (128 + octets.length) :: octets

def element (tag : UInt8) (content : Octets) : Octets :=
  tag :: length content ++ content

/-- An unsigned number. A leading zero keeps a first octet of 128 or more from reading as a sign. -/
def integer (number : Nat) : Octets :=
  let octets := magnitude number
  element 0x02 (if octets.headD 0 < 128 then octets else 0 :: octets)

/-- A string of whole octets as a string of bits. -/
def bitString (octets : Octets) : Octets := element 0x03 (0 :: octets)

def octetString (octets : Octets) : Octets := element 0x04 octets

def null : Octets := element 0x05 []

/-- The name of an object, its arcs already packed. -/
def objectIdentifier (arcs : Octets) : Octets := element 0x06 arcs

def sequence (elements : List Octets) : Octets := element 0x30 elements.flatten

end Signet.Der
