import Signet.Octets

/-!
# Base64

Digests arrive and signatures leave as base64 with the standard alphabet and padding. `encode`
writes the one form with zero spare bits. `decode` is more generous in two ways: line breaks may
stand anywhere in the text, and the spare bits of the last symbol may be anything. In all else it is
strict, and `DecodingFault` names what is wrong and where: offsets count the octets of the text
without its line breaks.
-/

namespace Signet.Base64

/-! ## The alphabet -/

def symbol (sextet : Nat) : UInt8 :=
  if sextet < 26 then UInt8.ofNat (65 + sextet)
  else if sextet < 52 then UInt8.ofNat (97 + (sextet - 26))
  else if sextet < 62 then UInt8.ofNat (48 + (sextet - 52))
  else if sextet = 62 then 43
  else 47

/-- The six bits that an octet stands for, if it is one of the sixty-four symbols. -/
def sextet? (octet : UInt8) : Option Nat :=
  if 65 ≤ octet ∧ octet ≤ 90 then some (octet.toNat - 65)
  else if 97 ≤ octet ∧ octet ≤ 122 then some (octet.toNat - 97 + 26)
  else if 48 ≤ octet ∧ octet ≤ 57 then some (octet.toNat - 48 + 52)
  else if octet = 43 then some 62
  else if octet = 47 then some 63
  else none

/-- The octet `=`, which fills up the last group of four. -/
def pad : UInt8 := 61

def isLineBreak (octet : UInt8) : Bool :=
  octet == 13 || octet == 10

/-! ## Writing -/

/-- Writes octets, three to a group of four symbols, behind symbols already written in reverse. -/
def encodeOnto (written : Octets) : Octets → Octets
  | a :: b :: c :: rest =>
    let group := a.toNat * 65536 + b.toNat * 256 + c.toNat
    encodeOnto (symbol (group % 64) :: symbol (group / 64 % 64) ::
      symbol (group / 4096 % 64) :: symbol (group / 262144) :: written) rest
  | [a, b] =>
    let group := a.toNat * 1024 + b.toNat * 4
    (pad :: symbol (group % 64) :: symbol (group / 64 % 64) :: symbol (group / 4096) ::
      written).reverse
  | [a] =>
    let group := a.toNat * 16
    (pad :: pad :: symbol (group % 64) :: symbol (group / 64) :: written).reverse
  | [] => written.reverse

def encodeOctets (octets : Octets) : Octets :=
  encodeOnto [] octets

/-- The base64 text of octets: padded, without line breaks, spare bits zero. -/
def encode (octets : Octets) : String :=
  String.ofList ((encodeOctets octets).map fun octet => Char.ofNat octet.toNat)

/-! ## Reading -/

inductive DecodingFault
  /-- An octet that is no symbol stands where a symbol or the end should. -/
  | invalidByte (offset : Nat) (octet : UInt8)
  /-- One symbol is left over, which is not enough for an octet. -/
  | invalidLength
  /-- The last group has too few pads. -/
  | invalidPadding
  deriving DecidableEq, Repr

def DecodingFault.message : DecodingFault → String
  | .invalidByte offset octet => s!"Invalid byte {octet.toNat}, offset {offset}."
  | .invalidLength => "Encoded text cannot have a 6-bit remainder."
  | .invalidPadding => "Invalid padding"

/-- The octets that sextets hold, behind octets already written in reverse: four sextets make three,
and at the end three make two and two make one. Bits that fill no octet are dropped. -/
def packOnto (written : Octets) : List Nat → Octets
  | a :: b :: c :: d :: rest =>
    let group := a * 262144 + b * 4096 + c * 64 + d
    packOnto (UInt8.ofNat (group % 256) :: UInt8.ofNat (group / 256 % 256) ::
      UInt8.ofNat (group / 65536) :: written) rest
  | [a, b, c] =>
    let group := a * 1024 + b * 16 + c / 4
    (UInt8.ofNat (group % 256) :: UInt8.ofNat (group / 256) :: written).reverse
  | [a, b] => (UInt8.ofNat (a * 4 + b / 16) :: written).reverse
  | _ => written.reverse

/-- Splits off the symbols at the front, as sextets, behind sextets already read in reverse. -/
def spanSymbols (read : List Nat) : Octets → List Nat × Octets
  | [] => (read.reverse, [])
  | octet :: rest =>
    match sextet? octet with
    | some sextet => spanSymbols (sextet :: read) rest
    | none => (read.reverse, octet :: rest)

/-- What a length of `4 n + 1` octets is answered with: the last octet if it is neither a symbol nor
a pad is to blame, else the length. -/
def overhangFault (octets : Octets) : DecodingFault :=
  match octets.getLast? with
  | some last =>
    if last ≠ pad ∧ sextet? last = none then .invalidByte (octets.length - 1) last
    else .invalidLength
  | none => .invalidLength

/-- Reads octets without line breaks. Pads may only close the last group, behind two or three
symbols of it. -/
def decodeOctets (octets : Octets) : Except DecodingFault Octets :=
  if octets.length % 4 = 1 then .error (overhangFault octets)
  else
    let (sextets, rest) := spanSymbols [] octets
    let inGroup := sextets.length % 4
    match rest with
    | [] =>
      if inGroup = 0 then .ok (packOnto [] sextets) else .error .invalidPadding
    | octet :: _ =>
      if 2 ≤ inGroup ∧ inGroup + rest.length ≤ 4 ∧ rest.all (· == pad) then
        if inGroup + rest.length = 4 then .ok (packOnto [] sextets)
        else .error .invalidPadding
      else .error (.invalidByte sextets.length octet)

/-- Reads a base64 text, with line breaks anywhere. -/
def decode (text : String) : Except DecodingFault Octets :=
  decodeOctets ((Octets.ofText text).filter fun octet => !isLineBreak octet)

end Signet.Base64
