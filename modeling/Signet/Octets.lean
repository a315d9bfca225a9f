/-!
# Octet strings

Digests, signatures, keys and request bodies are strings of octets. This module holds their two
other forms: the text that they write in UTF-8, and the number that they write in base 256, most
significant octet first. `Octets.utf8Fault?` says where octets stop being UTF-8 and how much of the
text is to blame.
-/

namespace Signet

abbrev Octets := List UInt8

namespace Octets

/-! ## Digits -/

def hexValue? (octet : UInt8) : Option Nat :=
  if 48 ≤ octet ∧ octet ≤ 57 then some (octet.toNat - 48)
  else if 65 ≤ octet ∧ octet ≤ 70 then some (octet.toNat - 55)
  else if 97 ≤ octet ∧ octet ≤ 102 then some (octet.toNat - 87)
  else none

/-! ## Texts -/

/-- The UTF-8 form of a text. -/
def ofText (text : String) : Octets :=
  text.toUTF8.data.toList

/-- The text whose UTF-8 form the octets are, if they are one. -/
def toText? (octets : Octets) : Option String :=
  String.fromUTF8? ⟨octets.toArray⟩

theorem toText?_ofText (text : String) : (ofText text).toText? = some text := by
  unfold toText? ofText
  rw [Array.toArray_toList]
  exact dif_pos text.isValidUTF8

/-- Where octets stop being UTF-8: after `validUpTo` octets stands a sequence of which `length`
octets cannot start any character, or, where `length` is missing, a character that the end cuts
short. -/
structure Utf8Fault where
  validUpTo : Nat
  length : Option Nat
  deriving DecidableEq, Repr

def Utf8Fault.message (fault : Utf8Fault) : String :=
  match fault.length with
  | some length =>
    s!"invalid utf-8 sequence of {length} bytes from index {fault.validUpTo}"
  | none => s!"incomplete utf-8 byte sequence from index {fault.validUpTo}"

/-- What must follow the lead octet of a character: the bounds of the second octet, and how many
further continuation octets there are. -/
def continuation? (lead : UInt8) : Option (UInt8 × UInt8 × Nat) :=
  if 0xC2 ≤ lead ∧ lead ≤ 0xDF then some (0x80, 0xBF, 0)
  else if lead = 0xE0 then some (0xA0, 0xBF, 1)
  else if lead = 0xED then some (0x80, 0x9F, 1)
  else if 0xE1 ≤ lead ∧ lead ≤ 0xEF then some (0x80, 0xBF, 1)
  else if lead = 0xF0 then some (0x90, 0xBF, 2)
  else if 0xF1 ≤ lead ∧ lead ≤ 0xF3 then some (0x80, 0xBF, 2)
  else if lead = 0xF4 then some (0x80, 0x8F, 2)
  else none

/-- Reads octets of a character one by one, each within its bounds. The answer is the octets after
the character, or what `Utf8Fault.length` says when it breaks after `seen` octets. -/
def afterContinuation (low high : UInt8) (seen : Nat) :
    (more : Nat) → Octets → Except (Option Nat) Octets
  | _, [] => .error none
  | more, octet :: rest =>
    if low ≤ octet ∧ octet ≤ high then
      match more with
      | 0 => .ok rest
      | more + 1 => afterContinuation 0x80 0xBF (seen + 1) more rest
    else .error (some seen)

def utf8Fault? (octets : Octets) : Option Utf8Fault :=
  go octets.length 0 octets
where
  /-- Looks for the fault behind `valid` octets, with at least as much fuel as octets are left. -/
  go : (fuel : Nat) → (valid : Nat) → Octets → Option Utf8Fault
    | 0, _, _ => none
    | _, _, [] => none
    | fuel + 1, valid, lead :: rest =>
      if lead < 0x80 then go fuel (valid + 1) rest
      else
        match continuation? lead with
        | none => some ⟨valid, some 1⟩
        | some (low, high, more) =>
          match afterContinuation low high 1 more rest with
          | .error length => some ⟨valid, length⟩
          | .ok rest => go fuel (valid + more + 2) rest

/-! ## Numbers -/

/-- The number that octets write in base 256, most significant first. -/
def toNat (octets : Octets) : Nat :=
  octets.foldl (fun number octet => number * 256 + octet.toNat) 0

/-- The last `length` digits of a number in base 256, most significant first. -/
def ofNat : (length : Nat) → (number : Nat) → Octets
  | 0, _ => []
  | length + 1, number => ofNat length (number / 256) ++ [UInt8.ofNat (number % 256)]

theorem length_ofNat (length number : Nat) : (ofNat length number).length = length := by
  induction length generalizing number with
  | zero => rfl
  | succ length ih => simp [ofNat, ih]

end Octets

end Signet
