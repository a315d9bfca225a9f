import Mathlib.Algebra.Group.Nat.Defs
import Signet.Octets

/-!
# Bits

The bits of a number stand with the most significant first, and the bits of octets are those of one
octet behind the other. A run of bits splits at every place (`bitsOf_add`), so that bits may be
grouped by eights or by sixes, and octets are determined by their bits (`Octets.bits_inj`).
-/

namespace Signet

/-- The lowest bits of a number, most significant first. -/
def bitsOf (width number : Nat) : List Bool :=
  (List.range width).reverse.map number.testBit

theorem length_bitsOf (width number : Nat) : (bitsOf width number).length = width := by
  simp [bitsOf]

/-- The bits above a place and the bits from it down. -/
theorem bitsOf_add (above below number : Nat) :
    bitsOf (above + below) number = bitsOf above (number / 2 ^ below) ++ bitsOf below number := by
  have places : List.range (above + below) =
      List.range below ++ (List.range above).map (below + ·) := by
    rw [Nat.add_comm, List.range_add]
  have shifted (place : Nat) : number.testBit (below + place) =
      (number / 2 ^ below).testBit place := by
    rw [Nat.testBit_div_two_pow, Nat.add_comm]
  simp [bitsOf, places, List.map_reverse, Function.comp_def, shifted]

/-- Only the lowest bits matter. -/
theorem bitsOf_mod (width number : Nat) :
    bitsOf width (number % 2 ^ width) = bitsOf width number := by
  unfold bitsOf
  refine List.map_congr_left fun place isPlace => ?_
  have inside : place < width := by simpa using isPlace
  simp [Nat.testBit_mod_two_pow, inside]

/-- What stands above the lowest bits does not matter. -/
theorem bitsOf_mul_add (width high low : Nat) :
    bitsOf width (high * 2 ^ width + low) = bitsOf width low := by
  rw [← bitsOf_mod, Nat.mul_add_mod_self_right, bitsOf_mod]

/-- A number is determined by as many bits as it has. -/
theorem bitsOf_inj {width number other : Nat} (number_lt : number < 2 ^ width)
    (other_lt : other < 2 ^ width) (same : bitsOf width number = bitsOf width other) :
    number = other := by
  refine Nat.eq_of_testBit_eq fun place => ?_
  by_cases inside : place < width
  · have agree := List.map_inj_left.mp same place
    exact agree (by simpa using inside)
  · have le : 2 ^ width ≤ 2 ^ place := Nat.pow_le_pow_right (by decide) (Nat.not_lt.mp inside)
    rw [Nat.testBit_lt_two_pow (Nat.lt_of_lt_of_le number_lt le),
      Nat.testBit_lt_two_pow (Nat.lt_of_lt_of_le other_lt le)]

namespace Octets

/-- The bits of octets, one octet behind the other. -/
def bits (octets : Octets) : List Bool :=
  octets.flatMap fun octet => bitsOf 8 octet.toNat

theorem bits_nil : bits [] = [] := rfl

theorem bits_append (octets others : Octets) :
    (octets ++ others).bits = octets.bits ++ others.bits :=
  List.flatMap_append

theorem bits_cons (octet : UInt8) (octets : Octets) :
    bits (octet :: octets) = bitsOf 8 octet.toNat ++ octets.bits :=
  List.flatMap_cons

theorem bitsOf_ofNat (number : Nat) : bitsOf 8 (UInt8.ofNat number).toNat = bitsOf 8 number := by
  rw [UInt8.toNat_ofNat']
  exact bitsOf_mod 8 number

theorem length_bits (octets : Octets) : octets.bits.length = 8 * octets.length := by
  induction octets with
  | nil => rfl
  | cons octet octets ih =>
    rw [bits_cons, List.length_append, length_bitsOf, ih, List.length_cons]
    omega

/-- Octets are determined by their bits. -/
theorem bits_inj {octets others : Octets} (same : octets.bits = others.bits) : octets = others := by
  induction octets generalizing others with
  | nil =>
    cases others with
    | nil => rfl
    | cons other others =>
      have lengths := congrArg List.length same
      simp [length_bits] at lengths
  | cons octet octets ih =>
    cases others with
    | nil =>
      have lengths := congrArg List.length same
      simp [length_bits] at lengths
    | cons other others =>
      rw [bits_cons, bits_cons] at same
      obtain ⟨first, rest⟩ := List.append_inj same (by simp only [length_bitsOf])
      have equal := bitsOf_inj octet.toNat_lt other.toNat_lt first
      rw [UInt8.toNat_inj.mp equal, ih rest]

end Octets

end Signet
