import Mathlib.Data.Nat.Size
import Mathlib.Tactic.Ring
import Signet.Octets

/-!
# Octets as numbers

Octets are the digits of a number in base 256, most significant first. The number of two strings of
octets, one behind the other, is made of the numbers of both (`Octets.toNat_append`), digits that
are written are read back (`Octets.toNat_ofNat`), and strings of one length are told apart by their
numbers (`Octets.toNat_inj`).
-/

namespace Signet.Octets

theorem foldl_toNat (start : Nat) (octets : Octets) :
    octets.foldl (fun number octet => number * 256 + octet.toNat) start =
      start * 256 ^ octets.length + octets.toNat := by
  unfold toNat
  induction octets generalizing start with
  | nil => simp
  | cons octet octets ih =>
    rw [List.foldl_cons, List.foldl_cons, ih, ih (0 * 256 + _), List.length_cons]
    ring

theorem toNat_append (octets others : Octets) :
    (octets ++ others).toNat = octets.toNat * 256 ^ others.length + others.toNat := by
  rw [toNat, List.foldl_append, foldl_toNat]
  rfl

theorem toNat_cons (octet : UInt8) (octets : Octets) :
    toNat (octet :: octets) = octet.toNat * 256 ^ octets.length + octets.toNat := by
  rw [toNat, List.foldl_cons, foldl_toNat]
  simp

theorem toNat_singleton (octet : UInt8) : toNat [octet] = octet.toNat := by
  simp [toNat]

theorem toNat_lt (octets : Octets) : octets.toNat < 256 ^ octets.length := by
  induction octets with
  | nil => decide
  | cons octet octets ih =>
    have digit : octet.toNat + 1 ≤ 256 := octet.toNat_lt
    calc toNat (octet :: octets)
      _ = octet.toNat * 256 ^ octets.length + toNat octets := toNat_cons _ _
      _ < (octet.toNat + 1) * 256 ^ octets.length := by rw [Nat.succ_mul]; omega
      _ ≤ 256 * 256 ^ octets.length := Nat.mul_le_mul_right _ digit
      _ = 256 ^ (octets.length + 1) := (Nat.pow_succ' ..).symm

/-- As many digits of a number as are written are read back. -/
theorem toNat_ofNat (length number : Nat) :
    (ofNat length number).toNat = number % 256 ^ length := by
  induction length generalizing number with
  | zero => exact (Nat.mod_one number).symm
  | succ length ih =>
    have digit : (UInt8.ofNat (number % 256)).toNat = number % 256 :=
      UInt8.toNat_ofNat_of_lt (Nat.mod_lt _ (by decide))
    rw [ofNat, toNat_append, ih, toNat_singleton, digit, List.length_singleton, Nat.pow_one,
      Nat.pow_succ', Nat.mod_mul]
    ring

theorem toNat_ofNat_of_lt_pow {length number : Nat} (fits : number < 256 ^ length) :
    (ofNat length number).toNat = number := by
  rw [toNat_ofNat, Nat.mod_eq_of_lt fits]

/-- A number has no more bits than its octets. -/
theorem size_toNat_le (octets : Octets) : octets.toNat.size ≤ 8 * octets.length := by
  rw [Nat.size_le, Nat.pow_mul]
  exact toNat_lt octets

/-- A number that has no more bits than there are places is read back. -/
theorem toNat_ofNat_of_size {length number : Nat} (fits : number.size ≤ 8 * length) :
    (ofNat length number).toNat = number := by
  rw [Nat.size_le, Nat.pow_mul] at fits
  exact toNat_ofNat_of_lt_pow fits

/-- Strings of one length are told apart by their numbers. -/
theorem toNat_inj {octets others : Octets} (length : octets.length = others.length)
    (same : octets.toNat = others.toNat) : octets = others := by
  induction octets generalizing others with
  | nil => exact (List.eq_nil_of_length_eq_zero length.symm).symm
  | cons octet octets ih =>
    cases others with
    | nil => exact nomatch length
    | cons other others =>
      have lengths : octets.length = others.length := Nat.succ.inj length
      rw [toNat_cons, toNat_cons, lengths] at same
      have rest : toNat octets < 256 ^ others.length := lengths ▸ toNat_lt octets
      -- Both numbers are a multiple of one power and a rest below it.
      have unique (digit : Nat) {number : Nat} (below : number < 256 ^ others.length) :
          (digit * 256 ^ others.length + number) / 256 ^ others.length = digit ∧
            (digit * 256 ^ others.length + number) % 256 ^ others.length = number := by
        refine ⟨?_, Nat.mul_add_mod_of_lt below⟩
        rw [Nat.mul_comm, Nat.mul_add_div (Nat.pow_pos (by decide)),
          Nat.div_eq_of_lt below, Nat.add_zero]
      obtain ⟨digit, number⟩ := unique octet.toNat rest
      obtain ⟨otherDigit, otherNumber⟩ := unique other.toNat (toNat_lt others)
      rw [same] at digit number
      rw [UInt8.toNat_inj.mp (digit.symm.trans otherDigit),
        ih lengths (number.symm.trans otherNumber)]

end Signet.Octets
