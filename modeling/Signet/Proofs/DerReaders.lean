import Signet.Der
import Signet.Proofs.Numbers

/-!
# Reading DER

Strict readers for the forms of the distinguished encoding. Each takes its element from the front of
octets and leaves what stands behind; lengths and numbers must be in their shortest form. What is
written is read back, whatever stands behind it: lengths (`Der.readLength?_length`), elements
(`Der.readElement?_element`) and numbers (`Der.readInteger?_integer`). All this holds of contents
with less than `2 ^ 64` octets, which is said of them as `Der.IsShort`. And what is read is what
would have been written: there is no second form that is taken, neither of elements
(`Der.eq_of_readElement?`) nor of numbers (`Der.eq_of_readInteger?`).
-/

namespace Signet.Der

/-! ## Readers -/

/-- Takes the length of a content. -/
def readLength? : Octets → Option (Nat × Octets)
  | [] => none
  | lead :: rest =>
    if lead < 128 then some (lead.toNat, rest)
    else
      let count := lead.toNat - 128
      let digits := rest.take count
      if digits.length = count ∧ digits.headD 0 ≠ 0 ∧ 128 ≤ Octets.toNat digits then
        some (Octets.toNat digits, rest.drop count)
      else none

/-- Takes an element with a tag. The answer is its content, and what stands behind it. -/
def readElement? (tag : UInt8) : Octets → Option (Octets × Octets)
  | [] => none
  | lead :: rest =>
    if lead = tag then
      match readLength? rest with
      | some (length, rest) =>
        if length ≤ rest.length then some (rest.take length, rest.drop length) else none
      | none => none
    else none

/-- The unsigned number that octets stand for as the content of an integer. -/
def readMagnitude? : Octets → Option Nat
  | [] => none
  | [digit] => if digit < 128 then some digit.toNat else none
  | first :: second :: rest =>
    if first < 128 ∧ (first = 0 → 128 ≤ second) then
      some (Octets.toNat (first :: second :: rest))
    else none

/-- Takes an unsigned number. -/
def readInteger? (octets : Octets) : Option (Nat × Octets) := do
  let (content, rest) ← readElement? 0x02 octets
  let number ← readMagnitude? content
  return (number, rest)

/-- Takes a string of bits that are whole octets. -/
def readBitString? (octets : Octets) : Option (Octets × Octets) := do
  let (content, rest) ← readElement? 0x03 octets
  match content with
  | 0 :: bits => return (bits, rest)
  | _ => none

/-- What has been taken, if nothing stands behind it. -/
def whole? {α : Type} : Option (α × Octets) → Option α
  | some (content, []) => some content
  | _ => none

/-! ## Magnitudes -/

theorem lt_pow_magnitude (number : Nat) : number < 256 ^ (number.log2 / 8 + 1) := by
  calc number < 2 ^ (number.log2 + 1) := Nat.lt_log2_self
    _ ≤ 2 ^ (8 * (number.log2 / 8 + 1)) := Nat.pow_le_pow_right (by decide) (by omega)
    _ = 256 ^ (number.log2 / 8 + 1) := Nat.pow_mul 2 8 _

theorem toNat_magnitude (number : Nat) : (magnitude number).toNat = number :=
  Octets.toNat_ofNat_of_lt_pow (lt_pow_magnitude number)

theorem length_magnitude (number : Nat) : (magnitude number).length = number.log2 / 8 + 1 :=
  Octets.length_ofNat _ _

/-- A magnitude has no leading zeros. -/
theorem headD_magnitude {number : Nat} (positive : 0 < number) :
    (magnitude number).headD 0 ≠ 0 := by
  intro isZero
  have value := toNat_magnitude number
  have length := length_magnitude number
  cases digits : magnitude number with
  | nil =>
    rw [digits] at length
    exact nomatch length
  | cons digit rest =>
    rw [digits] at isZero value length
    have digit_eq : digit = 0 := isZero
    rw [digit_eq, Octets.toNat_cons, UInt8.toNat_zero, Nat.zero_mul, Nat.zero_add] at value
    have rest_length : rest.length = number.log2 / 8 := Nat.succ.inj length
    have below : number < number := by
      calc number = Octets.toNat rest := value.symm
        _ < 256 ^ (number.log2 / 8) := rest_length ▸ Octets.toNat_lt rest
        _ = 2 ^ (8 * (number.log2 / 8)) := (Nat.pow_mul 2 8 _).symm
        _ ≤ 2 ^ number.log2 := Nat.pow_le_pow_right (by decide) (by omega)
        _ ≤ number := Nat.log2_self_le positive.ne'
    exact Nat.lt_irrefl _ below

/-! ## Elements -/

/-- That a content is as short as all contents are. -/
def IsShort (content : Octets) : Prop :=
  content.length < 2 ^ 64

theorem IsShort.length_magnitude_le {content : Octets} (short : IsShort content) :
    (magnitude content.length).length ≤ 8 := by
  rw [length_magnitude]
  have log : content.length.log2 < 64 ∨ content.length = 0 := by
    by_cases empty : content.length = 0
    · exact Or.inr empty
    · exact Or.inl ((Nat.log2_lt empty).mpr short)
  rcases log with log | empty
  · omega
  · rw [empty]
    decide

theorem readLength?_length {content : Octets} (short : IsShort content) (rest : Octets) :
    readLength? (length content ++ rest) = some (content.length, rest) := by
  unfold length
  by_cases small : content.length < 128
  · have isLead : (UInt8.ofNat content.length).toNat = content.length :=
      UInt8.toNat_ofNat_of_lt (Nat.lt_trans small (by decide))
    have isSmall : UInt8.ofNat content.length < 128 := by
      rw [UInt8.lt_iff_toNat_lt, isLead]
      exact small
    rw [if_pos small, List.singleton_append, readLength?, if_pos isSmall, isLead]
  · have few := short.length_magnitude_le
    have isLead : (UInt8.ofNat (128 + (magnitude content.length).length)).toNat =
        128 + (magnitude content.length).length :=
      UInt8.toNat_ofNat_of_lt (Nat.lt_of_le_of_lt (Nat.add_le_add_left few 128) (by decide))
    have notSmall : ¬ UInt8.ofNat (128 + (magnitude content.length).length) < 128 := by
      rw [UInt8.lt_iff_toNat_lt, isLead]
      exact Nat.not_lt.mpr (Nat.le_add_right _ _)
    have isMagnitude : (magnitude content.length).length = (magnitude content.length).length ∧
        (magnitude content.length).headD 0 ≠ 0 ∧ 128 ≤ (magnitude content.length).toNat :=
      ⟨rfl, headD_magnitude (by omega), by rw [toNat_magnitude]; omega⟩
    rw [if_neg small]
    dsimp only
    rw [List.cons_append, readLength?, if_neg notSmall, isLead, Nat.add_sub_cancel_left]
    dsimp only
    rw [List.take_left, List.drop_left, if_pos isMagnitude, toNat_magnitude]

/-- An element that is written is taken, whatever stands behind it. -/
theorem readElement?_element {content : Octets} (short : IsShort content) (tag : UInt8)
    (rest : Octets) : readElement? tag (element tag content ++ rest) = some (content, rest) := by
  have fits : content.length ≤ (content ++ rest).length := by
    rw [List.length_append]
    exact Nat.le_add_right _ _
  have opened : element tag content ++ rest = tag :: (length content ++ (content ++ rest)) := by
    unfold element
    rw [List.append_assoc, List.cons_append]
  rw [opened, readElement?, if_pos rfl, readLength?_length short]
  dsimp only
  rw [if_pos fits, List.take_left, List.drop_left]

/-- A whole element is taken. -/
theorem readElement?_element_alone {content : Octets} (short : IsShort content) (tag : UInt8) :
    readElement? tag (element tag content) = some (content, []) := by
  have alone := readElement?_element short tag []
  rwa [List.append_nil] at alone

/-- A content of less than 128 octets stands behind its tag and one octet for its length. -/
theorem element_of_lt {content : Octets} (few : content.length < 128) (tag : UInt8) :
    element tag content = tag :: UInt8.ofNat content.length :: content := by
  unfold element length
  rw [if_pos few]
  rfl

theorem readBitString?_bitString {octets : Octets} (short : IsShort (0 :: octets)) :
    readBitString? (bitString octets) = some (octets, []) := by
  unfold bitString readBitString?
  rw [readElement?_element_alone short]
  rfl

theorem length_element_le {content : Octets} (short : IsShort content) (tag : UInt8) :
    (element tag content).length ≤ content.length + 10 := by
  have few := short.length_magnitude_le
  unfold element length
  split
  · simp
  · simp
    omega

theorem sequence_pair (first second : Octets) :
    sequence [first, second] = element 0x30 (first ++ second) := by
  rw [sequence, List.flatten_cons, List.flatten_singleton]

/-! ## Numbers -/

/-- The content of an unsigned number. -/
theorem exists_integer (number : Nat) : ∃ content, integer number = element 0x02 content ∧
    readMagnitude? content = some number ∧ content.length ≤ number.log2 / 8 + 2 := by
  have value := toNat_magnitude number
  have length := length_magnitude number
  refine ⟨_, rfl, ?_, ?_⟩
  · cases digits : magnitude number with
    | nil =>
      rw [digits] at length
      exact nomatch length
    | cons first rest =>
      rw [digits] at value length
      by_cases low : first < 128
      · rw [List.headD_cons, if_pos low]
        cases rest with
        | nil =>
          rw [readMagnitude?, if_pos low, ← value, Octets.toNat_singleton]
        | cons second rest =>
          have notZero : first ≠ 0 := by
            have positive : 0 < number := by
              by_contra none
              rw [Nat.eq_zero_of_not_pos none] at length
              exact nomatch length
            have head := headD_magnitude positive
            rwa [digits, List.headD_cons] at head
          rw [readMagnitude?, if_pos ⟨low, fun isZero => absurd isZero notZero⟩, value]
      · have high : 128 ≤ first := UInt8.not_lt.mp low
        rw [List.headD_cons, if_neg low, readMagnitude?,
          if_pos ⟨by decide, fun _ => high⟩, Octets.toNat_cons, UInt8.toNat_zero, Nat.zero_mul,
          Nat.zero_add, value]
  · split
    · rw [length]
      omega
    · rw [List.length_cons, length]

/-- An unsigned number that is written is taken, whatever stands behind it. -/
theorem readInteger?_integer {number : Nat} (short : number.log2 < 2 ^ 64) (rest : Octets) :
    readInteger? (integer number ++ rest) = some (number, rest) := by
  obtain ⟨content, written, read, length⟩ := exists_integer number
  have isShort : IsShort content := by
    unfold IsShort
    omega
  rw [written, readInteger?, readElement?_element isShort]
  show (readMagnitude? content).bind _ = _
  rw [read]
  rfl

theorem length_integer_le {number : Nat} (short : number.log2 < 2 ^ 32) :
    (integer number).length ≤ 2 ^ 32 := by
  obtain ⟨content, written, -, length⟩ := exists_integer number
  have isShort : IsShort content := by
    unfold IsShort
    omega
  rw [written]
  exact Nat.le_trans (length_element_le isShort _) (by omega)

/-! ## Strictness -/

/-- Digits without a leading zero are the magnitude of their number. -/
theorem magnitude_toNat {digits : Octets} (leads : digits.headD 0 ≠ 0) :
    magnitude digits.toNat = digits := by
  cases digits with
  | nil => exact absurd rfl leads
  | cons first rest =>
    have positive : 0 < first.toNat :=
      Nat.pos_of_ne_zero fun isZero => leads (UInt8.toNat_inj.mp isZero)
    -- The number lies between the powers to the length without the first digit and with it.
    have least : 2 ^ (8 * rest.length) ≤ Octets.toNat (first :: rest) := by
      rw [Octets.toNat_cons, Nat.pow_mul]
      exact Nat.le_add_right_of_le (Nat.le_mul_of_pos_left _ positive)
    have most : Octets.toNat (first :: rest) < 2 ^ (8 * (rest.length + 1)) := by
      rw [Nat.pow_mul]
      exact Octets.toNat_lt (first :: rest)
    have nonzero : Octets.toNat (first :: rest) ≠ 0 :=
      (Nat.lt_of_lt_of_le (Nat.two_pow_pos _) least).ne'
    rw [← Nat.le_log2 nonzero] at least
    rw [← Nat.log2_lt nonzero] at most
    have length : (Octets.toNat (first :: rest)).log2 / 8 = rest.length := by omega
    refine Octets.toNat_inj ?_ (toNat_magnitude _)
    rw [length_magnitude, length, List.length_cons]

/-- A length that is taken stands in its shortest form. -/
theorem eq_of_readLength? {octets rest content : Octets}
    (taken : readLength? octets = some (content.length, rest)) :
    octets = length content ++ rest := by
  cases octets with
  | nil => exact nomatch taken
  | cons lead octets =>
    rw [readLength?] at taken
    unfold length
    by_cases small : lead < 128
    · rw [if_pos small, Option.some.injEq, Prod.mk.injEq] at taken
      obtain ⟨isLength, rfl⟩ := taken
      have few : content.length < 128 := isLength ▸ UInt8.lt_iff_toNat_lt.mp small
      rw [if_pos few, ← isLength, UInt8.ofNat_toNat]
      rfl
    · rw [if_neg small] at taken
      dsimp only at taken
      split at taken
      next shortest =>
        rw [Option.some.injEq, Prod.mk.injEq] at taken
        obtain ⟨isLength, rfl⟩ := taken
        obtain ⟨count, leads, long⟩ := shortest
        have large : 128 ≤ lead.toNat := UInt8.le_iff_toNat_le.mp (UInt8.not_lt.mp small)
        have isLead : 128 + (octets.take (lead.toNat - 128)).length = lead.toNat := by
          rw [count, Nat.add_sub_cancel' large]
        rw [isLength] at long
        rw [if_neg (Nat.not_lt.mpr long), ← isLength]
        dsimp only
        rw [magnitude_toNat leads, isLead, UInt8.ofNat_toNat, List.cons_append,
          List.take_append_drop]
      next => cases taken

/-- An element that is taken stands in its only form. -/
theorem eq_of_readElement? {tag : UInt8} {octets content rest : Octets}
    (taken : readElement? tag octets = some (content, rest)) :
    octets = element tag content ++ rest := by
  cases octets with
  | nil => exact nomatch taken
  | cons lead octets =>
    rw [readElement?] at taken
    by_cases isTag : lead = tag
    · rw [if_pos isTag] at taken
      cases isLength : readLength? octets with
      | none =>
        rw [isLength] at taken
        cases taken
      | some found =>
        obtain ⟨number, behind⟩ := found
        rw [isLength] at taken
        dsimp only at taken
        split at taken
        next enough =>
          rw [Option.some.injEq, Prod.mk.injEq] at taken
          obtain ⟨rfl, rfl⟩ := taken
          rw [← List.length_take_of_le enough] at isLength
          rw [eq_of_readLength? isLength, isTag, element, List.cons_append, List.cons_append,
            List.append_assoc, List.take_append_drop]
        next => cases taken
    · rw [if_neg isTag] at taken
      cases taken

/-- The content of a number that is taken is that of the number. -/
theorem integer_of_readMagnitude? {content : Octets} {number : Nat}
    (taken : readMagnitude? content = some number) : integer number = element 0x02 content := by
  have written (digits : Octets) (leads : digits.headD 0 ≠ 0) : integer digits.toNat =
      element 0x02 (if digits.headD 0 < 128 then digits else 0 :: digits) := by
    rw [integer, magnitude_toNat leads]
  match content with
  | [] => cases taken
  | [digit] =>
    rw [readMagnitude?] at taken
    split at taken
    next low =>
      cases taken
      by_cases isZero : digit = 0
      · rw [isZero]
        rfl
      · have digits := written [digit] isZero
        rw [Octets.toNat_singleton, List.headD_cons, if_pos low] at digits
        exact digits
    next => cases taken
  | first :: second :: rest =>
    rw [readMagnitude?] at taken
    split at taken
    next shortest =>
      cases taken
      obtain ⟨low, behindZero⟩ := shortest
      by_cases isZero : first = 0
      · have high : 128 ≤ second := behindZero isZero
        have leads : second ≠ 0 := by
          intro isZero
          rw [isZero] at high
          exact absurd high (by decide)
        have digits := written (second :: rest) leads
        rw [List.headD_cons, if_neg (UInt8.not_lt.mpr high)] at digits
        rw [isZero, Octets.toNat_cons, UInt8.toNat_zero, Nat.zero_mul, Nat.zero_add]
        exact digits
      · have digits := written (first :: second :: rest) isZero
        rw [List.headD_cons, if_pos low] at digits
        exact digits
    next => cases taken

/-- A number that is taken stands in its only form. -/
theorem eq_of_readInteger? {octets rest : Octets} {number : Nat}
    (taken : readInteger? octets = some (number, rest)) : octets = integer number ++ rest := by
  unfold readInteger? at taken
  obtain ⟨⟨content, behind⟩, isElement, taken⟩ := Option.bind_eq_some_iff.mp taken
  obtain ⟨found, isMagnitude, taken⟩ := Option.bind_eq_some_iff.mp taken
  cases taken
  rw [eq_of_readElement? isElement, integer_of_readMagnitude? isMagnitude]

/-- What is taken whole leaves nothing. -/
theorem eq_of_whole? {α : Type} {taken : Option (α × Octets)} {content : α}
    (whole : whole? taken = some content) : taken = some (content, []) := by
  unfold whole? at whole
  split at whole
  · cases whole
    rfl
  · cases whole

end Signet.Der
