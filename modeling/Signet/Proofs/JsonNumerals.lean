import Signet.Proofs.JsonTextReading

/-!
# Numerals

A numeral is a sign, digits, a fraction and an exponent, of which only the digits have to be there.
Skipping takes just a numeral (`Json.Number.exists_isNumeral_of_skip`), and takes all of it wherever
it ends (`Json.Number.IsNumeral.leaves_skip`): whether one numeral goes on or ends can be told from
the octet behind it.
-/

namespace Signet.Json.Number

open Cursor (exists_skipWhile skipWhile_append rest_of_peek?)

/-! ## The form of numerals -/

def AreDigits (octets : Octets) : Prop :=
  ∀ octet ∈ octets, isDigit octet = true

/-- The digits of a whole number do not start with a zero, unless this is all. -/
inductive IsWhole : Octets → Prop
  | zero : IsWhole [48]
  | digits {first : UInt8} {others : Octets} :
    isDigit first = true → first ≠ 48 → AreDigits others → IsWhole (first :: others)

/-- Digits behind a point, or nothing. -/
inductive IsFraction : Octets → Prop
  | nothing : IsFraction []
  | digits {first : UInt8} {others : Octets} :
    isDigit first = true → AreDigits others → IsFraction (46 :: first :: others)

/-- Digits behind a letter `e` of either case and perhaps a sign, or nothing. -/
inductive IsExponent : Octets → Prop
  | nothing : IsExponent []
  | digits {letter first : UInt8} {sign others : Octets} :
    letter = 101 ∨ letter = 69 → sign ∈ [[], [43], [45]] → isDigit first = true →
    AreDigits others → IsExponent (letter :: (sign ++ first :: others))

inductive IsNumeral : Octets → Prop
  | parts {sign whole fraction exponent : Octets} :
    sign ∈ [[], [45]] → IsWhole whole → IsFraction fraction → IsExponent exponent →
    IsNumeral (sign ++ (whole ++ (fraction ++ exponent)))

/-- Whether a numeral can go on with an octet: a digit, a point or a letter `e`. -/
def goesOn (octet : UInt8) : Bool :=
  isDigit octet || octet == 46 || octet == 101 || octet == 69

/-- That what stands behind a numeral does not go on with it. -/
def Ends (rest : Octets) : Prop :=
  ∀ octet ∈ rest.head?, goesOn octet = false

theorem of_not_goesOn {octet : UInt8} (ends : goesOn octet = false) :
    isDigit octet = false ∧ octet ≠ 46 ∧ octet ≠ 101 ∧ octet ≠ 69 := by
  simp only [goesOn, Bool.or_eq_false_iff, beq_eq_false_iff_ne] at ends
  exact ⟨ends.1.1.1, ends.1.1.2, ends.1.2, ends.2⟩

theorem Ends.noDigit {rest : Octets} (ends : Ends rest) :
    ∀ octet ∈ rest.head?, isDigit octet = false :=
  fun octet isFirst => (of_not_goesOn (ends octet isFirst)).1

/-- The first octet of a numeral is a digit or a minus. -/
theorem IsNumeral.exists_cons {numeral : Octets} (isNumeral : IsNumeral numeral) :
    ∃ first others, numeral = first :: others ∧ (isDigit first = true ∨ first = 45) := by
  obtain ⟨isSign, isWhole, -, -⟩ := isNumeral
  simp only [List.mem_cons, List.not_mem_nil, or_false] at isSign
  rcases isSign with rfl | rfl
  · cases isWhole with
    | zero => exact ⟨48, _, rfl, .inl rfl⟩
    | digits isFirst => exact ⟨_, _, rfl, .inl isFirst⟩
  · exact ⟨45, _, rfl, .inr rfl⟩

/-! ## Digits -/

theorem digit?_cons {octet : UInt8} (place : Place) (rest : Octets) :
    digit? ⟨place, octet :: rest⟩ =
      if isDigit octet then some (octet.toNat - 48) else none := rfl

theorem digit?_eq_none {rest : Octets} (noDigit : ∀ octet ∈ rest.head?, isDigit octet = false)
    (place : Place) : digit? ⟨place, rest⟩ = none := by
  rcases rest with _ | ⟨first, rest⟩
  · rfl
  · rw [digit?_cons, noDigit first rfl]
    rfl

theorem exists_of_digit? {cursor : Cursor} {digit : Nat} (isNext : digit? cursor = some digit) :
    ∃ octet, isDigit octet = true ∧ cursor.rest = octet :: cursor.advance.rest ∧
      digit = octet.toNat - 48 := by
  obtain ⟨place, _ | ⟨octet, rest⟩⟩ := cursor
  · cases isNext
  rw [digit?_cons] at isNext
  split at isNext
  next isDigit =>
    cases isNext
    exact ⟨octet, isDigit, rfl, rfl⟩
  next => cases isNext

/-- Only the octet `0` is the digit zero. -/
theorem toNat_sub_eq_zero_iff {octet : UInt8} (isDigit : isDigit octet = true) :
    octet.toNat - 48 = 0 ↔ octet = 48 := by
  simp only [Number.isDigit, Bool.and_eq_true, decide_eq_true_eq, UInt8.le_iff_toNat_le] at isDigit
  have low : (48 : UInt8).toNat = 48 := rfl
  rw [← UInt8.toNat_inj]
  omega

theorem skipDigits_append {digits rest : Octets} (areDigits : AreDigits digits)
    (noDigit : ∀ octet ∈ rest.head?, isDigit octet = false) (place : Place) :
    skipDigits ⟨place, digits ++ rest⟩ = ⟨place.past digits, rest⟩ :=
  skipWhile_append areDigits noDigit place

theorem skipDigits_cons {first : UInt8} {others rest : Octets} (isFirst : isDigit first = true)
    (areDigits : AreDigits others) (noDigit : ∀ octet ∈ rest.head?, isDigit octet = false)
    (place : Place) :
    skipDigits ⟨place, first :: (others ++ rest)⟩ = ⟨place.past (first :: others), rest⟩ :=
  skipDigits_append (List.forall_mem_cons.mpr ⟨isFirst, areDigits⟩) noDigit place

/-- Where a digit stands, at least this one is skipped. -/
theorem exists_of_skipDigits {cursor : Cursor} (isNext : (digit? cursor).isSome = true) :
    ∃ first others, isDigit first = true ∧ AreDigits others ∧
      cursor.rest = first :: (others ++ (skipDigits cursor).rest) := by
  obtain ⟨digit, isNext⟩ := Option.isSome_iff_exists.mp isNext
  obtain ⟨first, isFirst, isRest, -⟩ := exists_of_digit? isNext
  obtain ⟨front, split, areDigits, stops⟩ := exists_skipWhile isDigit cursor
  rcases front with _ | ⟨octet, others⟩
  · rw [List.nil_append] at split
    rw [← split, isRest] at stops
    rw [stops first rfl] at isFirst
    cases isFirst
  · obtain ⟨isFirst, areOthers⟩ := List.forall_mem_cons.mp areDigits
    exact ⟨octet, others, isFirst, areOthers, split⟩

/-! ## Signs of exponents -/

/-- The cursor behind the sign of an exponent, if there is one. -/
def behindSign (cursor : Cursor) : Cursor :=
  match cursor.peek? with
  | some 43 | some 45 => cursor.advance
  | _ => cursor

theorem skipExponent_eq (cursor : Cursor) :
    skipExponent cursor =
      match digit? (behindSign cursor.advance) with
      | some _ => .ok (skipDigits (behindSign cursor.advance))
      | none => (behindSign cursor.advance).advance.fault .invalidNumber := rfl

theorem exists_sign (cursor : Cursor) :
    ∃ sign, sign ∈ [[], [43], [45]] ∧ cursor.rest = sign ++ (behindSign cursor).rest := by
  unfold behindSign
  split
  next isPlus => exact ⟨[43], by simp, rest_of_peek? isPlus⟩
  next isMinus => exact ⟨[45], by simp, rest_of_peek? isMinus⟩
  next => exact ⟨[], by simp, rfl⟩

/-- The sign of an exponent is moved over up to the first digit. -/
theorem behindSign_append {sign rest : Octets} {first : UInt8} (isSign : sign ∈ [[], [43], [45]])
    (isFirst : isDigit first = true) (place : Place) :
    behindSign ⟨place, sign ++ first :: rest⟩ = ⟨place.past sign, first :: rest⟩ := by
  simp only [List.mem_cons, List.not_mem_nil, or_false] at isSign
  rcases isSign with rfl | rfl | rfl
  · -- A digit is no sign.
    unfold behindSign
    rw [List.nil_append, Cursor.peek?_cons]
    split
    next isPlus =>
      cases isPlus
      cases isFirst
    next isMinus =>
      cases isMinus
      cases isFirst
    next => rfl
  · rfl
  · rfl

/-! ## What is skipped is a numeral -/

theorem exists_isExponent_of_skipExponent {cursor behind : Cursor} {letter : UInt8}
    (isLetter : letter = 101 ∨ letter = 69) (isNext : cursor.peek? = some letter)
    (isSkipped : skipExponent cursor = .ok behind) :
    ∃ exponent, IsExponent exponent ∧ cursor.rest = exponent ++ behind.rest := by
  obtain ⟨sign, isSign, isMiddle⟩ := exists_sign cursor.advance
  rw [skipExponent_eq] at isSkipped
  split at isSkipped
  next digit isDigit =>
    cases isSkipped
    obtain ⟨first, others, isFirst, areDigits, isRest⟩ :=
      exists_of_skipDigits (Option.isSome_iff_exists.mpr ⟨digit, isDigit⟩)
    refine ⟨_, .digits isLetter isSign isFirst areDigits, ?_⟩
    rw [rest_of_peek? isNext, isMiddle, isRest]
    simp
  next => cases isSkipped

theorem exists_isExponent_of_skipEnd {cursor behind : Cursor}
    (isSkipped : skipEnd cursor = .ok behind) :
    ∃ exponent, IsExponent exponent ∧ cursor.rest = exponent ++ behind.rest := by
  unfold skipEnd at isSkipped
  split at isSkipped
  next isLetter =>
    simp only [isAtExponent, Bool.or_eq_true, beq_iff_eq] at isLetter
    rcases isLetter with isSmall | isLarge
    · exact exists_isExponent_of_skipExponent (.inl rfl) isSmall isSkipped
    · exact exists_isExponent_of_skipExponent (.inr rfl) isLarge isSkipped
  next =>
    cases isSkipped
    exact ⟨[], .nothing, rfl⟩

/-- What is skipped behind the digits of a whole number is a fraction and an exponent. -/
theorem exists_of_skipFraction {cursor behind : Cursor}
    (isSkipped : (if cursor.peek? == some 46 then
        if (digit? cursor.advance).isSome then skipEnd (skipDigits cursor.advance)
        else cursor.advance.nextFault .invalidNumber
      else skipEnd cursor) = .ok behind) :
    ∃ fraction exponent, IsFraction fraction ∧ IsExponent exponent ∧
      cursor.rest = fraction ++ (exponent ++ behind.rest) := by
  split at isSkipped
  next isPoint =>
    split at isSkipped
    next isDigit =>
      obtain ⟨first, others, isFirst, areDigits, isMiddle⟩ := exists_of_skipDigits isDigit
      obtain ⟨exponent, isExponent, isRest⟩ := exists_isExponent_of_skipEnd isSkipped
      refine ⟨_, exponent, .digits isFirst areDigits, isExponent, ?_⟩
      rw [rest_of_peek? (eq_of_beq isPoint), isMiddle, isRest]
      simp
    next => cases isSkipped
  next =>
    obtain ⟨exponent, isExponent, isRest⟩ := exists_isExponent_of_skipEnd isSkipped
    exact ⟨[], exponent, .nothing, isExponent, isRest⟩

theorem exists_of_skipUnsigned {cursor behind : Cursor}
    (isSkipped : skipUnsigned cursor = .ok behind) :
    ∃ whole fraction exponent, IsWhole whole ∧ IsFraction fraction ∧ IsExponent exponent ∧
      cursor.rest = whole ++ (fraction ++ (exponent ++ behind.rest)) := by
  unfold skipUnsigned at isSkipped
  split at isSkipped
  next => cases isSkipped
  next digit isNext =>
  dsimp only at isSkipped
  split at isSkipped
  next => cases isSkipped
  obtain ⟨octet, isDigit, isFront, rfl⟩ := exists_of_digit? isNext
  by_cases isZero : octet = 48
  · rw [if_pos ((toNat_sub_eq_zero_iff isDigit).mpr isZero)] at isSkipped
    obtain ⟨fraction, exponent, isFraction, isExponent, isRest⟩ :=
      exists_of_skipFraction isSkipped
    refine ⟨_, fraction, exponent, .zero, isFraction, isExponent, ?_⟩
    rw [isFront, isRest, isZero]
    rfl
  · rw [if_neg fun zero => isZero ((toNat_sub_eq_zero_iff isDigit).mp zero)] at isSkipped
    obtain ⟨others, split, areDigits, -⟩ := exists_skipWhile Number.isDigit cursor.advance
    obtain ⟨fraction, exponent, isFraction, isExponent, isRest⟩ :=
      exists_of_skipFraction isSkipped
    refine ⟨_, fraction, exponent, .digits isDigit isZero areDigits, isFraction, isExponent, ?_⟩
    rw [isFront, split, show (cursor.advance.skipWhile Number.isDigit).rest = _ from isRest]
    rfl

theorem exists_isNumeral_of_skip {cursor behind : Cursor} (isSkipped : skip cursor = .ok behind) :
    ∃ numeral, IsNumeral numeral ∧ cursor.rest = numeral ++ behind.rest := by
  unfold skip at isSkipped
  split at isSkipped
  next isMinus =>
    obtain ⟨whole, fraction, exponent, isWhole, isFraction, isExponent, isRest⟩ :=
      exists_of_skipUnsigned isSkipped
    have isSign : ([45] : Octets) ∈ [[], [45]] := by simp
    refine ⟨_, .parts isSign isWhole isFraction isExponent, ?_⟩
    rw [rest_of_peek? (eq_of_beq isMinus), isRest]
    simp
  next =>
    obtain ⟨whole, fraction, exponent, isWhole, isFraction, isExponent, isRest⟩ :=
      exists_of_skipUnsigned isSkipped
    have isSign : ([] : Octets) ∈ [[], [45]] := by simp
    refine ⟨_, .parts isSign isWhole isFraction isExponent, ?_⟩
    rw [isRest]
    simp

/-! ## A numeral is skipped -/

theorem isAtExponent_cons (place : Place) (octet : UInt8) (rest : Octets) :
    isAtExponent ⟨place, octet :: rest⟩ = (octet == 101 || octet == 69) := rfl

theorem IsExponent.leaves_skipEnd {exponent rest : Octets} (isExponent : IsExponent exponent)
    (ends : Ends rest) (place : Place) : Leaves (skipEnd ⟨place, exponent ++ rest⟩) rest := by
  cases isExponent with
  | nothing =>
    have noLetter : isAtExponent ⟨place, rest⟩ = false := by
      rcases rest with _ | ⟨octet, rest⟩
      · rfl
      · obtain ⟨-, -, notSmall, notLarge⟩ := of_not_goesOn (ends octet rfl)
        rw [isAtExponent_cons, beq_false_of_ne notSmall, beq_false_of_ne notLarge]
        rfl
    unfold skipEnd
    rw [List.nil_append, noLetter]
    exact ⟨place, rfl⟩
  | @digits letter first sign others isLetter isSign isFirst areDigits =>
    have isAt : isAtExponent ⟨place, letter :: (sign ++ first :: others) ++ rest⟩ = true := by
      rw [List.cons_append, isAtExponent_cons]
      rcases isLetter with rfl | rfl <;> rfl
    unfold skipEnd
    rw [isAt, if_pos rfl, skipExponent_eq, List.cons_append, Cursor.advance_cons,
      List.append_assoc, List.cons_append, behindSign_append isSign isFirst, digit?_cons, isFirst,
      skipDigits_cons isFirst areDigits ends.noDigit]
    exact ⟨_, rfl⟩

/-- The octet behind the digits of a numeral is no digit. -/
theorem noDigit_of_parts {fraction exponent rest : Octets} (isFraction : IsFraction fraction)
    (isExponent : IsExponent exponent) (ends : Ends rest) :
    ∀ octet ∈ (fraction ++ (exponent ++ rest)).head?, isDigit octet = false := by
  cases isFraction with
  | nothing =>
    cases isExponent with
    | nothing => exact ends.noDigit
    | digits isLetter =>
      rintro _ ⟨⟩
      rcases isLetter with rfl | rfl <;> rfl
  | digits =>
    rintro _ ⟨⟩
    rfl

theorem IsFraction.leaves_skip {fraction exponent rest : Octets} (isFraction : IsFraction fraction)
    (isExponent : IsExponent exponent) (ends : Ends rest) {cursor : Cursor}
    (isHere : cursor.rest = fraction ++ (exponent ++ rest)) :
    Leaves (if cursor.peek? == some 46 then
        if (digit? cursor.advance).isSome then skipEnd (skipDigits cursor.advance)
        else cursor.advance.nextFault .invalidNumber
      else skipEnd cursor) rest := by
  obtain ⟨place, octets⟩ := cursor
  obtain rfl : octets = _ := isHere
  cases isFraction with
  | nothing =>
    rw [List.nil_append, if_neg]
    · exact isExponent.leaves_skipEnd ends place
    · cases isExponent with
      | nothing =>
        rcases rest with _ | ⟨octet, rest⟩
        · nofun
        · have noPoint := (of_not_goesOn (ends octet rfl)).2.1
          simpa using noPoint
      | digits isLetter =>
        rcases isLetter with rfl | rfl <;> simp
  | @digits first others isFirst areDigits =>
    have noDigit := noDigit_of_parts .nothing isExponent ends
    rw [List.nil_append] at noDigit
    have isSome :
        (digit? ⟨place.after 46, first :: (others ++ (exponent ++ rest))⟩).isSome := by
      rw [digit?_cons, isFirst]
      rfl
    rw [List.cons_append, List.cons_append, Cursor.peek?_cons, if_pos (beq_self_eq_true _),
      Cursor.advance_cons, if_pos isSome, skipDigits_cons isFirst areDigits noDigit]
    exact isExponent.leaves_skipEnd ends _

theorem leaves_skipUnsigned {whole fraction exponent rest : Octets} (isWhole : IsWhole whole)
    (isFraction : IsFraction fraction) (isExponent : IsExponent exponent) (ends : Ends rest)
    (place : Place) :
    Leaves (skipUnsigned ⟨place, whole ++ (fraction ++ (exponent ++ rest))⟩) rest := by
  have noDigit := noDigit_of_parts isFraction isExponent ends
  unfold skipUnsigned
  cases isWhole with
  | zero =>
    have isZero : (48 : UInt8).toNat - 48 = 0 := rfl
    rw [List.singleton_append, digit?_cons, if_pos (by rfl), isZero]
    dsimp only
    rw [Cursor.advance_cons, digit?_eq_none noDigit, if_neg (by simp), if_pos rfl]
    exact isFraction.leaves_skip isExponent ends rfl
  | @digits first others isFirst notZero areDigits =>
    have notZero : first.toNat - 48 ≠ 0 :=
      fun zero => notZero ((toNat_sub_eq_zero_iff isFirst).mp zero)
    rw [List.cons_append, digit?_cons, if_pos isFirst]
    dsimp only
    rw [Cursor.advance_cons, if_neg (fun zero => notZero zero.1), if_neg notZero,
      skipDigits_append areDigits noDigit]
    exact isFraction.leaves_skip isExponent ends rfl

/-- A numeral is skipped if what stands behind it does not go on with it. -/
theorem IsNumeral.leaves_skip {numeral rest : Octets} (isNumeral : IsNumeral numeral)
    (ends : Ends rest) (place : Place) : Leaves (skip ⟨place, numeral ++ rest⟩) rest := by
  obtain ⟨isSign, isWhole, isFraction, isExponent⟩ := isNumeral
  unfold skip
  simp only [List.append_assoc]
  simp only [List.mem_cons, List.not_mem_nil, or_false] at isSign
  rcases isSign with rfl | rfl
  · rw [List.nil_append, if_neg]
    · exact leaves_skipUnsigned isWhole isFraction isExponent ends place
    · cases isWhole with
      | zero => simp
      | digits isFirst =>
        rw [List.cons_append, Cursor.peek?_cons]
        intro isMinus
        cases eq_of_beq isMinus
        cases isFirst
  · exact leaves_skipUnsigned isWhole isFraction isExponent ends _

/-- A numeral ends at the first octet that does not go on with it. -/
theorem IsNumeral.unique {numeral other rest others : Octets} (isNumeral : IsNumeral numeral)
    (isOther : IsNumeral other) (ends : Ends rest) (otherEnds : Ends others)
    (same : numeral ++ rest = other ++ others) : numeral = other ∧ rest = others := by
  have leaves := isNumeral.leaves_skip ends ⟨0, 0⟩
  have leavesOther := isOther.leaves_skip otherEnds ⟨0, 0⟩
  rw [← same] at leavesOther
  have equal := leaves.unique leavesOther
  rw [equal] at same
  exact ⟨List.append_cancel_right same, equal⟩

end Signet.Json.Number
