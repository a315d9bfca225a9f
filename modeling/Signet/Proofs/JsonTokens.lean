import Signet.Proofs.JsonNumerals

/-!
# Tokens

A text is made of tokens with blanks between them: signs, words, texts between quotation marks, and
numerals. What kind of token comes next can be told from its first octet
(`Json.Token.IsFormed.exists_cons`), and where it ends from its kind; so octets start with one token
at most (`Json.Token.Stands.unique`), and are made of tokens in one way (`Json.Spans.unique`).
-/

namespace Signet.Json

open Cursor (AreBlank areBlank_nil)

/-! ## Tokens and their form -/

/-- The words that stand for values. -/
inductive Word
  | null
  | yes
  | no

def Word.letters : Word → Octets
  | null => [110, 117, 108, 108]
  | yes => [116, 114, 117, 101]
  | no => [102, 97, 108, 115, 101]

inductive Token
  /-- A bracket, a comma or a colon. -/
  | sign (octet : UInt8)
  | word (meant : Word)
  | text (body : Octets)
  | number (numeral : Octets)

namespace Token

def octets : Token → Octets
  | sign octet => [octet]
  | word meant => meant.letters
  | text body => 34 :: (body ++ [34])
  | number numeral => numeral

/-- That a token has the form of its kind, and ends where the rest begins. -/
def IsFormed : Token → (rest : Octets) → Prop
  | sign octet, _ => octet ∈ [91, 93, 123, 125, 44, 58]
  | word _, _ => True
  | text body, _ => Text.IsBody body
  | number numeral, rest => Number.IsNumeral numeral ∧ Number.Ends rest

inductive Kind
  | sign
  | word
  | text
  | number
  deriving DecidableEq

def kind : Token → Kind
  | sign _ => .sign
  | word _ => .word
  | text _ => .text
  | number _ => .number

/-- The kind of the token that starts with an octet. -/
def kindOf? (first : UInt8) : Option Kind :=
  if first ∈ [91, 93, 123, 125, 44, 58] then some .sign
  else if first ∈ [110, 116, 102] then some .word
  else if first = 34 then some .text
  else if Number.isDigit first ∨ first = 45 then some .number
  else none

theorem kindOf?_of_digit_or_minus {first : UInt8}
    (starts : Number.isDigit first = true ∨ first = 45) : kindOf? first = some .number := by
  have table : ∀ octet, Number.isDigit octet = true ∨ octet = 45 →
      kindOf? octet = some .number :=
    Octets.forall_of_table (by decide +kernel)
  exact table first starts

/-- No token starts with a blank. -/
theorem not_isBlank_of_kindOf? {first : UInt8} {kind : Kind} (starts : kindOf? first = some kind) :
    Cursor.isBlank first = false := by
  have table : ∀ octet, (kindOf? octet).isSome = true → Cursor.isBlank octet = false :=
    Octets.forall_of_table (by decide +kernel)
  exact table first (Option.isSome_iff_exists.mpr ⟨kind, starts⟩)

section IsFormed

variable {token other : Token} {rest others : Octets}

/-- The first octet of a token tells its kind. -/
theorem IsFormed.exists_cons (isFormed : token.IsFormed rest) :
    ∃ first more, token.octets = first :: more ∧ kindOf? first = some token.kind := by
  cases token with
  | sign octet => exact ⟨octet, [], rfl, if_pos isFormed⟩
  | word meant => cases meant <;> exact ⟨_, _, rfl, rfl⟩
  | text body => exact ⟨34, _, rfl, rfl⟩
  | number numeral =>
    obtain ⟨first, more, rfl, starts⟩ := isFormed.1.exists_cons
    exact ⟨first, more, rfl, kindOf?_of_digit_or_minus starts⟩

theorem IsFormed.kind_eq (isFormed : token.IsFormed rest) (isOther : other.IsFormed others)
    (same : token.octets ++ rest = other.octets ++ others) : token.kind = other.kind := by
  obtain ⟨first, more, isToken, isKind⟩ := isFormed.exists_cons
  obtain ⟨otherFirst, otherMore, isOtherToken, isOtherKind⟩ := isOther.exists_cons
  rw [isToken, isOtherToken, List.cons_append, List.cons_append] at same
  obtain ⟨firsts, -⟩ := List.cons.inj same
  rw [firsts, isOtherKind] at isKind
  exact (Option.some.inj isKind).symm

/-- Octets start with one token at most. -/
theorem IsFormed.unique (isFormed : token.IsFormed rest) (isOther : other.IsFormed others)
    (same : token.octets ++ rest = other.octets ++ others) : token = other ∧ rest = others := by
  have kinds := isFormed.kind_eq isOther same
  cases token with
  | sign octet =>
    cases other with
    | sign otherOctet =>
      obtain ⟨rfl, rfl⟩ := List.cons.inj same
      exact ⟨rfl, rfl⟩
    | word _ | text _ | number _ => cases kinds
  | word meant =>
    cases other with
    | word otherMeant => cases meant <;> cases otherMeant <;> cases same <;> exact ⟨rfl, rfl⟩
    | sign _ | text _ | number _ => cases kinds
  | text body =>
    cases other with
    | text otherBody =>
      have bodies : body ++ 34 :: rest = otherBody ++ 34 :: others := by
        simpa [octets] using same
      obtain ⟨rfl, rfl⟩ := Text.IsBody.unique isFormed isOther bodies
      exact ⟨rfl, rfl⟩
    | sign _ | word _ | number _ => cases kinds
  | number numeral =>
    cases other with
    | number otherNumeral =>
      obtain ⟨rfl, rfl⟩ := isFormed.1.unique isOther.1 isFormed.2 isOther.2 same
      exact ⟨rfl, rfl⟩
    | sign _ | word _ | text _ => cases kinds

end IsFormed

/-! ## Tokens behind blanks -/

/-- That a token stands at the front of octets, behind any blanks. -/
def Stands (token : Token) (octets rest : Octets) : Prop :=
  ∃ blanks, AreBlank blanks ∧ octets = blanks ++ (token.octets ++ rest) ∧ token.IsFormed rest

section Stands

variable {token other : Token} {octets rest others : Octets}

theorem IsFormed.stands (isFormed : token.IsFormed rest) :
    token.Stands (token.octets ++ rest) rest :=
  ⟨[], areBlank_nil, rfl, isFormed⟩

/-- Behind the blanks comes the token. -/
theorem Stands.skipBlanks (stands : token.Stands octets rest) (place : Place) :
    ∃ behind, (⟨place, octets⟩ : Cursor).skipBlanks = ⟨behind, token.octets ++ rest⟩ := by
  obtain ⟨blanks, areBlank, rfl, isFormed⟩ := stands
  obtain ⟨first, more, isToken, isKind⟩ := isFormed.exists_cons
  refine ⟨_, Cursor.skipBlanks_append areBlank ?_ place⟩
  rw [isToken]
  rintro _ ⟨⟩
  exact not_isBlank_of_kindOf? isKind

theorem Stands.skipBlanks_sign {sign : UInt8} (stands : (Token.sign sign).Stands octets rest)
    (place : Place) :
    ∃ behind, (⟨place, octets⟩ : Cursor).skipBlanks = ⟨behind, sign :: rest⟩ :=
  stands.skipBlanks place

theorem Stands.skipBlanks_text {body : Octets} (stands : (Token.text body).Stands octets rest)
    (place : Place) :
    ∃ behind, (⟨place, octets⟩ : Cursor).skipBlanks =
      ⟨behind, 34 :: (body ++ 34 :: rest)⟩ := by
  obtain ⟨behind, skipped⟩ := stands.skipBlanks place
  refine ⟨behind, skipped.trans ?_⟩
  simp [Token.octets]

theorem Stands.isFormed (stands : token.Stands octets rest) : token.IsFormed rest := by
  obtain ⟨blanks, areBlank, isFront, isFormed⟩ := stands
  exact isFormed

theorem Stands.unique (stands : token.Stands octets rest)
    (standsOther : other.Stands octets others) : token = other ∧ rest = others := by
  obtain ⟨behind, skipped⟩ := stands.skipBlanks ⟨0, 0⟩
  obtain ⟨behindOther, skippedOther⟩ := standsOther.skipBlanks ⟨0, 0⟩
  have same := congrArg Cursor.rest (skipped.symm.trans skippedOther)
  exact stands.isFormed.unique standsOther.isFormed same

/-- Blanks in front of a token do not count. -/
theorem stands_skipBlanks_iff {cursor : Cursor} :
    token.Stands cursor.skipBlanks.rest rest ↔ token.Stands cursor.rest rest := by
  obtain ⟨front, split, areBlank, stops⟩ := Cursor.exists_skipWhile Cursor.isBlank cursor
  constructor
  · rintro ⟨blanks, moreBlank, isFront, isFormed⟩
    refine ⟨front ++ blanks, ?_, ?_, isFormed⟩
    · intro octet isHere
      rcases List.mem_append.mp isHere with isFirst | isLater
      · exact areBlank octet isFirst
      · exact moreBlank octet isLater
    · rw [split, show (cursor.skipWhile Cursor.isBlank).rest = _ from isFront, List.append_assoc]
  · intro stands
    obtain ⟨behind, skipped⟩ := stands.skipBlanks cursor.place
    rw [show cursor.skipBlanks = _ from skipped]
    exact stands.isFormed.stands

/-- Where a token stands there are not only blanks. -/
theorem Stands.not_areBlank (stands : token.Stands octets rest) : ¬ AreBlank octets := by
  obtain ⟨blanks, -, rfl, isFormed⟩ := stands
  obtain ⟨first, more, isToken, isKind⟩ := isFormed.exists_cons
  intro areBlank
  have isBlank : Cursor.isBlank first = true := areBlank first (by simp [isToken])
  rw [not_isBlank_of_kindOf? isKind] at isBlank
  cases isBlank

theorem Stands.length_lt (stands : token.Stands octets rest) : rest.length < octets.length := by
  obtain ⟨blanks, -, rfl, isFormed⟩ := stands
  obtain ⟨first, more, isToken, -⟩ := isFormed.exists_cons
  simp only [isToken, List.length_append, List.length_cons]
  omega

theorem stands_iff {cursor : Cursor} :
    token.Stands cursor.rest rest ↔
      token.IsFormed rest ∧ cursor.skipBlanks.rest = token.octets ++ rest := by
  constructor
  · intro stands
    obtain ⟨behind, skipped⟩ := stands.skipBlanks cursor.place
    exact ⟨stands.isFormed, congrArg Cursor.rest skipped⟩
  · rintro ⟨isFormed, isFront⟩
    rw [← stands_skipBlanks_iff, isFront]
    exact isFormed.stands

/-- A sign stands where it is the next octet behind blanks. -/
theorem stands_of_peek? {sign : UInt8} {cursor : Cursor}
    (isNext : cursor.skipBlanks.peek? = some sign) (isSign : sign ∈ [91, 93, 123, 125, 44, 58]) :
    (Token.sign sign).Stands cursor.rest cursor.skipBlanks.advance.rest :=
  stands_iff.mpr ⟨isSign, Cursor.rest_of_peek? isNext⟩

theorem text_stands_of_peek? {body : Octets} {cursor : Cursor}
    (isNext : cursor.skipBlanks.peek? = some 34) (isBody : Text.IsBody body)
    (isFront : cursor.skipBlanks.advance.rest = body ++ 34 :: rest) :
    (Token.text body).Stands cursor.rest rest := by
  refine stands_iff.mpr ⟨isBody, ?_⟩
  rw [Cursor.rest_of_peek? isNext, isFront]
  simp [Token.octets]

/-- No numeral goes on where a sign stands. -/
theorem Stands.ends {sign : UInt8} (stands : (Token.sign sign).Stands octets rest) :
    Number.Ends octets := by
  obtain ⟨blanks, areBlank, rfl, isSign⟩ := stands
  have noBlank : ∀ octet, Cursor.isBlank octet = true → Number.goesOn octet = false :=
    Octets.forall_of_table (by decide +kernel)
  have noSign : ∀ octet ∈ [91, 93, 123, 125, 44, 58], Number.goesOn octet = false := by
    decide +kernel
  rcases blanks with _ | ⟨blank, blanks⟩
  · rintro _ ⟨⟩
    exact noSign sign isSign
  · rintro _ ⟨⟩
    exact noBlank blank (areBlank blank (.head _))

end Stands

end Token

/-! ## Strings of tokens -/

/-- That octets are made of tokens, with blanks between them, up to the rest. -/
inductive Spans : (tokens : List Token) → (octets rest : Octets) → Prop
  | nil {rest : Octets} : Spans [] rest rest
  | cons {token : Token} {tokens : List Token} {octets behind rest : Octets} :
    token.Stands octets behind → Spans tokens behind rest → Spans (token :: tokens) octets rest

theorem Spans.singleton {token : Token} {octets rest : Octets} (stands : token.Stands octets rest) :
    Spans [token] octets rest :=
  .cons stands .nil

theorem Spans.append {tokens more : List Token} {octets behind rest : Octets}
    (spans : Spans tokens octets behind) (spansMore : Spans more behind rest) :
    Spans (tokens ++ more) octets rest := by
  induction spans with
  | nil => exact spansMore
  | cons stands _ ih => exact .cons stands (ih spansMore)

theorem Spans.exists_of_append {tokens more : List Token} {octets rest : Octets}
    (spans : Spans (tokens ++ more) octets rest) :
    ∃ behind, Spans tokens octets behind ∧ Spans more behind rest := by
  induction tokens generalizing octets with
  | nil => exact ⟨octets, .nil, spans⟩
  | cons token tokens ih =>
    cases spans with
    | cons stands spans =>
      obtain ⟨behind, spans, spansMore⟩ := ih spans
      exact ⟨behind, .cons stands spans, spansMore⟩

theorem Spans.stands {token : Token} {octets rest : Octets} (spans : Spans [token] octets rest) :
    token.Stands octets rest := by
  cases spans with
  | cons stands spans =>
    cases spans with
    | nil => exact stands

theorem Spans.length_le {tokens : List Token} {octets rest : Octets}
    (spans : Spans tokens octets rest) : rest.length ≤ octets.length := by
  induction spans with
  | nil => exact Nat.le_refl _
  | cons stands _ ih => exact Nat.le_trans ih (Nat.le_of_lt stands.length_lt)

/-- A text is made of tokens in one way. -/
theorem Spans.unique {tokens others : List Token} {octets rest otherRest : Octets}
    (spans : Spans tokens octets rest) (spansOther : Spans others octets otherRest)
    (areBlank : AreBlank rest) (otherAreBlank : AreBlank otherRest) : tokens = others := by
  induction spans generalizing others with
  | nil =>
    cases spansOther with
    | nil => rfl
    | cons stands => exact absurd areBlank stands.not_areBlank
  | cons stands _ ih =>
    cases spansOther with
    | nil => exact absurd otherAreBlank stands.not_areBlank
    | cons standsOther spansOther =>
      obtain ⟨rfl, rfl⟩ := stands.unique standsOther
      rw [ih spansOther areBlank]

end Signet.Json
