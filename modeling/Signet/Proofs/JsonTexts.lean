import Signet.Json.Text
import Signet.Json.Writing
import Signet.Proofs.Utf8

/-!
# Texts between quotation marks

`Json.Text.Spells` is the form of what stands between quotation marks: characters that stand for
themselves, and escapes, short ones and numbers. Reading follows it
(`Json.Text.readOnto_of_spells`): whatever text is spelled, it is read as the octets that are
spelled, up to the mark behind them and no further. What is written for a text spells it
(`Json.Text.spells_written`), so it is read back.

A place is known from the octets that lie before it (`Json.Place.past`), so cursors never have to be
followed step by step.
-/

namespace Signet.Json

/-! ## Cursors -/

/-- The place behind some octets. -/
def Place.past (place : Place) (octets : Octets) : Place :=
  octets.foldl Place.after place

@[simp] theorem Place.past_cons (place : Place) (octet : UInt8) (octets : Octets) :
    place.past (octet :: octets) = (place.after octet).past octets := rfl

@[simp] theorem Place.past_append (place : Place) (octets more : Octets) :
    place.past (octets ++ more) = (place.past octets).past more :=
  List.foldl_append

namespace Cursor

@[simp] theorem peek?_cons (place : Place) (octet : UInt8) (rest : Octets) :
    (⟨place, octet :: rest⟩ : Cursor).peek? = some octet := rfl

@[simp] theorem advance_cons (place : Place) (octet : UInt8) (rest : Octets) :
    (⟨place, octet :: rest⟩ : Cursor).advance = ⟨place.after octet, rest⟩ := rfl

theorem rest_of_peek? {cursor : Cursor} {octet : UInt8} (isNext : cursor.peek? = some octet) :
    cursor.rest = octet :: cursor.advance.rest := by
  obtain ⟨place, _ | ⟨first, rest⟩⟩ := cursor
  · cases isNext
  · cases isNext
    rfl

/-- Octets that pass a test are skipped up to the first that does not. -/
theorem skipWhile_append {test : UInt8 → Bool} {front rest : Octets}
    (pass : ∀ octet ∈ front, test octet = true)
    (stops : ∀ first ∈ rest.head?, test first = false) (place : Place) :
    (⟨place, front ++ rest⟩ : Cursor).skipWhile test = ⟨place.past front, rest⟩ := by
  show skipWhile.go test place (front ++ rest) = _
  induction front generalizing place with
  | nil =>
    cases rest with
    | nil => rfl
    | cons first rest =>
      have isFirst : test first = false := stops first rfl
      show skipWhile.go test place (first :: rest) = _
      unfold skipWhile.go
      rw [isFirst]
      rfl
  | cons octet front ih =>
    have isFirst : test octet = true := pass octet (.head _)
    show skipWhile.go test place (octet :: (front ++ rest)) = _
    unfold skipWhile.go
    rw [isFirst]
    exact ih (fun octet isLater => pass octet (.tail _ isLater)) (place.after octet)

/-- What is skipped passes the test, and what is left does not start with more of it. -/
theorem exists_skipWhile (test : UInt8 → Bool) (cursor : Cursor) :
    ∃ front, cursor.rest = front ++ (cursor.skipWhile test).rest ∧
      (∀ octet ∈ front, test octet = true) ∧
      ∀ first ∈ (cursor.skipWhile test).rest.head?, test first = false := by
  obtain ⟨place, octets⟩ := cursor
  have pass : ∀ octet ∈ octets.takeWhile test, test octet = true :=
    List.all_eq_true.mp List.all_takeWhile
  have stops : ∀ first ∈ (octets.dropWhile test).head?, test first = false := by
    intro first isFirst
    have fails := List.head?_dropWhile_not test octets
    rw [isFirst] at fails
    simpa using fails
  have skipped := skipWhile_append pass stops place
  rw [List.takeWhile_append_dropWhile] at skipped
  rw [skipped]
  exact ⟨_, List.takeWhile_append_dropWhile.symm, pass, stops⟩

/-- That octets are blanks. -/
def AreBlank (octets : Octets) : Prop :=
  ∀ octet ∈ octets, isBlank octet = true

theorem areBlank_nil : AreBlank [] := nofun

/-- Blanks are skipped up to what is no blank. -/
theorem skipBlanks_append {blanks rest : Octets} (areBlank : AreBlank blanks)
    (stops : ∀ first ∈ rest.head?, isBlank first = false) (place : Place) :
    (⟨place, blanks ++ rest⟩ : Cursor).skipBlanks = ⟨place.past blanks, rest⟩ :=
  skipWhile_append areBlank stops place

end Cursor

namespace Text

/-! ## Spelling -/

/-- That four octets are the hexadecimal digits of a number. -/
inductive IsUnit : Octets → (unit : Nat) → Prop
  | digits {a b c d : UInt8} {first second third fourth : Nat} :
    Octets.hexValue? a = some first → Octets.hexValue? b = some second →
    Octets.hexValue? c = some third → Octets.hexValue? d = some fourth →
    IsUnit [a, b, c, d] (first * 4096 + second * 256 + third * 16 + fourth)

/-- Which octets are spelled by what stands between quotation marks. An octet stands for itself
unless it is a mark, a backslash or a control character; an escape stands for one octet, or for the
character of a number or of a pair of surrogates. -/
inductive Spells : (text : Octets) → (octets : Octets) → Prop
  | nil : Spells [] []
  | plain {octet : UInt8} {text octets : Octets} :
    32 ≤ octet → octet ≠ 34 → octet ≠ 92 → Spells text octets →
    Spells (octet :: text) (octet :: octets)
  | short {letter octet : UInt8} {text octets : Octets} :
    shortEscape? letter = some octet → Spells text octets →
    Spells (92 :: letter :: text) (octet :: octets)
  | numbered {digits text octets : Octets} {unit : Nat} :
    IsUnit digits unit → isLeading unit = false → isTrailing unit = false →
      Spells text octets →
    Spells (92 :: 117 :: (digits ++ text)) (String.utf8EncodeChar (Char.ofNat unit) ++ octets)
  | paired {digits more text octets : Octets} {first second : Nat} :
    IsUnit digits first → isLeading first = true →
    IsUnit more second → isTrailing second = true → Spells text octets →
    Spells (92 :: 117 :: (digits ++ 92 :: 117 :: (more ++ text)))
      (String.utf8EncodeChar
        (Char.ofNat (0x10000 + (first - 0xD800) * 0x400 + (second - 0xDC00))) ++ octets)

theorem Spells.append {text octets more moreOctets : Octets} (spells : Spells text octets)
    (spellsMore : Spells more moreOctets) : Spells (text ++ more) (octets ++ moreOctets) := by
  induction spells with
  | nil => exact spellsMore
  | plain noControl noMark noEscape _ ih => exact .plain noControl noMark noEscape ih
  | short escapes _ ih => exact .short escapes ih
  | numbered isUnit notLeading notTrailing _ ih =>
    rw [List.append_assoc, List.cons_append, List.cons_append, List.append_assoc]
    exact .numbered isUnit notLeading notTrailing ih
  | paired isFirst leading isSecond trailing _ ih =>
    rw [List.append_assoc, List.cons_append, List.cons_append, List.append_assoc,
      List.cons_append, List.cons_append, List.append_assoc]
    exact .paired isFirst leading isSecond trailing ih

theorem spells_plain {octets : Octets}
    (arePlain : ∀ octet ∈ octets, 32 ≤ octet ∧ octet ≠ 34 ∧ octet ≠ 92) :
    Spells octets octets := by
  induction octets with
  | nil => exact .nil
  | cons octet octets ih =>
    obtain ⟨noControl, noMark, noEscape⟩ := arePlain octet (.head _)
    exact .plain noControl noMark noEscape
      (ih fun later isLater => arePlain later (.tail _ isLater))

/-! ## Reading what is spelled -/

theorem readHex_of_isUnit {digits : Octets} {unit : Nat} (isUnit : IsUnit digits unit)
    (place : Place) (rest : Octets) :
    readHex ⟨place, digits ++ rest⟩ = .ok (unit, ⟨place.past digits, rest⟩) := by
  cases isUnit with
  | digits isA isB isC isD =>
    unfold readHex
    simp only [List.cons_append, List.nil_append, isA, isB, isC, isD]
    rfl

theorem not_isTrailing_of_isLeading {unit : Nat} (leading : isLeading unit = true) :
    isTrailing unit = false := by
  unfold isTrailing isLeading at *
  simp at *
  omega

theorem readNumbered_of_isUnit {digits : Octets} {unit : Nat} (isUnit : IsUnit digits unit)
    (notLeading : isLeading unit = false) (notTrailing : isTrailing unit = false)
    (place : Place) (rest : Octets) :
    readNumbered ⟨place, digits ++ rest⟩ =
      .ok (Char.ofNat unit, ⟨place.past digits, rest⟩) := by
  unfold readNumbered
  rw [readHex_of_isUnit isUnit]
  show (if isTrailing unit then _ else if isLeading unit then _ else _) = _
  rw [notTrailing, notLeading]
  rfl

theorem readNumbered_of_pair {digits more : Octets} {first second : Nat}
    (isFirst : IsUnit digits first) (leading : isLeading first = true)
    (isSecond : IsUnit more second) (trailing : isTrailing second = true)
    (place : Place) (rest : Octets) :
    readNumbered ⟨place, digits ++ 92 :: 117 :: (more ++ rest)⟩ =
      .ok (Char.ofNat (0x10000 + (first - 0xD800) * 0x400 + (second - 0xDC00)),
        ⟨place.past (digits ++ 92 :: 117 :: more), rest⟩) := by
  unfold readNumbered
  rw [readHex_of_isUnit isFirst]
  show (if isTrailing first then _ else if isLeading first then _ else _) = _
  rw [not_isTrailing_of_isLeading leading, leading]
  show (readHex ⟨_, more ++ rest⟩ >>= _) = _
  rw [readHex_of_isUnit isSecond]
  show (if isTrailing second then _ else _) = _
  rw [trailing, Place.past_append]
  rfl

theorem readEscape_short {letter octet : UInt8} (escapes : shortEscape? letter = some octet)
    (place : Place) (rest : Octets) :
    readEscape ⟨place, letter :: rest⟩ = .ok ([octet], ⟨place.after letter, rest⟩) := by
  unfold readEscape
  rw [Cursor.peek?_cons]
  dsimp only
  rw [escapes]
  rfl

theorem readEscape_numbered {c : Char} {place behind : Place} {text rest : Octets}
    (numbered : readNumbered ⟨place.after 117, text⟩ = .ok (c, ⟨behind, rest⟩)) :
    readEscape ⟨place, 117 :: text⟩ = .ok (String.utf8EncodeChar c, ⟨behind, rest⟩) := by
  show (readNumbered ⟨place.after 117, text⟩).map _ = _
  rw [numbered]
  rfl

theorem readOnto_mark (bound : Octets) (x : UInt8) (read : Octets) (place : Place)
    (rest : Octets) :
    readOnto (x :: bound) read ⟨place, 34 :: rest⟩ =
      finish ⟨place.after 34, rest⟩ read.reverse := rfl

theorem readOnto_plain {octet : UInt8} (noControl : 32 ≤ octet) (noMark : octet ≠ 34)
    (noEscape : octet ≠ 92) (bound : Octets) (x : UInt8) (read : Octets) (place : Place)
    (rest : Octets) :
    readOnto (x :: bound) read ⟨place, octet :: rest⟩ =
      readOnto bound (octet :: read) ⟨place.after octet, rest⟩ := by
  conv => lhs; unfold readOnto
  rw [Cursor.peek?_cons]
  dsimp only
  rw [if_neg noMark, if_neg noEscape, if_neg (UInt8.not_lt.mpr noControl)]
  rfl

theorem readOnto_escape {place behind : Place} {text rest octets : Octets}
    (escape : readEscape ⟨place.after 92, text⟩ = .ok (octets, ⟨behind, rest⟩))
    (bound : Octets) (x : UInt8) (read : Octets) :
    readOnto (x :: bound) read ⟨place, 92 :: text⟩ =
      readOnto bound (octets.reverse ++ read) ⟨behind, rest⟩ := by
  conv => lhs; unfold readOnto
  rw [Cursor.peek?_cons]
  dsimp only
  rw [if_neg (by decide), if_pos rfl, Cursor.advance_cons, escape]

/-- What is spelled is read, up to the closing mark. -/
theorem readOnto_of_spells {text octets : Octets} (spells : Spells text octets)
    {bound : Octets} (enough : text.length < bound.length) (read : Octets) (place : Place)
    (rest : Octets) :
    readOnto bound read ⟨place, text ++ 34 :: rest⟩ =
      finish ⟨place.past (text ++ [34]), rest⟩ (read.reverse ++ octets) := by
  induction spells generalizing bound read place with
  | nil =>
    obtain ⟨x, bound, rfl⟩ := List.exists_cons_of_length_pos enough
    rw [List.append_nil]
    exact readOnto_mark bound x read place rest
  | plain noControl noMark noEscape _ ih =>
    obtain ⟨x, bound, rfl⟩ := List.exists_cons_of_length_pos (Nat.zero_lt_of_lt enough)
    rw [List.cons_append, readOnto_plain noControl noMark noEscape,
      ih (Nat.lt_of_succ_lt_succ enough), List.reverse_cons, List.append_assoc]
    rfl
  | short escapes _ ih =>
    obtain ⟨x, bound, rfl⟩ := List.exists_cons_of_length_pos (Nat.zero_lt_of_lt enough)
    simp only [List.length_cons] at enough
    rw [List.cons_append, List.cons_append, readOnto_escape (readEscape_short escapes _ _),
      ih (by omega)]
    simp
  | numbered isUnit notLeading notTrailing _ ih =>
    obtain ⟨x, bound, rfl⟩ := List.exists_cons_of_length_pos (Nat.zero_lt_of_lt enough)
    simp only [List.length_cons, List.length_append] at enough
    rw [List.cons_append, List.cons_append, List.append_assoc,
      readOnto_escape
        (readEscape_numbered (readNumbered_of_isUnit isUnit notLeading notTrailing _ _)),
      ih (by omega)]
    simp
  | paired isFirst leading isSecond trailing _ ih =>
    obtain ⟨x, bound, rfl⟩ := List.exists_cons_of_length_pos (Nat.zero_lt_of_lt enough)
    simp only [List.length_cons, List.length_append] at enough
    rw [List.cons_append, List.cons_append, List.append_assoc, List.cons_append,
      List.cons_append, List.append_assoc,
      readOnto_escape
        (readEscape_numbered (readNumbered_of_pair isFirst leading isSecond trailing _ _)),
      ih (by omega)]
    simp

/-- What spells a text is read as this text. -/
theorem read_of_spells {text octets : Octets} {value : String} (spells : Spells text octets)
    (isText : octets.toText? = some value) (place : Place) (rest : Octets) :
    read ⟨place, text ++ 34 :: rest⟩ = .ok (value, ⟨place.past (text ++ [34]), rest⟩) := by
  have enough : text.length < (text ++ 34 :: rest).length := by
    rw [List.length_append, List.length_cons]
    omega
  unfold read
  rw [readOnto_of_spells spells enough]
  show finish _ octets = _
  unfold finish
  rw [isText]

/-! ## Writing spells -/

theorem hexValue?_digitChar (digit : Nat) (isDigit : digit < 16) :
    ∃ octet : UInt8, String.utf8EncodeChar digit.digitChar = [octet] ∧
      Octets.hexValue? octet = some digit := by
  have digits : ∀ digit < 16,
      String.utf8EncodeChar digit.digitChar = [UInt8.ofNat digit.digitChar.toNat] ∧
        Octets.hexValue? (UInt8.ofNat digit.digitChar.toNat) = some digit := by
    decide
  exact ⟨_, digits digit isDigit⟩

theorem spells_of_letter {c letter : Char} (isLetter : letter.toNat < 128)
    (isAscii : c.toNat < 128)
    (escapes : shortEscape? (UInt8.ofNat letter.toNat) = some (UInt8.ofNat c.toNat)) :
    Spells (['\\', letter].flatMap String.utf8EncodeChar) (String.utf8EncodeChar c) := by
  rw [List.flatMap_cons, List.flatMap_singleton, Octets.utf8EncodeChar_of_lt isLetter,
    Octets.utf8EncodeChar_of_lt isAscii]
  exact .short escapes .nil

theorem spells_of_number {c : Char} (isControl : c.toNat < 32) :
    Spells
      (['\\', 'u', '0', '0', Nat.digitChar (c.toNat / 16), Nat.digitChar (c.toNat % 16)].flatMap
      String.utf8EncodeChar) (String.utf8EncodeChar c) := by
  obtain ⟨high, highEncoded, highValue⟩ := hexValue?_digitChar (c.toNat / 16) (by omega)
  obtain ⟨low, lowEncoded, lowValue⟩ := hexValue?_digitChar (c.toNat % 16) (by omega)
  have isUnit : IsUnit [48, 48, high, low]
      (0 * 4096 + 0 * 256 + c.toNat / 16 * 16 + c.toNat % 16) :=
    .digits (by decide) (by decide) highValue lowValue
  have number : 0 * 4096 + 0 * 256 + c.toNat / 16 * 16 + c.toNat % 16 = c.toNat := by omega
  rw [number] at isUnit
  have notLeading : isLeading c.toNat = false := by
    simp [isLeading]
    omega
  have notTrailing : isTrailing c.toNat = false := by
    simp [isTrailing]
    omega
  have spells := Spells.numbered isUnit notLeading notTrailing .nil
  rw [Char.ofNat_toNat, List.append_nil, List.append_nil] at spells
  simp only [List.flatMap_cons, List.flatMap_nil, highEncoded, lowEncoded]
  exact spells

theorem spells_of_itself {c : Char} (noControl : 32 ≤ c.toNat) (noMark : c ≠ '"')
    (noEscape : c ≠ '\\') : Spells (String.utf8EncodeChar c) (String.utf8EncodeChar c) := by
  refine spells_plain fun octet isPart => ⟨?_, ?_, ?_⟩
  · rw [UInt8.le_iff_toNat_le]
    by_cases isAscii : c.toNat < 128
    · rw [Octets.utf8EncodeChar_of_lt isAscii, List.mem_singleton] at isPart
      rw [isPart, Octets.toNat_ofNat_of_lt isAscii]
      exact noControl
    · have high := Octets.le_of_mem_utf8EncodeChar (Nat.not_lt.mp isAscii) isPart
      exact Nat.le_trans (by decide) high
  · rintro rfl
    have isMark : UInt8.ofNat '"'.toNat ∈ String.utf8EncodeChar c := isPart
    exact noMark (Octets.eq_of_mem_utf8EncodeChar (by decide) isMark)
  · rintro rfl
    have isEscape : UInt8.ofNat '\\'.toNat ∈ String.utf8EncodeChar c := isPart
    exact noEscape (Octets.eq_of_mem_utf8EncodeChar (by decide) isEscape)

/-- What is written for a character spells it. -/
theorem spells_writeCharacter (c : Char) :
    Spells ((writeCharacter c).flatMap String.utf8EncodeChar) (String.utf8EncodeChar c) := by
  unfold writeCharacter
  split
  next isMark =>
    subst isMark
    exact spells_of_letter (by decide) (by decide) (by decide)
  next noMark =>
  split
  next isEscape =>
    subst isEscape
    exact spells_of_letter (by decide) (by decide) (by decide)
  next noEscape =>
  split
  next number => exact spells_of_letter (by decide) (by omega) (by rw [number]; decide)
  split
  next number => exact spells_of_letter (by decide) (by omega) (by rw [number]; decide)
  split
  next isFeed =>
    subst isFeed
    exact spells_of_letter (by decide) (by decide) (by decide)
  split
  next isReturn =>
    subst isReturn
    exact spells_of_letter (by decide) (by decide) (by decide)
  split
  next isTab =>
    subst isTab
    exact spells_of_letter (by decide) (by decide) (by decide)
  split
  next isControl => exact spells_of_number isControl
  next noControl =>
    rw [List.flatMap_singleton]
    exact spells_of_itself (Nat.not_lt.mp noControl) noMark noEscape

/-- What is written for characters spells them. -/
theorem spells_written (characters : List Char) :
    Spells ((characters.flatMap writeCharacter).flatMap String.utf8EncodeChar)
      (characters.flatMap String.utf8EncodeChar) := by
  induction characters with
  | nil => exact .nil
  | cons c characters ih =>
    rw [List.flatMap_cons, List.flatMap_append, List.flatMap_cons]
    exact (spells_writeCharacter c).append ih

end Text

end Signet.Json
