import Signet.Json.Skipping
import Signet.Proofs.JsonTexts
import Signet.Proofs.Successes

/-!
# What is read between quotation marks

Reading and skipping are told by what they leave: `Json.Yields` says that a value is read and which
octets are left behind it, `Json.Leaves` says this of what is skipped. Places are of no interest
here, since only faults show them.

Skipping takes just what is well formed (`Json.Text.leaves_skip_iff`), and reading takes just what
also stands for characters (`Json.Text.yields_read_iff`). The second is less than the first: an
escape may be half of a pair of surrogates, and octets may be no UTF-8. `Json.Text.Denotes` gives
every well-formed text between marks its characters, or nothing if it has none.
-/

namespace Signet.Json

/-- That reading gives a value and leaves some octets behind it. -/
def Yields {α : Type} (result : Except Fault (α × Cursor)) (value : α) (rest : Octets) : Prop :=
  ∃ place, result = .ok (value, ⟨place, rest⟩)

/-- That moving on leaves some octets. -/
def Leaves (result : Except Fault Cursor) (rest : Octets) : Prop :=
  ∃ place, result = .ok ⟨place, rest⟩

theorem Yields.unique {α : Type} {result : Except Fault (α × Cursor)} {value other : α}
    {rest others : Octets} (yields : Yields result value rest)
    (yieldsOther : Yields result other others) : value = other ∧ rest = others := by
  obtain ⟨place, rfl⟩ := yields
  obtain ⟨behind, same⟩ := yieldsOther
  cases same
  exact ⟨rfl, rfl⟩

theorem Leaves.unique {result : Except Fault Cursor} {rest others : Octets}
    (leaves : Leaves result rest) (leavesOther : Leaves result others) : rest = others := by
  obtain ⟨place, rfl⟩ := leaves
  obtain ⟨behind, same⟩ := leavesOther
  cases same
  rfl

theorem yields_map_iff {α β : Type} {first : Except Fault (α × Cursor)} {change : α → β}
    {value : β} {rest : Octets} :
    Yields (first.map fun (value, cursor) => (change value, cursor)) value rest ↔
      ∃ inner, Yields first inner rest ∧ change inner = value := by
  constructor
  · rintro ⟨place, isOk⟩
    obtain ⟨⟨inner, behind⟩, isFirst, same⟩ := map_eq_ok_iff.mp isOk
    cases same
    exact ⟨inner, ⟨place, isFirst⟩, rfl⟩
  · rintro ⟨inner, ⟨place, isFirst⟩, rfl⟩
    rw [isFirst]
    exact ⟨place, rfl⟩

theorem yields_of_moved_iff {α : Type} {moved : Except Fault Cursor} {result value : α}
    {rest : Octets} :
    Yields (moved.map fun cursor => (result, cursor)) value rest ↔
      Leaves moved rest ∧ result = value := by
  constructor
  · rintro ⟨place, isOk⟩
    obtain ⟨behind, isMoved, same⟩ := map_eq_ok_iff.mp isOk
    cases same
    exact ⟨⟨place, isMoved⟩, rfl⟩
  · rintro ⟨⟨place, isMoved⟩, rfl⟩
    rw [isMoved]
    exact ⟨place, rfl⟩

namespace Text

/-! ## Well-formed texts -/

/-- The form of what stands between quotation marks: octets that are no marks, backslashes or
control characters, short escapes, and numbered ones. Whether the numbers stand for characters is
left open. -/
inductive IsBody : Octets → Prop
  | nil : IsBody []
  | plain {octet : UInt8} {text : Octets} :
    32 ≤ octet → octet ≠ 34 → octet ≠ 92 → IsBody text → IsBody (octet :: text)
  | short {letter octet : UInt8} {text : Octets} :
    shortEscape? letter = some octet → IsBody text → IsBody (92 :: letter :: text)
  | numbered {digits text : Octets} {unit : Nat} :
    IsUnit digits unit → IsBody text → IsBody (92 :: 117 :: (digits ++ text))

theorem Spells.isBody {text octets : Octets} (spells : Spells text octets) : IsBody text := by
  induction spells with
  | nil => exact .nil
  | plain noControl noMark noEscape _ ih => exact .plain noControl noMark noEscape ih
  | short escapes _ ih => exact .short escapes ih
  | numbered isUnit _ _ _ ih => exact .numbered isUnit ih
  | paired isFirst _ isSecond _ _ ih => exact .numbered isFirst (.numbered isSecond ih)

/-- That what stands between quotation marks stands for characters. -/
def IsSpelled (body : Octets) (value : String) : Prop :=
  ∃ octets, Spells body octets ∧ octets.toText? = some value

/-- What a well-formed text between quotation marks stands for: the characters of a text, or
nothing. -/
def Denotes (body : Octets) (value? : Option String) : Prop :=
  IsBody body ∧ ∀ value, value? = some value ↔ IsSpelled body value

theorem IsSpelled.yields {body : Octets} {value : String} (isSpelled : IsSpelled body value)
    (place : Place) (rest : Octets) : Yields (read ⟨place, body ++ 34 :: rest⟩) value rest := by
  obtain ⟨octets, spells, isText⟩ := isSpelled
  exact ⟨_, read_of_spells spells isText place rest⟩

/-- A text stands for one text at most. -/
theorem IsSpelled.unique {body : Octets} {value other : String} (isSpelled : IsSpelled body value)
    (isOther : IsSpelled body other) : value = other :=
  ((isSpelled.yields ⟨0, 0⟩ []).unique (isOther.yields ⟨0, 0⟩ [])).1

theorem IsSpelled.denotes {body : Octets} {value : String} (isSpelled : IsSpelled body value) :
    Denotes body (some value) := by
  refine ⟨?_, fun other => ⟨?_, fun isOther => ?_⟩⟩
  · obtain ⟨octets, spells, -⟩ := isSpelled
    exact spells.isBody
  · rintro ⟨⟩
    exact isSpelled
  · rw [isSpelled.unique isOther]

theorem Denotes.isSpelled {body : Octets} {value : String} (denotes : Denotes body (some value)) :
    IsSpelled body value :=
  (denotes.2 value).mp rfl

theorem Denotes.unique {body : Octets} {value? other? : Option String}
    (denotes : Denotes body value?) (denotesOther : Denotes body other?) : value? = other? :=
  Option.ext fun value => (denotes.2 value).trans (denotesOther.2 value).symm

theorem IsBody.exists_denotes {body : Octets} (isBody : IsBody body) :
    ∃ value?, Denotes body value? := by
  by_cases isSpelled : ∃ value, IsSpelled body value
  · obtain ⟨value, isSpelled⟩ := isSpelled
    exact ⟨some value, isSpelled.denotes⟩
  · exact ⟨none, isBody, fun value => ⟨nofun, fun is => absurd ⟨value, is⟩ isSpelled⟩⟩

/-! ## Skipping -/

theorem skipWith_mark (bound : Octets) (x : UInt8) (place : Place) (rest : Octets) :
    skipWith (x :: bound) ⟨place, 34 :: rest⟩ = .ok ⟨place.after 34, rest⟩ := rfl

theorem skipWith_plain {octet : UInt8} (noControl : 32 ≤ octet) (noMark : octet ≠ 34)
    (noEscape : octet ≠ 92) (bound : Octets) (x : UInt8) (place : Place) (rest : Octets) :
    skipWith (x :: bound) ⟨place, octet :: rest⟩ =
      skipWith bound ⟨place.after octet, rest⟩ := by
  conv => lhs; unfold skipWith
  rw [Cursor.peek?_cons]
  dsimp only
  rw [if_neg noMark, if_neg noEscape, if_neg (UInt8.not_lt.mpr noControl), Cursor.advance_cons]

theorem skipWith_escape (bound : Octets) (x : UInt8) (place : Place) (letter : UInt8)
    (rest : Octets) :
    skipWith (x :: bound) ⟨place, 92 :: letter :: rest⟩ =
      if letter = 117 then
        match readHex ⟨(place.after 92).after letter, rest⟩ with
        | .ok (_, cursor) => skipWith bound cursor
        | .error fault => .error fault
      else if (shortEscape? letter).isSome then
        skipWith bound ⟨(place.after 92).after letter, rest⟩
      else (⟨(place.after 92).after letter, rest⟩ : Cursor).fault .invalidEscape := rfl

theorem ne_of_shortEscape? {letter octet : UInt8} (escapes : shortEscape? letter = some octet) :
    letter ≠ 117 := by
  rintro rfl
  cases escapes

/-- What is well formed is skipped, up to the closing mark. -/
theorem IsBody.leaves_skipWith {body : Octets} (isBody : IsBody body) {bound : Octets}
    (enough : body.length < bound.length) (place : Place) (rest : Octets) :
    Leaves (skipWith bound ⟨place, body ++ 34 :: rest⟩) rest := by
  induction isBody generalizing bound place with
  | nil =>
    obtain ⟨x, bound, rfl⟩ := List.exists_cons_of_length_pos enough
    exact ⟨_, skipWith_mark bound x place rest⟩
  | plain noControl noMark noEscape _ ih =>
    obtain ⟨x, bound, rfl⟩ := List.exists_cons_of_length_pos (Nat.zero_lt_of_lt enough)
    rw [List.cons_append, skipWith_plain noControl noMark noEscape]
    exact ih (Nat.lt_of_succ_lt_succ enough) _
  | short escapes _ ih =>
    obtain ⟨x, bound, rfl⟩ := List.exists_cons_of_length_pos (Nat.zero_lt_of_lt enough)
    simp only [List.length_cons] at enough
    rw [List.cons_append, List.cons_append, skipWith_escape,
      if_neg (ne_of_shortEscape? escapes), escapes]
    exact ih (by omega) _
  | numbered isUnit _ ih =>
    obtain ⟨x, bound, rfl⟩ := List.exists_cons_of_length_pos (Nat.zero_lt_of_lt enough)
    simp only [List.length_cons, List.length_append] at enough
    rw [List.cons_append, List.cons_append, List.append_assoc, skipWith_escape, if_pos rfl,
      readHex_of_isUnit isUnit]
    exact ih (by omega) _

theorem advanceBy_four {octets : Octets} {a b c d : UInt8} (place : Place) :
    advanceBy 4 ⟨place, a :: b :: c :: d :: octets⟩ = ⟨place.past [a, b, c, d], octets⟩ :=
      rfl

/-- Four digits are read, and only these. -/
theorem exists_isUnit_of_readHex {cursor behind : Cursor} {unit : Nat}
    (isRead : readHex cursor = .ok (unit, behind)) :
    ∃ digits, IsUnit digits unit ∧ cursor.rest = digits ++ behind.rest := by
  obtain ⟨place, octets⟩ := cursor
  unfold readHex at isRead
  dsimp only at isRead
  split at isRead
  next a b c d rest =>
    rw [advanceBy_four] at isRead
    split at isRead
    next isA isB isC isD =>
      cases isRead
      exact ⟨[a, b, c, d], .digits isA isB isC isD, rfl⟩
    next => cases isRead
  next => cases isRead

/-- Behind a backslash, an escape is skipped. -/
theorem exists_escape_of_skipWith {bound octets : Octets} {x : UInt8} {place : Place}
    {behind : Cursor} (isSkipped : skipWith (x :: bound) ⟨place, 92 :: octets⟩ = .ok behind) :
    ∃ escape, ∃ cursor : Cursor, octets = escape ++ cursor.rest ∧
      skipWith bound cursor = .ok behind ∧
        ∀ body, IsBody body → IsBody (92 :: (escape ++ body)) := by
  rcases octets with _ | ⟨letter, octets⟩
  · cases isSkipped
  rw [skipWith_escape] at isSkipped
  by_cases isNumbered : letter = 117
  · subst isNumbered
    rw [if_pos rfl] at isSkipped
    split at isSkipped
    next unit cursor isRead =>
      obtain ⟨digits, isUnit, isFront⟩ := exists_isUnit_of_readHex isRead
      exact ⟨117 :: digits, cursor, congrArg (117 :: ·) isFront, isSkipped,
        fun body isBody => .numbered isUnit isBody⟩
    next => cases isSkipped
  rw [if_neg isNumbered] at isSkipped
  cases escapes : shortEscape? letter with
  | none =>
    rw [escapes] at isSkipped
    cases isSkipped
  | some octet =>
    rw [escapes] at isSkipped
    exact ⟨[letter], _, rfl, isSkipped, fun body isBody => .short escapes isBody⟩

/-- What is skipped is well formed and ends at a closing mark. -/
theorem exists_isBody_of_skipWith {bound : Octets} {cursor behind : Cursor}
    (isSkipped : skipWith bound cursor = .ok behind) :
    ∃ body, IsBody body ∧ cursor.rest = body ++ 34 :: behind.rest := by
  induction bound generalizing cursor with
  | nil => cases isSkipped
  | cons x bound ih =>
    obtain ⟨place, octets⟩ := cursor
    rcases octets with _ | ⟨octet, octets⟩
    · cases isSkipped
    by_cases isMark : octet = 34
    · subst isMark
      cases isSkipped
      exact ⟨[], .nil, rfl⟩
    by_cases isEscape : octet = 92
    · subst isEscape
      obtain ⟨escape, cursor, rfl, isSkipped, extend⟩ := exists_escape_of_skipWith isSkipped
      obtain ⟨body, isBody, isRest⟩ := ih isSkipped
      exact ⟨_, extend body isBody, by simp [isRest]⟩
    by_cases isControl : octet < 32
    · unfold skipWith at isSkipped
      rw [Cursor.peek?_cons] at isSkipped
      dsimp only at isSkipped
      rw [if_neg isMark, if_neg isEscape, if_pos isControl] at isSkipped
      cases isSkipped
    · have noControl := UInt8.not_lt.mp isControl
      rw [skipWith_plain noControl isMark isEscape] at isSkipped
      obtain ⟨body, isBody, isRest⟩ := ih isSkipped
      exact ⟨_, .plain noControl isMark isEscape isBody, congrArg (octet :: ·) isRest⟩

/-- Skipping takes what is well formed. -/
theorem leaves_skip_iff {place : Place} {octets rest : Octets} :
    Leaves (skip ⟨place, octets⟩) rest ↔
      ∃ body, IsBody body ∧ octets = body ++ 34 :: rest := by
  refine ⟨fun ⟨behind, isSkipped⟩ => exists_isBody_of_skipWith isSkipped, ?_⟩
  rintro ⟨body, isBody, rfl⟩
  refine isBody.leaves_skipWith ?_ place rest
  show body.length < (body ++ 34 :: rest).length
  rw [List.length_append, List.length_cons]
  omega

/-- A well-formed text ends at the first closing mark. -/
theorem IsBody.unique {body other rest others : Octets} (isBody : IsBody body)
    (isOther : IsBody other) (same : body ++ 34 :: rest = other ++ 34 :: others) :
    body = other ∧ rest = others := by
  have leaves : Leaves (skip ⟨⟨0, 0⟩, body ++ 34 :: rest⟩) rest :=
    leaves_skip_iff.mpr ⟨body, isBody, rfl⟩
  have leavesOther : Leaves (skip ⟨⟨0, 0⟩, body ++ 34 :: rest⟩) others :=
    leaves_skip_iff.mpr ⟨other, isOther, same⟩
  have equal := leaves.unique leavesOther
  rw [equal] at same
  exact ⟨List.append_cancel_right same, equal⟩

/-! ## Reading -/

theorem rest_of_expectInPair {octet : UInt8} {cursor behind : Cursor}
    (isExpected : expectInPair octet cursor = .ok behind) :
    cursor.rest = octet :: behind.rest := by
  obtain ⟨place, octets⟩ := cursor
  rcases octets with _ | ⟨found, octets⟩
  · cases isExpected
  unfold expectInPair at isExpected
  rw [Cursor.peek?_cons] at isExpected
  dsimp only at isExpected
  split at isExpected
  next isSame =>
    cases isExpected
    rw [isSame]
    rfl
  next => cases isExpected

/-- What stands behind a backslash spells the octets that are read from it. -/
theorem spells_of_readNumbered {cursor behind : Cursor} {c : Char}
    (isRead : readNumbered cursor = .ok (c, behind)) :
    ∃ escape, cursor.rest = escape ++ behind.rest ∧ ∀ text octets, Spells text octets →
      Spells (92 :: 117 :: (escape ++ text)) (String.utf8EncodeChar c ++ octets) := by
  unfold readNumbered at isRead
  obtain ⟨⟨first, behindFirst⟩, isFirst, isRead⟩ := bind_eq_ok_iff.mp isRead
  obtain ⟨digits, isUnit, isFront⟩ := exists_isUnit_of_readHex isFirst
  dsimp only at isRead
  split at isRead
  next => cases isRead
  next notTrailing =>
  split at isRead
  next leading =>
    obtain ⟨behindSlash, isSlash, isRead⟩ := bind_eq_ok_iff.mp isRead
    obtain ⟨behindLetter, isLetter, isRead⟩ := bind_eq_ok_iff.mp isRead
    obtain ⟨⟨second, behindSecond⟩, isSecond, isRead⟩ := bind_eq_ok_iff.mp isRead
    obtain ⟨more, isMore, isMiddle⟩ := exists_isUnit_of_readHex isSecond
    dsimp only at isRead
    split at isRead
    next trailing =>
      obtain ⟨isCharacter, isBehind⟩ := Prod.mk.inj (Except.ok.inj isRead)
      subst isCharacter isBehind
      refine ⟨digits ++ 92 :: 117 :: more, ?_, fun text octets spells => ?_⟩
      · rw [isFront, rest_of_expectInPair isSlash, rest_of_expectInPair isLetter, isMiddle]
        simp
      · have pair := Spells.paired isUnit leading isMore trailing spells
        simpa using pair
    next => cases isRead
  next notLeading =>
    cases isRead
    refine ⟨digits, isFront, fun text octets spells => ?_⟩
    exact .numbered isUnit (by simpa using notLeading) (by simpa using notTrailing) spells

theorem spells_of_readEscape {cursor behind : Cursor} {escaped : Octets}
    (isRead : readEscape cursor = .ok (escaped, behind)) :
    ∃ escape, cursor.rest = escape ++ behind.rest ∧ ∀ text octets, Spells text octets →
      Spells (92 :: (escape ++ text)) (escaped ++ octets) := by
  obtain ⟨place, octets⟩ := cursor
  rcases octets with _ | ⟨letter, octets⟩
  · cases isRead
  cases escapes : shortEscape? letter with
  | some octet =>
    rw [readEscape_short escapes] at isRead
    cases isRead
    exact ⟨[letter], rfl, fun text octets spells => .short escapes spells⟩
  | none =>
    unfold readEscape at isRead
    rw [Cursor.peek?_cons] at isRead
    dsimp only at isRead
    rw [escapes] at isRead
    dsimp only at isRead
    split at isRead
    next isNumbered =>
      subst isNumbered
      obtain ⟨⟨c, behindNumber⟩, isNumber, same⟩ := map_eq_ok_iff.mp isRead
      cases same
      obtain ⟨escape, isFront, spells⟩ := spells_of_readNumbered isNumber
      exact ⟨117 :: escape, congrArg (117 :: ·) isFront, spells⟩
    next => cases isRead

/-- What is read is spelled and ends at a closing mark. -/
theorem spells_of_readOnto {bound read : Octets} {cursor behind : Cursor} {value : String}
    (isRead : readOnto bound read cursor = .ok (value, behind)) :
    ∃ body octets, cursor.rest = body ++ 34 :: behind.rest ∧ Spells body octets ∧
      Octets.toText? (read.reverse ++ octets) = some value := by
  induction bound generalizing read cursor with
  | nil => cases isRead
  | cons x bound ih =>
    obtain ⟨place, octets⟩ := cursor
    rcases octets with _ | ⟨octet, octets⟩
    · cases isRead
    by_cases isMark : octet = 34
    · subst isMark
      rw [readOnto_mark] at isRead
      unfold finish at isRead
      split at isRead
      next text isText =>
        cases isRead
        exact ⟨[], [], rfl, .nil, by simpa using isText⟩
      next => cases isRead
    by_cases isEscape : octet = 92
    · subst isEscape
      cases escape : readEscape ⟨place.after 92, octets⟩ with
      | error fault =>
        unfold readOnto at isRead
        rw [Cursor.peek?_cons] at isRead
        dsimp only at isRead
        rw [if_neg (by decide), if_pos rfl, Cursor.advance_cons, escape] at isRead
        cases isRead
      | ok escaped =>
        obtain ⟨escaped, ⟨behindEscape, rest⟩⟩ := escaped
        rw [readOnto_escape escape] at isRead
        obtain ⟨letters, isFront, spells⟩ := spells_of_readEscape escape
        obtain ⟨body, octets', isRest, spellsRest, isText⟩ := ih isRead
        refine ⟨_, _, ?_, spells _ _ spellsRest, by simpa using isText⟩
        show 92 :: octets = _
        rw [show octets = letters ++ rest from isFront, show rest = _ from isRest]
        simp
    by_cases isControl : octet < 32
    · unfold readOnto at isRead
      rw [Cursor.peek?_cons] at isRead
      dsimp only at isRead
      rw [if_neg isMark, if_neg isEscape, if_pos isControl] at isRead
      cases isRead
    · have noControl := UInt8.not_lt.mp isControl
      rw [readOnto_plain noControl isMark isEscape] at isRead
      obtain ⟨body, octets', isRest, spells, isText⟩ := ih isRead
      exact ⟨_, _, congrArg (octet :: ·) isRest, .plain noControl isMark isEscape spells,
        by simpa using isText⟩

/-- Reading takes what stands for characters. -/
theorem yields_read_iff {place : Place} {octets rest : Octets} {value : String} :
    Yields (read ⟨place, octets⟩) value rest ↔
      ∃ body, Denotes body (some value) ∧ octets = body ++ 34 :: rest := by
  constructor
  · rintro ⟨behind, isRead⟩
    obtain ⟨body, spelled, isFront, spells, isText⟩ := spells_of_readOnto isRead
    exact ⟨body, IsSpelled.denotes ⟨spelled, spells, isText⟩, isFront⟩
  · rintro ⟨body, denotes, rfl⟩
    exact denotes.isSpelled.yields place rest

end Text

end Signet.Json
