import Signet.Proofs.JsonGrammar

/-!
# Skipping a value

Skipping takes one value, whatever it is and however deep its brackets are nested
(`Json.exists_stands_of_skipValue`). The brackets that are open say what has to stand behind a token
(`Json.Completes`); one token after the other is taken off the front of this
(`Json.completes_of_skipToken`), and what is left when all brackets are closed is the rest. The
other way round, a phrase of the grammar is skipped as a whole by induction on how it stands
(`Json.Phrase.Stands.isSkipped`), and so a value is (`Json.Phrase.Stands.leaves_skipValue`).
-/

namespace Signet.Json

open Cursor (rest_of_peek?)

/-! ## Single tokens -/

theorem stands_of_expectColon {cursor behind : Cursor}
    (isSkipped : expectColon cursor = .ok behind) :
    (Token.sign 58).Stands cursor.rest behind.rest := by
  unfold expectColon at isSkipped
  dsimp only at isSkipped
  split at isSkipped
  next isColon =>
    cases isSkipped
    exact Token.stands_of_peek? isColon (by decide)
  next => cases isSkipped
  next => cases isSkipped

theorem Token.Stands.leaves_expectColon {octets rest : Octets}
    (stands : (Token.sign 58).Stands octets rest) (place : Place) :
    Leaves (expectColon ⟨place, octets⟩) rest := by
  obtain ⟨behind, skipped⟩ := stands.skipBlanks_sign place
  unfold expectColon
  dsimp only
  rw [skipped]
  exact ⟨_, rfl⟩

theorem leaves_expectWord_iff {letters : Octets} {cursor : Cursor} {rest : Octets} :
    Leaves (expectWord letters cursor) rest ↔ cursor.rest = letters ++ rest := by
  induction letters generalizing cursor with
  | nil =>
    constructor
    · rintro ⟨place, isRead⟩
      rw [Except.ok.inj isRead]
      rfl
    · rintro rfl
      exact ⟨cursor.place, rfl⟩
  | cons letter letters ih =>
    obtain ⟨place, _ | ⟨octet, octets⟩⟩ := cursor
    · exact ⟨nofun, nofun⟩
    rw [expectWord, Cursor.peek?_cons]
    dsimp only
    by_cases same : octet = letter
    · subst same
      rw [if_pos rfl, ih, List.cons_append]
      exact ⟨congrArg (octet :: ·), fun isFront => (List.cons.inj isFront).2⟩
    · rw [if_neg same]
      exact ⟨nofun, fun isFront => absurd (List.cons.inj isFront).1 same⟩

theorem stands_of_skipName {cursor behind : Cursor} (isSkipped : skipName cursor = .ok behind) :
    ∃ body behindName, (Token.text body).Stands cursor.rest behindName ∧
      (Token.sign 58).Stands behindName behind.rest := by
  unfold skipName at isSkipped
  dsimp only at isSkipped
  split at isSkipped
  next isMark =>
    split at isSkipped
    next isName =>
      obtain ⟨body, isBody, isFront⟩ := Text.leaves_skip_iff.mp ⟨_, isName⟩
      exact ⟨body, _, Token.text_stands_of_peek? isMark isBody isFront,
        stands_of_expectColon isSkipped⟩
    next => cases isSkipped
  next => cases isSkipped
  next => cases isSkipped

theorem leaves_skipName {body octets behindName rest : Octets}
    (isName : (Token.text body).Stands octets behindName)
    (isColon : (Token.sign 58).Stands behindName rest) (place : Place) :
    Leaves (skipName ⟨place, octets⟩) rest := by
  obtain ⟨behind, skipped⟩ := isName.skipBlanks_text place
  have leaves : Leaves (Text.skip ⟨behind.after 34, body ++ 34 :: behindName⟩) behindName :=
    Text.leaves_skip_iff.mpr ⟨body, isName.isFormed, rfl⟩
  obtain ⟨after, isSkipped⟩ := leaves
  unfold skipName
  dsimp only
  rw [skipped, Cursor.peek?_cons]
  rw [Cursor.advance_cons, isSkipped]
  exact isColon.leaves_expectColon after

/-! ## What completes open brackets -/

/-- What stands inside of a bracket, from its beginning on or behind a value. -/
def Bracket.Holds (bracket : Bracket) (isFirst : Bool) (octets rest : Octets) : Prop :=
  match bracket with
  | .list => ∃ items, (Phrase.items isFirst items).Stands octets rest
  | .object => ∃ members, (Phrase.members isFirst members).Stands octets rest

/-- What is left of a bracket and its end. -/
def Bracket.Closes (bracket : Bracket) (isFirst : Bool) (octets rest : Octets) : Prop :=
  ∃ closing, bracket.Holds isFirst octets closing ∧
    (Token.sign bracket.closing).Stands closing rest

/-- What closes all brackets behind a value, from the innermost on. -/
def Closes : List Bracket → (octets rest : Octets) → Prop
  | [], octets, rest => octets = rest
  | bracket :: brackets, octets, rest =>
    ∃ behind, bracket.Closes false octets behind ∧ Closes brackets behind rest

/-- What completes a value that skipping is inside of. -/
def Completes : Expected → List Bracket → (octets rest : Octets) → Prop
  | .value, brackets, octets, rest =>
    ∃ value behind, (Phrase.value value).Stands octets behind ∧ Closes brackets behind rest
  | .firstOrEnd, [], _, _ => False
  | .firstOrEnd, bracket :: brackets, octets, rest =>
    ∃ behind, bracket.Closes true octets behind ∧ Closes brackets behind rest
  | .commaOrEnd, brackets, octets, rest => Closes brackets octets rest

theorem Bracket.closing_mem (bracket : Bracket) :
    bracket.closing ∈ ([91, 93, 123, 125, 44, 58] : Octets) := by
  cases bracket <;> decide

/-- A bracket may be closed without anything more. -/
theorem Bracket.closes_of_stands {bracket : Bracket} {isFirst : Bool} {octets rest : Octets}
    (stands : (Token.sign bracket.closing).Stands octets rest) :
    bracket.Closes isFirst octets rest := by
  cases bracket with
  | list => exact ⟨octets, ⟨[], .noItems⟩, stands⟩
  | object => exact ⟨octets, ⟨[], .noMembers⟩, stands⟩

theorem Bracket.Closes.item {isFirst : Bool} {value : Value} {octets here behind rest : Octets}
    (begins : Begins isFirst octets here) (stands : (Phrase.value value).Stands here behind)
    (closes : Bracket.list.Closes false behind rest) : Bracket.list.Closes isFirst octets rest := by
  obtain ⟨closing, ⟨items, standsRest⟩, isClosed⟩ := closes
  exact ⟨closing, ⟨_, .item begins stands standsRest⟩, isClosed⟩

theorem Bracket.Closes.member {isFirst : Bool} {body : Octets} {value : Value}
    {octets here behindName behindColon behind rest : Octets} (begins : Begins isFirst octets here)
    (isName : (Token.text body).Stands here behindName)
    (isColon : (Token.sign 58).Stands behindName behindColon)
    (stands : (Phrase.value value).Stands behindColon behind)
    (closes : Bracket.object.Closes false behind rest) :
    Bracket.object.Closes isFirst octets rest := by
  obtain ⟨closing, ⟨members, standsRest⟩, isClosed⟩ := closes
  obtain ⟨name?, denotes⟩ := isName.isFormed.exists_denotes
  exact ⟨closing, ⟨_, .member begins isName denotes isColon stands standsRest⟩, isClosed⟩

/-- A numeral ends before what is left of a bracket. -/
theorem Bracket.Closes.ends {bracket : Bracket} {octets rest : Octets}
    (closes : bracket.Closes false octets rest) : Number.Ends octets := by
  obtain ⟨closing, holds, isClosed⟩ := closes
  cases bracket with
  | list =>
    obtain ⟨items, stands⟩ := holds
    cases stands with
    | noItems => exact isClosed.ends
    | item begins =>
      cases begins with
      | later comma => exact comma.ends
  | object =>
    obtain ⟨members, stands⟩ := holds
    cases stands with
    | noMembers => exact isClosed.ends
    | member begins =>
      cases begins with
      | later comma => exact comma.ends

theorem Closes.ends {brackets : List Bracket} {octets rest : Octets}
    (closes : Closes brackets octets rest) (ends : Number.Ends rest) : Number.Ends octets := by
  cases brackets with
  | nil =>
    obtain rfl : octets = rest := closes
    exact ends
  | cons bracket brackets =>
    obtain ⟨behind, innermost, -⟩ := closes
    exact innermost.ends

/-! ## What is skipped is a value -/

section Skipped

variable {expected next : Expected} {bracket : Bracket} {brackets nested : List Bracket}
  {cursor behind : Cursor} {rest : Octets}

theorem exists_word_of_wordRest? {first : UInt8} {letters : Octets} {found : Found}
    (isWord : wordRest? first = some (letters, found)) :
    ∃ meant : Word, meant.letters = first :: letters := by
  unfold wordRest? at isWord
  split at isWord
  next isNull =>
    cases isWord
    exact ⟨.null, by rw [isNull]; rfl⟩
  split at isWord
  next isYes =>
    cases isWord
    exact ⟨.yes, by rw [isYes]; rfl⟩
  split at isWord
  next isNo =>
    cases isWord
    exact ⟨.no, by rw [isNo]; rfl⟩
  next => cases isWord

theorem completes_of_startValue (isStarted : startValue brackets cursor.skipBlanks =
      .ok (next, nested, behind))
    (completes : Completes next nested behind.rest rest) (ends : Number.Ends rest) :
    Completes .value brackets cursor.rest rest := by
  unfold startValue at isStarted
  split at isStarted
  next => cases isStarted
  next octet isNext =>
  split at isStarted
  next isList =>
    subst isList
    cases isStarted
    obtain ⟨closed, ⟨closing, ⟨items, inside⟩, isClosed⟩, closes⟩ := completes
    exact ⟨_, closed, .list (Token.stands_of_peek? isNext (by decide)) inside isClosed, closes⟩
  split at isStarted
  next isObject =>
    subst isObject
    cases isStarted
    obtain ⟨closed, ⟨closing, ⟨members, inside⟩, isClosed⟩, closes⟩ := completes
    exact ⟨_, closed,
      .object (Token.stands_of_peek? isNext (by decide)) inside isClosed, closes⟩
  -- A value without brackets is one token.
  obtain ⟨skipped, isSkipped, same⟩ := map_eq_ok_iff.mp isStarted
  cases same
  have isHere := rest_of_peek? isNext
  split at isSkipped
  next isText =>
    subst isText
    obtain ⟨body, isBody, isFront⟩ := Text.leaves_skip_iff.mp ⟨_, isSkipped⟩
    obtain ⟨value?, denotes⟩ := isBody.exists_denotes
    exact ⟨_, _, .text (Token.text_stands_of_peek? isNext isBody isFront) denotes, completes⟩
  split at isSkipped
  next =>
    obtain ⟨numeral, isNumeral, isFront⟩ := Number.exists_isNumeral_of_skip isSkipped
    have isFormed : (Token.number numeral).IsFormed behind.rest :=
      ⟨isNumeral, Closes.ends completes ends⟩
    exact ⟨_, _, .number (Token.stands_iff.mpr ⟨isFormed, isFront⟩), completes⟩
  split at isSkipped
  next letters found isWord =>
    obtain ⟨meant, isMeant⟩ := exists_word_of_wordRest? isWord
    have isFront := leaves_expectWord_iff.mp ⟨_, isSkipped⟩
    have isSpelled : cursor.skipBlanks.rest = (Token.word meant).octets ++ behind.rest := by
      rw [isHere, isFront, Token.octets, isMeant, List.cons_append]
    exact ⟨_, _, .word (Token.stands_iff.mpr ⟨trivial, isSpelled⟩), completes⟩
  next => cases isSkipped

theorem closes_of_startElement {isFirst : Bool} {octets : Octets}
    (isStarted : startElement bracket brackets cursor = .ok (next, nested, behind))
    (completes : Completes next nested behind.rest rest)
    (begins : Begins isFirst octets cursor.rest) :
    ∃ behind, bracket.Closes isFirst octets behind ∧ Closes brackets behind rest := by
  unfold startElement at isStarted
  split at isStarted
  next =>
    cases isStarted
    obtain ⟨value, behindValue, stands, closed, closes, completes⟩ := completes
    exact ⟨closed, .item begins stands closes, completes⟩
  next =>
    obtain ⟨skipped, isSkipped, same⟩ := map_eq_ok_iff.mp isStarted
    cases same
    obtain ⟨body, behindName, isName, isColon⟩ := stands_of_skipName isSkipped
    obtain ⟨value, behindValue, stands, closed, closes, completes⟩ := completes
    exact ⟨closed, .member begins isName isColon stands closes, completes⟩

/-- What is skipped in a step is taken off the front of what completes the value. -/
theorem completes_of_skipToken (isSkipped : skipToken expected brackets cursor =
      .ok (next, nested, behind))
    (completes : Completes next nested behind.rest rest) (ends : Number.Ends rest)
    (isOpen : brackets = [] → expected = .commaOrEnd → False) :
    Completes expected brackets cursor.rest rest := by
  unfold skipToken at isSkipped
  dsimp only at isSkipped
  split at isSkipped
  next => exact completes_of_startValue isSkipped completes ends
  next notValue =>
    cases isSkipped
    cases expected with
    | value => exact (notValue rfl).elim
    | firstOrEnd => exact completes
    | commaOrEnd => exact absurd rfl (isOpen rfl)
  next bracket brackets =>
    split at isSkipped
    next => cases isSkipped
    next octet isNext =>
    split at isSkipped
    next isClosing =>
      subst isClosing
      cases isSkipped
      exact ⟨_, Bracket.closes_of_stands (Token.stands_of_peek? isNext bracket.closing_mem),
        completes⟩
    split at isSkipped
    next =>
      obtain ⟨value, behindValue, stands, closed, closes, completes⟩ :=
        completes_of_startValue isSkipped completes ends
      exact ⟨closed, .item .first stands closes, completes⟩
    next =>
      obtain ⟨named, isNamed, same⟩ := map_eq_ok_iff.mp isSkipped
      cases same
      obtain ⟨body, behindName, isName, isColon⟩ := stands_of_skipName isNamed
      obtain ⟨value, behindValue, stands, closed, closes, completes⟩ := completes
      exact ⟨closed, .member .first (Token.stands_skipBlanks_iff.mp isName) isColon stands closes,
        completes⟩
  next bracket brackets =>
    split at isSkipped
    next => cases isSkipped
    next octet isNext =>
    split at isSkipped
    next isClosing =>
      subst isClosing
      cases isSkipped
      exact ⟨_, Bracket.closes_of_stands (Token.stands_of_peek? isNext bracket.closing_mem),
        completes⟩
    split at isSkipped
    next isComma =>
      subst isComma
      exact closes_of_startElement isSkipped completes
        (.later (Token.stands_of_peek? isNext (by decide)))
    next => cases isSkipped

theorem completes_of_skipTokens {bound : Octets}
    (isSkipped : skipTokens bound expected brackets cursor = .ok behind)
    (ends : Number.Ends behind.rest) : Completes expected brackets cursor.rest behind.rest := by
  fun_induction skipTokens bound expected brackets cursor with
  | case1 =>
    cases isSkipped
    exact rfl
  | case2 => cases isSkipped
  | case3 _ _ _ _ _ isOpen _ _ _ isStep ih =>
    exact completes_of_skipToken isStep (ih isSkipped) ends fun none last => isOpen last none
  | case4 => cases isSkipped

end Skipped

/-! ## A value is skipped -/

/-- That skipping gets from one state to another, and that its bound lasts. -/
def Skips (expected : Expected) (brackets : List Bracket) (octets : Octets) (next : Expected)
    (nested : List Bracket) (rest : Octets) : Prop :=
  ∀ bound place, octets.length ≤ bound.length →
    ∃ shorter behind, rest.length ≤ shorter.length ∧
    skipTokens bound expected brackets ⟨place, octets⟩ =
      skipTokens shorter next nested ⟨behind, rest⟩

/-- That a value is started, or skipped if it is all but brackets. -/
def Starts (brackets : List Bracket) (octets : Octets) (next : Expected) (nested : List Bracket)
    (rest : Octets) : Prop :=
  ∀ place, ∃ behind, startValue brackets (⟨place, octets⟩ : Cursor).skipBlanks =
    .ok (next, nested, ⟨behind, rest⟩)

/-- What is expected inside of a bracket, from its beginning on or behind a value. -/
def Expected.inside (isFirst : Bool) : Expected :=
  if isFirst then .firstOrEnd else .commaOrEnd

section Skips

variable {expected next last : Expected} {bracket : Bracket} {brackets nested inner : List Bracket}
  {octets rest here behind : Octets} {isFirst : Bool}

theorem Skips.refl : Skips expected brackets octets expected brackets octets :=
  fun bound place enough => ⟨bound, place, enough, rfl⟩

theorem Skips.trans (skips : Skips expected brackets octets next nested here)
    (skipsMore : Skips next nested here last inner rest) :
    Skips expected brackets octets last inner rest := by
  intro bound place enough
  obtain ⟨shorter, behind, lasts, first⟩ := skips bound place enough
  obtain ⟨shortest, behindMore, lastsMore, second⟩ := skipsMore shorter behind lasts
  exact ⟨shortest, behindMore, lastsMore, first.trans second⟩

/-- A step takes at least one octet, so the bound lasts. -/
theorem Skips.of_skipToken
    (step : ∀ place, ∃ behind,
      skipToken expected brackets ⟨place, octets⟩ = .ok (next, nested, ⟨behind, rest⟩))
    (isShorter : rest.length < octets.length)
    (isOpen : expected = .commaOrEnd → brackets = [] → False) :
    Skips expected brackets octets next nested rest := by
  intro bound place enough
  obtain ⟨x, bound, rfl⟩ := List.exists_cons_of_length_pos (by omega : 0 < bound.length)
  obtain ⟨behind, isStep⟩ := step place
  rw [List.length_cons] at enough
  refine ⟨bound, behind, by omega, ?_⟩
  rw [skipTokens.eq_3 _ _ _ _ _ isOpen, isStep]

theorem Skips.of_starts (starts : Starts brackets octets next nested rest)
    (isShorter : rest.length < octets.length) : Skips .value brackets octets next nested rest :=
  .of_skipToken starts isShorter nofun

theorem Starts.of_list (stands : (Token.sign 91).Stands octets rest) :
    Starts brackets octets .firstOrEnd (.list :: brackets) rest := by
  intro place
  obtain ⟨behind, skipped⟩ := stands.skipBlanks place
  rw [skipped]
  exact ⟨_, rfl⟩

theorem Starts.of_object (stands : (Token.sign 123).Stands octets rest) :
    Starts brackets octets .firstOrEnd (.object :: brackets) rest := by
  intro place
  obtain ⟨behind, skipped⟩ := stands.skipBlanks place
  rw [skipped]
  exact ⟨_, rfl⟩

theorem startValue_cons (place : Place) (octet : UInt8) (more : Octets) :
    startValue brackets ⟨place, octet :: more ++ rest⟩ =
      if octet = 91 then .ok (.firstOrEnd, .list :: brackets, ⟨place.after octet, more ++ rest⟩)
      else if octet = 123 then
        .ok (.firstOrEnd, .object :: brackets, ⟨place.after octet, more ++ rest⟩)
      else
        (if octet = 34 then Text.skip ⟨place.after octet, more ++ rest⟩
        else if octet = 45 ∨ Number.isDigit octet then
          Number.skip ⟨place, octet :: more ++ rest⟩
        else
          match wordRest? octet with
          | some (letters, _) => expectWord letters ⟨place.after octet, more ++ rest⟩
          | none => (⟨place, octet :: more ++ rest⟩ : Cursor).nextFault .expectedValue).map
            fun cursor => (.commaOrEnd, brackets, cursor) := rfl

/-- A word is known by its first letter. -/
theorem Word.exists_wordRest? (meant : Word) :
    ∃ letter letters found, wordRest? letter = some (letters, found) ∧
      meant.letters = letter :: letters := by
  cases meant <;> exact ⟨_, _, _, rfl, rfl⟩

theorem noSign_of_wordRest? {letter : UInt8} {letters : Octets} {found : Found}
    (isWord : wordRest? letter = some (letters, found)) :
    letter ≠ 91 ∧ letter ≠ 123 ∧ letter ≠ 34 ∧
      ¬ (letter = 45 ∨ Number.isDigit letter = true) := by
  obtain ⟨meant, isMeant⟩ := exists_word_of_wordRest? isWord
  cases meant <;> cases isMeant <;> decide

theorem Starts.of_word {meant : Word} (stands : (Token.word meant).Stands octets rest) :
    Starts brackets octets .commaOrEnd brackets rest := by
  intro place
  obtain ⟨behind, skipped⟩ := stands.skipBlanks place
  rw [skipped]
  obtain ⟨letter, letters, found, isWord, isSpelled⟩ := meant.exists_wordRest?
  have leaves : Leaves (expectWord letters ⟨behind.after letter, letters ++ rest⟩) rest :=
    leaves_expectWord_iff.mpr rfl
  obtain ⟨after, isSkipped⟩ := leaves
  obtain ⟨noList, noObject, noMark, noNumber⟩ := noSign_of_wordRest? isWord
  rw [Token.octets, isSpelled, startValue_cons, if_neg noList, if_neg noObject, if_neg noMark,
    if_neg noNumber, isWord]
  exact ⟨after, congrArg (Except.map _) isSkipped⟩

theorem Starts.of_text {body : Octets} (stands : (Token.text body).Stands octets rest) :
    Starts brackets octets .commaOrEnd brackets rest := by
  intro place
  obtain ⟨behind, skipped⟩ := stands.skipBlanks_text place
  have leaves : Leaves (Text.skip ⟨behind.after 34, body ++ 34 :: rest⟩) rest :=
    Text.leaves_skip_iff.mpr ⟨body, stands.isFormed, rfl⟩
  obtain ⟨place, isSkipped⟩ := leaves
  rw [skipped]
  exact ⟨place, congrArg (Except.map _) isSkipped⟩

theorem Starts.of_number {numeral : Octets} (stands : (Token.number numeral).Stands octets rest) :
    Starts brackets octets .commaOrEnd brackets rest := by
  intro place
  obtain ⟨behind, skipped⟩ := stands.skipBlanks place
  obtain ⟨isNumeral, ends⟩ := stands.isFormed
  obtain ⟨after, isSkipped⟩ := isNumeral.leaves_skip ends behind
  obtain ⟨first, others, rfl, isFirst⟩ := isNumeral.exists_cons
  have noMark : first ≠ 91 ∧ first ≠ 123 ∧ first ≠ 34 := by
    refine ⟨?_, ?_, ?_⟩ <;> rintro rfl <;> revert isFirst <;> decide
  rw [skipped, Token.octets, startValue_cons, if_neg noMark.1, if_neg noMark.2.1,
    if_neg noMark.2.2, if_pos isFirst.symm]
  exact ⟨after, congrArg (Except.map _) isSkipped⟩

/-- A bracket is left behind its closing octet. -/
theorem Skips.of_closing (bracket : Bracket)
    (stands : (Token.sign bracket.closing).Stands octets rest) :
    Skips (.inside isFirst) (bracket :: brackets) octets .commaOrEnd brackets rest := by
  refine .of_skipToken (fun place => ?_) stands.length_lt nofun
  obtain ⟨behind, skipped⟩ := stands.skipBlanks place
  unfold skipToken
  dsimp only
  rw [skipped]
  cases isFirst with
  | false => exact ⟨behind.after bracket.closing, if_pos rfl⟩
  | true => exact ⟨behind.after bracket.closing, if_pos rfl⟩

/-- A value in a list is skipped, and behind a comma if it is not the first one. -/
theorem Skips.of_item {value : Value} (begins : Begins isFirst octets here)
    (stands : (Phrase.value value).Stands here behind)
    (starts : Starts (.list :: brackets) here next nested rest)
    (isShorter : rest.length < here.length) :
    Skips (.inside isFirst) (.list :: brackets) octets next nested rest := by
  cases begins with
  | first =>
    refine .of_skipToken (fun place => ?_) isShorter nofun
    obtain ⟨first, isNext, isStart⟩ := stands.peek? place
    have noEnd : first ≠ Bracket.list.closing := isStart.ne_of_sign (by decide)
    unfold skipToken
    dsimp only [Expected.inside]
    rw [if_pos rfl, isNext]
    dsimp only
    rw [if_neg noEnd]
    exact starts place
  | later comma =>
    have toValue : Skips .commaOrEnd (.list :: brackets) octets .value
        (.list :: brackets) here := by
      refine .of_skipToken (fun place => ?_) comma.length_lt nofun
      obtain ⟨behind, skipped⟩ := comma.skipBlanks place
      unfold skipToken
      dsimp only
      rw [skipped]
      exact ⟨_, rfl⟩
    exact toValue.trans (.of_starts starts isShorter)

/-- A name in an object is skipped with its colon, and behind a comma if it is not the first one. -/
theorem Skips.of_name {body behindName : Octets} (begins : Begins isFirst octets here)
    (isName : (Token.text body).Stands here behindName)
    (isColon : (Token.sign 58).Stands behindName rest) :
    Skips (.inside isFirst) (.object :: brackets) octets .value (.object :: brackets) rest := by
  have isShorter : rest.length < here.length := Nat.lt_trans isColon.length_lt isName.length_lt
  cases begins with
  | first =>
    refine .of_skipToken (fun place => ?_) isShorter nofun
    obtain ⟨behind, skipped⟩ := isName.skipBlanks place
    have isHere : (Token.text body).Stands
        (⟨place, octets⟩ : Cursor).skipBlanks.rest behindName :=
      Token.stands_skipBlanks_iff.mpr isName
    rw [skipped] at isHere
    obtain ⟨after, isSkipped⟩ := leaves_skipName isHere isColon behind
    unfold skipToken
    dsimp only [Expected.inside]
    rw [skipped]
    exact ⟨after, congrArg (Except.map _) isSkipped⟩
  | later comma =>
    refine .of_skipToken (fun place => ?_) (Nat.lt_trans isShorter comma.length_lt) nofun
    obtain ⟨behind, skipped⟩ := comma.skipBlanks place
    obtain ⟨after, isSkipped⟩ := leaves_skipName isName isColon (behind.after 44)
    unfold skipToken
    dsimp only [Expected.inside]
    rw [skipped]
    exact ⟨after, congrArg (Except.map _) isSkipped⟩

end Skips

/-- That a phrase is skipped: a value as a whole, and what is left inside of a bracket together with
its end. -/
def Phrase.IsSkipped : Phrase → (octets rest : Octets) → Prop
  | value _, octets, rest => ∀ brackets, ∃ next nested behind,
      Starts brackets octets next nested behind ∧ behind.length < octets.length ∧
        Skips next nested behind .commaOrEnd brackets rest
  | items isFirst _, octets, closing => ∀ brackets rest, (Token.sign 93).Stands closing rest →
      Skips (.inside isFirst) (.list :: brackets) octets .commaOrEnd brackets rest
  | members isFirst _, octets, closing =>
    ∀ brackets rest, (Token.sign 125).Stands closing rest →
      Skips (.inside isFirst) (.object :: brackets) octets .commaOrEnd brackets rest

theorem Phrase.Stands.isSkipped {phrase : Phrase} {octets rest : Octets}
    (stands : phrase.Stands octets rest) : phrase.IsSkipped octets rest := by
  induction stands with
  | word isWord => exact fun brackets => ⟨_, _, _, .of_word isWord, isWord.length_lt, .refl⟩
  | number isNumber =>
    exact fun brackets => ⟨_, _, _, .of_number isNumber, isNumber.length_lt, .refl⟩
  | text isText _ => exact fun brackets => ⟨_, _, _, .of_text isText, isText.length_lt, .refl⟩
  | list opens _ closes ih =>
    exact fun brackets => ⟨_, _, _, .of_list opens, opens.length_lt, ih brackets _ closes⟩
  | object opens _ closes ih =>
    exact fun brackets => ⟨_, _, _, .of_object opens, opens.length_lt, ih brackets _ closes⟩
  | noItems => exact fun brackets rest closes => .of_closing .list closes
  | item begins standsValue _ ihValue ihRest =>
    intro brackets rest closes
    obtain ⟨next, nested, behind, starts, isShorter, skips⟩ := ihValue (.list :: brackets)
    exact (Skips.of_item begins standsValue starts isShorter).trans
      (skips.trans (ihRest brackets rest closes))
  | noMembers => exact fun brackets rest closes => .of_closing .object closes
  | member begins isName _ isColon _ _ ihValue ihRest =>
    intro brackets rest closes
    obtain ⟨next, nested, behind, starts, isShorter, skips⟩ := ihValue (.object :: brackets)
    exact (Skips.of_name begins isName isColon).trans
      ((Skips.of_starts starts isShorter).trans (skips.trans (ihRest brackets rest closes)))

/-- Skipping takes a value. Where it comes to its end it has read a value, unless it has stopped
inside of a numeral. -/
theorem exists_stands_of_skipValue {cursor behind : Cursor}
    (isSkipped : skipValue cursor = .ok behind) (ends : Number.Ends behind.rest) :
    ∃ value, (Phrase.value value).Stands cursor.rest behind.rest := by
  obtain ⟨value, after, stands, rfl⟩ := completes_of_skipTokens isSkipped ends
  exact ⟨value, stands⟩

/-- A value is skipped, whatever it is. -/
theorem Phrase.Stands.leaves_skipValue {value : Value} {cursor : Cursor} {rest : Octets}
    (stands : (Phrase.value value).Stands cursor.rest rest) : Leaves (skipValue cursor) rest := by
  obtain ⟨next, nested, behind, starts, isShorter, skips⟩ := stands.isSkipped []
  have skips : Skips .value [] cursor.rest .commaOrEnd [] rest :=
    (Skips.of_starts starts isShorter).trans skips
  obtain ⟨bound, place, -, isSkipped⟩ := skips (0 :: cursor.rest) cursor.place (Nat.le_succ _)
  refine ⟨place, isSkipped.trans ?_⟩
  cases bound <;> rfl

end Signet.Json
