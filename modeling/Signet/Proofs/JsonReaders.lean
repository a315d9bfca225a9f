import Mathlib.Data.List.Forall2
import Signet.Json.Reading
import Signet.Proofs.JsonSkipping

/-!
# What readers understand

`Json.Understands` says of a reader which values of the grammar it takes, and as what: a value is
read just where one stands that means it, and all of it is read. So a reader is known by what values
mean to it, and neither by where they stand nor by how they are spelled. Texts, nothing, names of
choices and lists are understood in this way here; a whole text is read as what its one value means
(`Json.Understands.readWhole_eq_ok_iff`).
-/

namespace Signet.Json

open Cursor (AreBlank)

/-- That a reader takes just the values that mean something to it, as what they mean. -/
def Understands {α : Type} (reader : Reader α) (Means : Value → α → Prop) : Prop :=
  ∀ cursor value rest, Yields (reader cursor) value rest ↔
    ∃ tree, (Phrase.value tree).Stands cursor.rest rest ∧ Means tree value

theorem Understands.intro {α : Type} {reader : Reader α} {Means : Value → α → Prop}
    (sound : ∀ {cursor value behind}, reader cursor = .ok (value, behind) →
      ∃ tree, (Phrase.value tree).Stands cursor.rest behind.rest ∧ Means tree value)
    (complete : ∀ {tree octets value rest}, (Phrase.value tree).Stands octets rest →
      Means tree value → ∀ place, Yields (reader ⟨place, octets⟩) value rest) :
    Understands reader Means :=
  fun cursor _ _ => ⟨fun ⟨_, isRead⟩ => sound isRead,
    fun ⟨_, stands, means⟩ => complete stands means cursor.place⟩

theorem Understands.congr {α : Type} {reader : Reader α} {Means Others : Value → α → Prop}
    (understands : Understands reader Means)
    (same : ∀ tree value, Means tree value ↔ Others tree value) :
    Understands reader Others := by
  have equal : Means = Others := funext fun tree => funext fun value => propext (same tree value)
  rwa [← equal]

theorem refuse_ne_ok {α : Type} {expected : String} {cursor : Cursor} {result : α} :
    refuse expected cursor ≠ .ok result := by
  unfold refuse
  split <;> nofun

/-! ## Texts and nothing -/

def MeansText (tree : Value) (text : String) : Prop :=
  tree = .text (some text)

theorem understands_readText : Understands readText MeansText := by
  refine .intro (fun isRead => ?_) (fun stands means place => ?_)
  · unfold readText at isRead
    dsimp only at isRead
    split at isRead
    next => cases isRead
    next octet isNext =>
    split at isRead
    next isMark =>
      subst isMark
      obtain ⟨body, denotes, isFront⟩ := Text.yields_read_iff.mp ⟨_, isRead⟩
      exact ⟨_, .text (Token.text_stands_of_peek? isNext denotes.1 isFront) denotes, rfl⟩
    next => exact absurd isRead refuse_ne_ok
  · cases means
    cases stands with
    | text isText denotes =>
      obtain ⟨behind, skipped⟩ := isText.skipBlanks_text place
      unfold readText
      rw [skipped]
      exact Text.yields_read_iff.mpr ⟨_, denotes, rfl⟩

/-- Behind its first letter, the word for nothing is read where it stands. -/
theorem yields_null_iff {α : Type} {cursor : Cursor} {result value : α} {rest : Octets}
    (isNext : cursor.skipBlanks.peek? = some 110) :
    Yields ((expectWord [117, 108, 108] cursor.skipBlanks.advance).map fun cursor =>
        (result, cursor)) value rest ↔
      (Phrase.value .null).Stands cursor.rest rest ∧ result = value := by
  rw [yields_of_moved_iff, leaves_expectWord_iff, Value.null, Phrase.stands_word_iff,
    Token.stands_iff, Cursor.rest_of_peek? isNext]
  constructor
  · rintro ⟨isFront, same⟩
    exact ⟨⟨trivial, congrArg (110 :: ·) isFront⟩, same⟩
  · rintro ⟨⟨-, isFront⟩, same⟩
    exact ⟨(List.cons.inj isFront).2, same⟩

/-- A value that starts like the word for nothing is this word. -/
theorem Value.StartsWith.eq_null {tree : Value} (starts : tree.StartsWith 110) : tree = .null := by
  cases tree with
  | word meant =>
    obtain ⟨letters, isWord⟩ := starts
    cases meant <;> cases isWord
    rfl
  | number numeral =>
    have isDigit : Number.isDigit 110 = true ∨ (110 : UInt8) = 45 := starts
    exact absurd isDigit (by decide)
  | text value? | list items | object members => cases starts

def MeansUnit (tree : Value) (_ : Unit) : Prop :=
  tree = .null

theorem understands_readUnit : Understands readUnit MeansUnit := by
  refine .intro (fun isRead => ?_) (fun stands means place => ?_)
  · unfold readUnit at isRead
    dsimp only at isRead
    split at isRead
    next => cases isRead
    next octet isNext =>
    split at isRead
    next isLetter =>
      subst isLetter
      exact ⟨_, ((yields_null_iff isNext).mp ⟨_, isRead⟩).1, rfl⟩
    next => exact absurd isRead refuse_ne_ok
  · cases means
    obtain ⟨first, isNext, letters, isFirst⟩ := stands.peek? place
    cases isFirst
    unfold readUnit
    dsimp only
    rw [isNext]
    exact (yields_null_iff isNext).mpr ⟨stands, rfl⟩

/-- What values mean if nothing may stand in their place. -/
def MeansOption {α : Type} (Means : Value → α → Prop) (tree : Value) : Option α → Prop
  | none => tree = .null
  | some value => Means tree value

theorem Understands.readOption {α : Type} {reader : Reader α} {Means : Value → α → Prop}
    (understands : Understands reader Means) (notNull : ∀ value, ¬ Means .null value) :
    Understands (Json.readOption reader) (MeansOption Means) := by
  intro cursor value? rest
  unfold Json.readOption
  dsimp only
  split
  next isNext =>
    rw [yields_null_iff isNext]
    constructor
    · rintro ⟨stands, rfl⟩
      exact ⟨_, stands, rfl⟩
    · rintro ⟨tree, stands, means⟩
      obtain ⟨first, isFirst, starts⟩ := stands.peek? cursor.place
      obtain rfl : 110 = first := Option.some.inj (isNext.symm.trans isFirst)
      obtain rfl := starts.eq_null
      cases value? with
      | none => exact ⟨stands, rfl⟩
      | some value => exact absurd means (notNull value)
  next notNext =>
    rw [yields_map_iff]
    constructor
    · rintro ⟨value, yields, rfl⟩
      obtain ⟨tree, stands, means⟩ := (understands _ _ _).mp yields
      exact ⟨tree, Phrase.stands_skipBlanks_iff.mp stands, means⟩
    · rintro ⟨tree, stands, means⟩
      cases value? with
      | none =>
        obtain rfl : tree = .null := means
        obtain ⟨first, isFirst, letters, isLetter⟩ := stands.peek? cursor.place
        cases isLetter
        exact absurd isFirst notNext
      | some value =>
        exact ⟨value,
          (understands _ _ _).mpr ⟨tree, Phrase.stands_skipBlanks_iff.mpr stands, means⟩, rfl⟩

/-! ## Choices -/

/-- What a value means as one of several names: the name as a text, or as the only name of an
object, with nothing as its value. -/
def MeansChoice {α : Type} (choices : List (String × α)) (tree : Value) (choice : α) : Prop :=
  ∃ name, choices.lookup name = some choice ∧
    (tree = .text (some name) ∨ tree = .object [(some name, .null)])

section Choices

variable {α : Type} {choices : List (String × α)}

theorem denotes_of_readChoiceName {cursor behind : Cursor} {choice : α}
    (isRead : readChoiceName choices cursor = .ok (choice, behind)) :
    ∃ body name, Text.Denotes body (some name) ∧ cursor.rest = body ++ 34 :: behind.rest ∧
      choices.lookup name = some choice := by
  unfold readChoiceName at isRead
  split at isRead
  next => cases isRead
  next name behindName isName =>
  split at isRead
  next known =>
    cases isRead
    obtain ⟨body, denotes, isFront⟩ := Text.yields_read_iff.mp ⟨_, isName⟩
    exact ⟨body, name, denotes, isFront, known⟩
  next => cases isRead

theorem yields_readChoiceName {body : Octets} {name : String} {choice : α}
    (denotes : Text.Denotes body (some name)) (known : choices.lookup name = some choice)
    (place : Place) (rest : Octets) :
    Yields (readChoiceName choices ⟨place, body ++ 34 :: rest⟩) choice rest := by
  obtain ⟨behind, isName⟩ := denotes.isSpelled.yields place rest
  unfold readChoiceName
  rw [isName]
  dsimp only
  rw [known]
  exact ⟨behind, rfl⟩

theorem means_of_readChoice {cursor behind : Cursor} {choice : α}
    (isRead : readChoice choices cursor = .ok (choice, behind)) :
    ∃ tree, (Phrase.value tree).Stands cursor.rest behind.rest ∧
      MeansChoice choices tree choice := by
  unfold readChoice at isRead
  dsimp only at isRead
  split at isRead
  next isNext =>
    obtain ⟨body, name, denotes, isFront, known⟩ := denotes_of_readChoiceName isRead
    exact ⟨_, .text (Token.text_stands_of_peek? isNext denotes.1 isFront) denotes, name,
      known, .inl rfl⟩
  next isNext =>
    have opens := Token.stands_of_peek? isNext (by decide)
    split at isRead
    next isMark =>
      obtain ⟨⟨found, behindName⟩, isName, isRead⟩ := bind_eq_ok_iff.mp isRead
      obtain ⟨body, name, denotes, isFront, known⟩ := denotes_of_readChoiceName isName
      have isText := Token.text_stands_of_peek? isMark denotes.1 isFront
      obtain ⟨behindColon, isColon, isRead⟩ := bind_eq_ok_iff.mp isRead
      have colon := stands_of_expectColon isColon
      obtain ⟨⟨_, closing⟩, isNull, isRead⟩ := bind_eq_ok_iff.mp isRead
      obtain ⟨_, isNull, rfl⟩ := (understands_readUnit _ _ _).mp ⟨_, isNull⟩
      dsimp only at isRead
      split at isRead
      next isClosing =>
        cases isRead
        have closes := Token.stands_of_peek? isClosing (by decide)
        exact ⟨_, .object opens (.member .first isText denotes colon isNull .noMembers) closes,
          name, known, .inr rfl⟩
      all_goals cases isRead
    all_goals cases isRead
  all_goals cases isRead

/-- A name is read where it stands as a text. -/
theorem yields_readChoice_of_text {name : String} {choice : α} {octets rest : Octets}
    (known : choices.lookup name = some choice)
    (stands : (Phrase.value (.text (some name))).Stands octets rest) (place : Place) :
    Yields (readChoice choices ⟨place, octets⟩) choice rest := by
  cases stands with
  | text isText denotes =>
    obtain ⟨behind, skipped⟩ := isText.skipBlanks_text place
    unfold readChoice
    rw [skipped]
    exact yields_readChoiceName denotes known _ _

/-- A name is read where it stands as the only name of an object. -/
theorem yields_readChoice_of_object {name : String} {choice : α} {octets rest : Octets}
    (known : choices.lookup name = some choice)
    (stands : (Phrase.value (.object [(some name, .null)])).Stands octets rest) (place : Place) :
    Yields (readChoice choices ⟨place, octets⟩) choice rest := by
  cases stands with
  | object opens inside closes =>
  cases inside with
  | @member _ body _ _ _ _ _ behindName behindColon _ _ begins isName denotes isColon
    isNull inside =>
  cases begins
  cases inside
  obtain ⟨behind, skipped⟩ := opens.skipBlanks_sign place
  obtain ⟨atName, skippedMark⟩ := isName.skipBlanks_text (behind.after 123)
  obtain ⟨atColon, isRead⟩ := yields_readChoiceName denotes known (atName.after 34) behindName
  obtain ⟨atNull, isSkipped⟩ := isColon.leaves_expectColon atColon
  obtain ⟨atEnd, isReadNull⟩ :=
    (understands_readUnit ⟨atNull, behindColon⟩ () _).mpr ⟨_, isNull, rfl⟩
  obtain ⟨closing, skippedClosing⟩ := closes.skipBlanks_sign atEnd
  unfold readChoice
  simp only [skipped, Cursor.peek?_cons, Cursor.advance_cons, skippedMark, isRead,
    bind, Except.bind, isSkipped, isReadNull, skippedClosing]
  exact ⟨_, rfl⟩

theorem understands_readChoice : Understands (readChoice choices) (MeansChoice choices) := by
  refine .intro means_of_readChoice fun stands means place => ?_
  obtain ⟨name, known, rfl | rfl⟩ := means
  · exact yields_readChoice_of_text known stands place
  · exact yields_readChoice_of_object known stands place

theorem lookup_choice_iff {values : List α} {nameOf : α → String}
    (injective : Function.Injective nameOf) {name : String} {value : α} :
    (values.map fun value => (nameOf value, value)).lookup name = some value ↔
      value ∈ values ∧ name = nameOf value := by
  induction values with
  | nil => simp
  | cons first values ih =>
    rw [List.map_cons, List.lookup_cons]
    by_cases same : name = nameOf first
    · subst same
      rw [beq_self_eq_true]
      constructor
      · rintro ⟨⟩
        exact ⟨.head _, rfl⟩
      · rintro ⟨-, isName⟩
        exact congrArg some (injective isName)
    · rw [beq_false_of_ne same]
      simp only [ih, List.mem_cons]
      constructor
      · rintro ⟨isLater, isName⟩
        exact ⟨.inr isLater, isName⟩
      · rintro ⟨rfl | isLater, isName⟩
        · exact absurd isName same
        · exact ⟨isLater, isName⟩

/-- What a value means as one of some values with names: the value whose name it is, as a text or as
the only name of an object, with nothing as its value. -/
def MeansNamed (nameOf : α → String) (tree : Value) (value : α) : Prop :=
  tree = .text (some (nameOf value)) ∨ tree = .object [(some (nameOf value), .null)]

/-- Values with different names are understood by their names. -/
theorem understands_named {values : List α} {nameOf : α → String}
    (injective : Function.Injective nameOf) (areAll : ∀ value, value ∈ values) :
    Understands (readChoice (values.map fun value => (nameOf value, value)))
      (MeansNamed nameOf) := by
  refine understands_readChoice.congr fun tree value => ?_
  unfold MeansChoice MeansNamed
  simp only [lookup_choice_iff injective, areAll, true_and, exists_eq_left]

end Choices

/-! ## Brackets -/

theorem stands_of_close {bracket : Bracket} {cursor behind : Cursor}
    (isClosed : close bracket cursor = (behind, .ok ())) :
    (Token.sign bracket.closing).Stands cursor.rest behind.rest := by
  unfold close at isClosed
  dsimp only at isClosed
  split at isClosed
  next => cases isClosed
  next octet isNext =>
  split at isClosed
  next isClosing =>
    subst isClosing
    cases isClosed
    exact Token.stands_of_peek? isNext bracket.closing_mem
  split at isClosed
  next => cases isClosed
  cases bracket with
  | object => cases isClosed
  | list =>
    dsimp only at isClosed
    split at isClosed <;> cases isClosed

theorem Token.Stands.close (bracket : Bracket) {octets rest : Octets}
    (stands : (Token.sign bracket.closing).Stands octets rest) (place : Place) :
    ∃ behind, Json.close bracket ⟨place, octets⟩ = (⟨behind, rest⟩, .ok ()) := by
  obtain ⟨behind, skipped⟩ := stands.skipBlanks_sign place
  unfold Json.close
  dsimp only
  rw [skipped, Cursor.peek?_cons]
  dsimp only
  rw [if_pos rfl]
  exact ⟨_, rfl⟩

section Moves

variable {isFirst : Bool} {cursor here : Cursor} {octets behind rest : Octets}

theorem begins_of_nextElement? (isNext : nextElement? isFirst cursor = .ok (some here)) :
    ∃ front : Cursor, Begins isFirst cursor.rest front.rest ∧ here = front.skipBlanks := by
  unfold nextElement? at isNext
  dsimp only at isNext
  split at isNext
  next => cases isNext
  next octet isOctet =>
  split at isNext
  next => cases isNext
  cases isFirst with
  | true =>
    cases isNext
    exact ⟨cursor, .first, rfl⟩
  | false =>
    rw [if_neg (by decide)] at isNext
    split at isNext
    next isComma =>
      subst isComma
      split at isNext
      next => cases isNext
      split at isNext
      next => cases isNext
      cases isNext
      exact ⟨_, .later (Token.stands_of_peek? isOctet (by decide)), rfl⟩
    next => cases isNext

theorem nextElement?_of_closes (closes : (Token.sign 93).Stands octets rest) (place : Place) :
    nextElement? isFirst ⟨place, octets⟩ = .ok none := by
  obtain ⟨behind, skipped⟩ := closes.skipBlanks_sign place
  unfold nextElement?
  dsimp only
  rw [skipped]
  rfl

theorem Begins.nextElement? {value : Value} (begins : Begins isFirst octets behind)
    (stands : (Phrase.value value).Stands behind rest) (place : Place) :
    ∃ front, Json.nextElement? isFirst ⟨place, octets⟩ =
      .ok (some (⟨front, behind⟩ : Cursor).skipBlanks) := by
  unfold Json.nextElement?
  dsimp only
  cases begins with
  | first =>
    obtain ⟨first, isNext, starts⟩ := stands.peek? place
    rw [isNext]
    dsimp only
    rw [if_neg (starts.ne_of_sign (by decide)), if_pos rfl]
    exact ⟨place, rfl⟩
  | later comma =>
    obtain ⟨atComma, skipped⟩ := comma.skipBlanks_sign place
    obtain ⟨first, isNext, starts⟩ := stands.peek? (atComma.after 44)
    rw [skipped, Cursor.peek?_cons, Cursor.advance_cons]
    dsimp only
    rw [if_neg (by decide), if_neg (by decide), if_pos rfl, isNext]
    dsimp only
    rw [if_neg (starts.ne_of_sign (by decide))]
    exact ⟨_, rfl⟩

theorem begins_of_nextName? (isNext : nextName? isFirst cursor = .ok (some here)) :
    ∃ front : Cursor, Begins isFirst cursor.rest front.rest ∧
      front.skipBlanks.peek? = some 34 ∧ here = front.skipBlanks.advance := by
  unfold nextName? at isNext
  dsimp only at isNext
  split at isNext
  next => cases isNext
  next octet isOctet =>
  split at isNext
  next => cases isNext
  cases isFirst with
  | true =>
    rw [if_pos rfl] at isNext
    split at isNext
    next isMark =>
      subst isMark
      cases isNext
      exact ⟨cursor, .first, isOctet, rfl⟩
    next => cases isNext
  | false =>
    rw [if_neg (by decide)] at isNext
    split at isNext
    next isComma =>
      subst isComma
      split at isNext
      next => cases isNext
      next octet isMark =>
      split at isNext
      next isOctet34 =>
        subst isOctet34
        cases isNext
        exact ⟨_, .later (Token.stands_of_peek? isOctet (by decide)), isMark, rfl⟩
      split at isNext <;> cases isNext
    next => cases isNext

theorem stands_of_nextName? (isLast : nextName? isFirst cursor = .ok none) :
    ∃ rest, (Token.sign 125).Stands cursor.rest rest := by
  unfold nextName? at isLast
  dsimp only at isLast
  split at isLast
  next => cases isLast
  next octet isOctet =>
  split at isLast
  next isClosing =>
    subst isClosing
    exact ⟨_, Token.stands_of_peek? isOctet (by decide)⟩
  repeat' split at isLast
  all_goals cases isLast

theorem nextName?_of_closes (closes : (Token.sign 125).Stands octets rest) (place : Place) :
    nextName? isFirst ⟨place, octets⟩ = .ok none := by
  obtain ⟨behind, skipped⟩ := closes.skipBlanks_sign place
  unfold nextName?
  dsimp only
  rw [skipped]
  rfl

theorem Begins.nextName? {body : Octets} (begins : Begins isFirst octets behind)
    (isName : (Token.text body).Stands behind rest) (place : Place) :
    ∃ front, Json.nextName? isFirst ⟨place, octets⟩ =
      .ok (some ⟨front, body ++ 34 :: rest⟩) := by
  unfold Json.nextName?
  dsimp only
  cases begins with
  | first =>
    obtain ⟨behind, skipped⟩ := isName.skipBlanks_text place
    rw [skipped]
    exact ⟨_, rfl⟩
  | later comma =>
    obtain ⟨atComma, skipped⟩ := comma.skipBlanks_sign place
    obtain ⟨behind, skippedMore⟩ := isName.skipBlanks_text (atComma.after 44)
    rw [skipped, Cursor.peek?_cons, Cursor.advance_cons, skippedMore]
    exact ⟨_, rfl⟩

end Moves

/-! ## Lists -/

/-- What a list means: what its items mean, in their order. -/
def MeansList {α : Type} (Means : Value → α → Prop) (tree : Value) (values : List α) :
    Prop :=
  ∃ items, tree = .list items ∧ List.Forall₂ Means items values

section Lists

variable {α : Type} {reader : Reader α} {Means : Value → α → Prop}

theorem stands_of_readElements (understands : Understands reader Means) {bound : Octets}
    {read values : List α} {cursor behind : Cursor}
    (isRead : readElements reader bound read cursor = .ok (values, behind)) :
    ∃ items more, (Phrase.items read.isEmpty items).Stands cursor.rest behind.rest ∧
      List.Forall₂ Means items more ∧ values = read.reverse ++ more := by
  induction bound generalizing read cursor with
  | nil => cases isRead
  | cons x bound ih =>
    unfold readElements at isRead
    split at isRead
    next => cases isRead
    next =>
      cases isRead
      exact ⟨[], [], .noItems, .nil, (List.append_nil _).symm⟩
    next element isNext =>
    split at isRead
    next => cases isRead
    next value after isElement =>
    obtain ⟨front, begins, rfl⟩ := begins_of_nextElement? isNext
    obtain ⟨tree, stands, means⟩ := (understands _ _ _).mp ⟨_, isElement⟩
    obtain ⟨items, more, standsMore, meanMore, rfl⟩ := ih isRead
    exact ⟨tree :: items, value :: more,
      .item begins (Phrase.stands_skipBlanks_iff.mp stands) standsMore, .cons means meanMore,
      by simp⟩

theorem Phrase.Stands.yields_readElements (understands : Understands reader Means)
    {items : List Value} {more : List α} {octets closing rest : Octets} (read : List α)
    (stands : (Phrase.items read.isEmpty items).Stands octets closing)
    (closes : (Token.sign 93).Stands closing rest) (mean : List.Forall₂ Means items more)
    (bound : Octets) (enough : octets.length < bound.length) (place : Place) :
    Yields (readElements reader bound read ⟨place, octets⟩) (read.reverse ++ more) closing := by
  induction mean generalizing read bound octets place with
  | nil =>
    cases stands
    obtain ⟨x, bound, rfl⟩ := List.exists_cons_of_length_pos (Nat.zero_lt_of_lt enough)
    unfold readElements
    rw [nextElement?_of_closes closes, List.append_nil]
    exact ⟨place, rfl⟩
  | @cons tree value _ _ means _ ih =>
    obtain ⟨x, bound, rfl⟩ := List.exists_cons_of_length_pos (Nat.zero_lt_of_lt enough)
    cases stands with
    | @item _ _ _ _ here behind _ begins standsValue standsRest =>
    obtain ⟨front, isNext⟩ := begins.nextElement? standsValue place
    obtain ⟨after, isElement⟩ :=
      (understands (⟨front, here⟩ : Cursor).skipBlanks value behind).mpr
      ⟨tree, Phrase.stands_skipBlanks_iff.mpr standsValue, means⟩
    have isShorter := Nat.lt_of_lt_of_le standsValue.length_lt begins.length_le
    rw [List.length_cons] at enough
    obtain ⟨atEnd, isRead⟩ := ih (value :: read) standsRest bound (by omega) after
    unfold readElements
    rw [isNext]
    dsimp only
    rw [isElement]
    exact ⟨atEnd, by simpa using isRead⟩

theorem Understands.readList (understands : Understands reader Means) :
    Understands (Json.readList reader) (MeansList Means) := by
  refine .intro (fun isRead => ?_) (fun stands means place => ?_)
  · unfold Json.readList at isRead
    dsimp only at isRead
    split at isRead
    next => cases isRead
    next octet isNext =>
    split at isRead
    next isList =>
      subst isList
      split at isRead
      next => cases isRead
      next values closing areRead =>
      split at isRead
      next isClosed =>
        cases isRead
        obtain ⟨items, more, stands, mean, same⟩ := stands_of_readElements understands areRead
        cases same
        exact ⟨_,
          .list (Token.stands_of_peek? isNext (by decide)) stands (stands_of_close isClosed),
          items, rfl, mean⟩
      next => cases isRead
    next => exact absurd isRead refuse_ne_ok
  · obtain ⟨items, rfl, mean⟩ := means
    cases stands with
    | list opens inside closes =>
    obtain ⟨behind, skipped⟩ := opens.skipBlanks_sign place
    obtain ⟨atEnd, areRead⟩ := inside.yields_readElements understands [] closes mean (91 :: _)
      (Nat.lt_succ_self _) (behind.after 91)
    obtain ⟨atRest, isClosed⟩ := Token.Stands.close .list closes atEnd
    unfold Json.readList
    dsimp only
    rw [skipped, Cursor.peek?_cons]
    dsimp only
    rw [if_pos rfl, Cursor.advance_cons, areRead]
    dsimp only
    rw [isClosed]
    exact ⟨atRest, rfl⟩

end Lists

/-! ## Whole texts -/

theorem expectEnd_eq_ok_iff {cursor : Cursor} :
    expectEnd cursor = .ok () ↔ AreBlank cursor.rest := by
  obtain ⟨blanks, isFront, areBlank, -⟩ := Cursor.exists_skipWhile Cursor.isBlank cursor
  have ends : expectEnd cursor = .ok () ↔ cursor.skipBlanks.rest = [] := by
    unfold expectEnd
    dsimp only
    split
    next isEnd => exact ⟨fun _ => List.head?_eq_none_iff.mp isEnd, fun _ => rfl⟩
    next octet isNext =>
      rw [Cursor.rest_of_peek? isNext]
      exact ⟨nofun, nofun⟩
  rw [ends]
  constructor
  · intro isEnd
    rw [isFront, show (cursor.skipWhile Cursor.isBlank).rest = [] from isEnd, List.append_nil]
    exact areBlank
  · intro areBlank
    obtain ⟨place, octets⟩ := cursor
    have skipped : (⟨place, octets ++ []⟩ : Cursor).skipBlanks = ⟨place.past octets, []⟩ :=
      Cursor.skipBlanks_append areBlank (by simp) place
    rw [List.append_nil] at skipped
    rw [skipped]

/-- What is not read as a value is refused. -/
theorem exists_fault {α : Type} {reader : Reader α} {text : Octets}
    (refused : ∀ value, readWhole reader text ≠ .ok value) :
    ∃ fault, readWhole reader text = .error fault := by
  cases isRead : readWhole reader text with
  | error fault => exact ⟨fault, rfl⟩
  | ok value => exact absurd isRead (refused value)

section Whole

variable {α : Type} {reader : Reader α} {Means : Value → α → Prop} {text : Octets}
  {value : α}

/-- A whole text is read as what its one value means. -/
theorem Understands.readWhole_eq_ok_iff (understands : Understands reader Means) :
    readWhole reader text = .ok value ↔ ∃ tree, IsJson tree text ∧ Means tree value := by
  constructor
  · intro isRead
    unfold readWhole at isRead
    split at isRead
    next => cases isRead
    next value behind isValue =>
      obtain ⟨_, ends, rfl⟩ := map_eq_ok_iff.mp isRead
      obtain ⟨tree, stands, means⟩ := (understands _ _ _).mp ⟨_, isValue⟩
      exact ⟨tree, ⟨_, stands, expectEnd_eq_ok_iff.mp ends⟩, means⟩
  · rintro ⟨tree, ⟨rest, stands, areBlank⟩, means⟩
    obtain ⟨place, isRead⟩ :=
      (understands (.start text) value rest).mpr ⟨tree, stands, means⟩
    unfold readWhole
    rw [isRead]
    dsimp only
    rw [expectEnd_eq_ok_iff.mpr areBlank]
    rfl

/-- Where a text is known to be a value, it is read as what this value means. -/
theorem IsJson.readWhole_eq_ok_iff {tree : Value} (isJson : IsJson tree text)
    (understands : Understands reader Means) :
    readWhole reader text = .ok value ↔ Means tree value := by
  rw [understands.readWhole_eq_ok_iff]
  constructor
  · rintro ⟨other, isOther, means⟩
    rwa [isJson.unique isOther]
  · exact fun means => ⟨tree, isJson, means⟩

end Whole

end Signet.Json
