import Signet.Proofs.JsonTokens

/-!
# The grammar of values

`Json.Value` is what a text says, whatever its spelling: words, numerals, texts, lists, and objects
with their members in the order in which they stand. A text between quotation marks that stands for
no characters is `none`, both as a value and as a name.

`Json.Phrase.Stands` is the grammar: which octets a value, or what stands between two brackets, can
be read from, and which rest is left behind it. It is not ambiguous (`Json.Phrase.Stands.unique`),
and it does not depend on where blanks stand, but only on the tokens
(`Json.Phrase.Stands.exists_spans`). `Json.IsJson` takes the whole of a text as one value.
-/

namespace Signet.Json

open Cursor (AreBlank)

inductive Value
  | word (meant : Word)
  | number (numeral : Octets)
  | text (value? : Option String)
  | list (items : List Value)
  | object (members : List (Option String × Value))

/-- A member of an object: its name, if this stands for characters, and its value. -/
abbrev Member := Option String × Value

def Value.null : Value :=
  .word .null

/-- That a value may start with an octet. -/
def Value.StartsWith : Value → (first : UInt8) → Prop
  | .word meant, first => ∃ letters, meant.letters = first :: letters
  | .number _, first => Number.isDigit first = true ∨ first = 45
  | .text _, first => first = 34
  | .list _, first => first = 91
  | .object _, first => first = 123

/-- No value starts with what may stand behind a value. -/
theorem Value.StartsWith.ne_of_sign {value : Value} {first sign : UInt8}
    (starts : value.StartsWith first) (isSign : sign ∈ [93, 125, 44, 58]) : first ≠ sign := by
  rintro rfl
  cases value with
  | word meant =>
    obtain ⟨letters, isWord⟩ := starts
    cases meant <;> cases isWord <;> revert isSign <;> decide
  | number numeral =>
    simp only [List.mem_cons, List.not_mem_nil, or_false] at isSign
    rcases isSign with rfl | rfl | rfl | rfl <;> revert starts <;>
      simp only [StartsWith] <;> decide
  | text value? | list items | object members =>
    cases starts
    revert isSign
    decide

/-- What the grammar has a rule for: a value, and what is left of the inside of a list or of an
object, where nothing has been read of it yet or something has. -/
inductive Phrase
  | value (value : Value)
  | items (isFirst : Bool) (values : List Value)
  | members (isFirst : Bool) (members : List Member)

/-- That an item or a member can begin: at once if it is the first, and else behind a comma. -/
inductive Begins : (isFirst : Bool) → (octets behind : Octets) → Prop
  | first {octets : Octets} : Begins true octets octets
  | later {octets behind : Octets} :
    (Token.sign 44).Stands octets behind → Begins false octets behind

theorem Begins.length_le {isFirst : Bool} {octets behind : Octets}
    (begins : Begins isFirst octets behind) : behind.length ≤ octets.length := by
  cases begins with
  | first => exact Nat.le_refl _
  | later comma => exact Nat.le_of_lt comma.length_lt

/-- That a phrase stands at the front of octets, up to the rest. -/
inductive Phrase.Stands : Phrase → (octets rest : Octets) → Prop
  | word {meant : Word} {octets rest : Octets} :
    (Token.word meant).Stands octets rest → Stands (.value (.word meant)) octets rest
  | number {numeral octets rest : Octets} :
    (Token.number numeral).Stands octets rest → Stands (.value (.number numeral)) octets rest
  | text {body octets rest : Octets} {value? : Option String} :
    (Token.text body).Stands octets rest → Text.Denotes body value? →
    Stands (.value (.text value?)) octets rest
  | list {items : List Value} {octets inside closing rest : Octets} :
    (Token.sign 91).Stands octets inside → Stands (.items true items) inside closing →
    (Token.sign 93).Stands closing rest → Stands (.value (.list items)) octets rest
  | object {members : List Member} {octets inside closing rest : Octets} :
    (Token.sign 123).Stands octets inside → Stands (.members true members) inside closing →
    (Token.sign 125).Stands closing rest → Stands (.value (.object members)) octets rest
  | noItems {isFirst : Bool} {rest : Octets} : Stands (.items isFirst []) rest rest
  | item {isFirst : Bool} {value : Value} {values : List Value}
    {octets here behind rest : Octets} :
    Begins isFirst octets here → Stands (.value value) here behind →
    Stands (.items false values) behind rest →
      Stands (.items isFirst (value :: values)) octets rest
  | noMembers {isFirst : Bool} {rest : Octets} : Stands (.members isFirst []) rest rest
  | member {isFirst : Bool} {body : Octets} {name? : Option String} {value : Value}
    {members : List Member} {octets here behindName behindColon behind rest : Octets} :
    Begins isFirst octets here → (Token.text body).Stands here behindName →
    Text.Denotes body name? → (Token.sign 58).Stands behindName behindColon →
    Stands (.value value) behindColon behind → Stands (.members false members) behind rest →
    Stands (.members isFirst ((name?, value) :: members)) octets rest

namespace Phrase

/-! ## No ambiguity -/

/-- A value starts with no comma and no closing bracket. -/
theorem Stands.of_sign {value : Value} {sign : UInt8} {octets rest behind : Octets}
    (stands : Stands (.value value) octets rest) (isSign : (Token.sign sign).Stands octets behind) :
    sign = 91 ∨ sign = 123 := by
  cases stands with
  | word starts | number starts | text starts _ => exact nomatch (starts.unique isSign).1
  | list starts =>
    cases (starts.unique isSign).1
    exact .inl rfl
  | object starts =>
    cases (starts.unique isSign).1
    exact .inr rfl

/-- Where a value begins inside a list, the list is not closed. -/
theorem Stands.not_closed_of_begins {isFirst : Bool} {value : Value}
    {octets here behind rest : Octets} (begins : Begins isFirst octets here)
    (stands : Stands (.value value) here behind) : ¬ (Token.sign 93).Stands octets rest := by
  intro closes
  cases begins with
  | first => exact absurd (stands.of_sign closes) (by decide)
  | later comma => exact nomatch (comma.unique closes).1

/-- Where a name begins inside an object, the object is not closed. -/
theorem not_closed_of_name {isFirst : Bool} {body octets here behind rest : Octets}
    (begins : Begins isFirst octets here) (isName : (Token.text body).Stands here behind) :
    ¬ (Token.sign 125).Stands octets rest := by
  intro closes
  cases begins with
  | first => exact nomatch (isName.unique closes).1
  | later comma => exact nomatch (comma.unique closes).1

theorem begins_unique {isFirst : Bool} {octets here other : Octets}
    (begins : Begins isFirst octets here) (beginsOther : Begins isFirst octets other) :
    here = other := by
  cases begins with
  | first =>
    cases beginsOther with
    | first => rfl
  | later comma =>
    cases beginsOther with
    | later otherComma => exact (comma.unique otherComma).2

/-- That octets say one value at most, or have one inside of a list or an object at most that is
closed behind it. -/
def Determines : Phrase → (octets rest : Octets) → Prop
  | value meant, octets, rest => ∀ other others, Stands (.value other) octets others →
      meant = other ∧ rest = others
  | items isFirst values, octets, closing => ∀ others otherClosing rest otherRest,
      Stands (.items isFirst others) octets otherClosing → (Token.sign 93).Stands closing rest →
      (Token.sign 93).Stands otherClosing otherRest → values = others ∧ closing = otherClosing
  | members isFirst inside, octets, closing => ∀ others otherClosing rest otherRest,
      Stands (.members isFirst others) octets otherClosing →
        (Token.sign 125).Stands closing rest →
      (Token.sign 125).Stands otherClosing otherRest → inside = others ∧ closing = otherClosing

theorem Stands.determines {phrase : Phrase} {octets rest : Octets}
    (stands : phrase.Stands octets rest) : phrase.Determines octets rest := by
  induction stands with
  | word starts =>
    intro other others standsOther
    cases standsOther with
    | word otherStarts =>
      obtain ⟨same, rfl⟩ := starts.unique otherStarts
      cases same
      exact ⟨rfl, rfl⟩
    | number otherStarts | text otherStarts _ | list otherStarts | object otherStarts =>
      exact nomatch (starts.unique otherStarts).1
  | number starts =>
    intro other others standsOther
    cases standsOther with
    | number otherStarts =>
      obtain ⟨same, rfl⟩ := starts.unique otherStarts
      cases same
      exact ⟨rfl, rfl⟩
    | word otherStarts | text otherStarts _ | list otherStarts | object otherStarts =>
      exact nomatch (starts.unique otherStarts).1
  | text starts denotes =>
    intro other others standsOther
    cases standsOther with
    | text otherStarts denotesOther =>
      obtain ⟨same, rfl⟩ := starts.unique otherStarts
      cases same
      exact ⟨congrArg Value.text (denotes.unique denotesOther), rfl⟩
    | word otherStarts | number otherStarts | list otherStarts | object otherStarts =>
      exact nomatch (starts.unique otherStarts).1
  | list starts _ closes ih =>
    intro other others standsOther
    cases standsOther with
    | list otherStarts standsInside otherCloses =>
      obtain ⟨-, rfl⟩ := starts.unique otherStarts
      obtain ⟨rfl, rfl⟩ := ih _ _ _ _ standsInside closes otherCloses
      exact ⟨rfl, (closes.unique otherCloses).2⟩
    | word otherStarts | number otherStarts | text otherStarts _ | object otherStarts =>
      exact nomatch (starts.unique otherStarts).1
  | object starts _ closes ih =>
    intro other others standsOther
    cases standsOther with
    | object otherStarts standsInside otherCloses =>
      obtain ⟨-, rfl⟩ := starts.unique otherStarts
      obtain ⟨rfl, rfl⟩ := ih _ _ _ _ standsInside closes otherCloses
      exact ⟨rfl, (closes.unique otherCloses).2⟩
    | word otherStarts | number otherStarts | text otherStarts _ | list otherStarts =>
      exact nomatch (starts.unique otherStarts).1
  | noItems =>
    intro others otherClosing rest otherRest standsOther closes _
    cases standsOther with
    | noItems => exact ⟨rfl, rfl⟩
    | item begins standsValue => exact absurd closes (standsValue.not_closed_of_begins begins)
  | item begins standsValue _ ihValue ihRest =>
    intro others otherClosing rest otherRest standsOther closes otherCloses
    cases standsOther with
    | noItems => exact absurd otherCloses (standsValue.not_closed_of_begins begins)
    | item beginsOther standsOtherValue standsRest =>
      obtain rfl := begins_unique begins beginsOther
      obtain ⟨rfl, rfl⟩ := ihValue _ _ standsOtherValue
      obtain ⟨rfl, rfl⟩ := ihRest _ _ _ _ standsRest closes otherCloses
      exact ⟨rfl, rfl⟩
  | noMembers =>
    intro others otherClosing rest otherRest standsOther closes _
    cases standsOther with
    | noMembers => exact ⟨rfl, rfl⟩
    | member begins isName => exact absurd closes (not_closed_of_name begins isName)
  | member begins isName denotes isColon _ _ ihValue ihRest =>
    intro others otherClosing rest otherRest standsOther closes otherCloses
    cases standsOther with
    | noMembers => exact absurd otherCloses (not_closed_of_name begins isName)
    | member beginsOther isOtherName denotesOther isOtherColon standsOtherValue standsRest =>
      obtain rfl := begins_unique begins beginsOther
      obtain ⟨sameName, rfl⟩ := isName.unique isOtherName
      cases sameName
      obtain rfl := denotes.unique denotesOther
      obtain ⟨-, rfl⟩ := isColon.unique isOtherColon
      obtain ⟨rfl, rfl⟩ := ihValue _ _ standsOtherValue
      obtain ⟨rfl, rfl⟩ := ihRest _ _ _ _ standsRest closes otherCloses
      exact ⟨rfl, rfl⟩

/-- Octets say one value at most. -/
theorem Stands.unique {value other : Value} {octets rest others : Octets}
    (stands : Stands (.value value) octets rest)
    (standsOther : Stands (.value other) octets others) :
    value = other ∧ rest = others :=
  stands.determines other others standsOther

/-! ## Blanks do not count -/

/-- Blanks in front of a value do not count. -/
theorem stands_skipBlanks_iff {value : Value} {cursor : Cursor} {rest : Octets} :
    Stands (.value value) cursor.skipBlanks.rest rest ↔
      Stands (.value value) cursor.rest rest := by
  constructor
  · intro stands
    cases stands with
    | word starts => exact .word (Token.stands_skipBlanks_iff.mp starts)
    | number starts => exact .number (Token.stands_skipBlanks_iff.mp starts)
    | text starts denotes => exact .text (Token.stands_skipBlanks_iff.mp starts) denotes
    | list starts inside closes => exact .list (Token.stands_skipBlanks_iff.mp starts) inside closes
    | object starts inside closes =>
      exact .object (Token.stands_skipBlanks_iff.mp starts) inside closes
  · intro stands
    cases stands with
    | word starts => exact .word (Token.stands_skipBlanks_iff.mpr starts)
    | number starts => exact .number (Token.stands_skipBlanks_iff.mpr starts)
    | text starts denotes => exact .text (Token.stands_skipBlanks_iff.mpr starts) denotes
    | list starts inside closes =>
      exact .list (Token.stands_skipBlanks_iff.mpr starts) inside closes
    | object starts inside closes =>
      exact .object (Token.stands_skipBlanks_iff.mpr starts) inside closes

theorem stands_word_iff {meant : Word} {octets rest : Octets} :
    Stands (.value (.word meant)) octets rest ↔ (Token.word meant).Stands octets rest := by
  constructor
  · intro stands
    cases stands with
    | word starts => exact starts
  · exact .word

/-- That a phrase is made of tokens, and stands wherever these tokens stand. -/
def IsMadeOf (phrase : Phrase) (tokens : List Token) : Prop :=
  ∀ octets rest, Spans tokens octets rest → phrase.Stands octets rest

theorem exists_of_begins {isFirst : Bool} {octets here : Octets}
    (begins : Begins isFirst octets here) :
    ∃ tokens, Spans tokens octets here ∧
      ∀ others rest, Spans tokens others rest → Begins isFirst others rest := by
  cases begins with
  | first =>
    refine ⟨[], .nil, fun others rest spans => ?_⟩
    cases spans with
    | nil => exact .first
  | later comma => exact ⟨_, .singleton comma, fun others rest spans => .later spans.stands⟩

/-- A phrase is made of tokens. -/
theorem Stands.exists_spans {phrase : Phrase} {octets rest : Octets}
    (stands : phrase.Stands octets rest) :
    ∃ tokens, Spans tokens octets rest ∧ phrase.IsMadeOf tokens := by
  induction stands with
  | word starts => exact ⟨_, .singleton starts, fun _ _ spans => .word spans.stands⟩
  | number starts => exact ⟨_, .singleton starts, fun _ _ spans => .number spans.stands⟩
  | text starts denotes =>
    exact ⟨_, .singleton starts, fun _ _ spans => .text spans.stands denotes⟩
  | list starts _ closes ih =>
    obtain ⟨tokens, spans, isMade⟩ := ih
    refine ⟨_, (Spans.singleton starts).append (spans.append (.singleton closes)), ?_⟩
    intro octets rest spans
    obtain ⟨inside, starts, spans⟩ := spans.exists_of_append
    obtain ⟨closing, spans, closes⟩ := spans.exists_of_append
    exact .list starts.stands (isMade _ _ spans) closes.stands
  | object starts _ closes ih =>
    obtain ⟨tokens, spans, isMade⟩ := ih
    refine ⟨_, (Spans.singleton starts).append (spans.append (.singleton closes)), ?_⟩
    intro octets rest spans
    obtain ⟨inside, starts, spans⟩ := spans.exists_of_append
    obtain ⟨closing, spans, closes⟩ := spans.exists_of_append
    exact .object starts.stands (isMade _ _ spans) closes.stands
  | noItems =>
    refine ⟨[], .nil, fun octets rest spans => ?_⟩
    cases spans with
    | nil => exact .noItems
  | item begins _ _ ihValue ihRest =>
    obtain ⟨comma, spansComma, isBegun⟩ := exists_of_begins begins
    obtain ⟨tokens, spans, isMade⟩ := ihValue
    obtain ⟨more, spansMore, isMadeMore⟩ := ihRest
    refine ⟨_, spansComma.append (spans.append spansMore), fun octets rest spans => ?_⟩
    obtain ⟨here, spansComma, spans⟩ := spans.exists_of_append
    obtain ⟨behind, spans, spansMore⟩ := spans.exists_of_append
    exact .item (isBegun _ _ spansComma) (isMade _ _ spans) (isMadeMore _ _ spansMore)
  | noMembers =>
    refine ⟨[], .nil, fun octets rest spans => ?_⟩
    cases spans with
    | nil => exact .noMembers
  | member begins isName denotes isColon _ _ ihValue ihRest =>
    obtain ⟨comma, spansComma, isBegun⟩ := exists_of_begins begins
    obtain ⟨tokens, spans, isMade⟩ := ihValue
    obtain ⟨more, spansMore, isMadeMore⟩ := ihRest
    refine ⟨_, spansComma.append (.cons isName (.cons isColon (spans.append spansMore))), ?_⟩
    intro octets rest spans
    obtain ⟨here, spansComma, spans⟩ := spans.exists_of_append
    cases spans with
    | cons isName spans =>
      cases spans with
      | cons isColon spans =>
        obtain ⟨behind, spans, spansMore⟩ := spans.exists_of_append
        exact .member (isBegun _ _ spansComma) isName denotes isColon (isMade _ _ spans)
          (isMadeMore _ _ spansMore)

theorem Stands.length_le {phrase : Phrase} {octets rest : Octets}
    (stands : phrase.Stands octets rest) : rest.length ≤ octets.length := by
  obtain ⟨tokens, spans, -⟩ := stands.exists_spans
  exact spans.length_le

/-- A value is not empty. -/
theorem Stands.length_lt {value : Value} {octets rest : Octets}
    (stands : Stands (.value value) octets rest) : rest.length < octets.length := by
  cases stands with
  | word starts | number starts | text starts _ => exact starts.length_lt
  | list starts inside closes | object starts inside closes =>
    exact Nat.lt_trans closes.length_lt (Nat.lt_of_le_of_lt inside.length_le starts.length_lt)

/-- A member is not empty. -/
theorem length_lt_of_member {isFirst : Bool} {body : Octets} {value : Value}
    {octets here behindName behindColon behind : Octets} (begins : Begins isFirst octets here)
    (isName : (Token.text body).Stands here behindName)
    (isColon : (Token.sign 58).Stands behindName behindColon)
    (stands : Stands (.value value) behindColon behind) : behind.length < octets.length := by
  have fromName := isName.length_lt
  have fromColon := isColon.length_lt
  have fromValue := stands.length_lt
  have fromBeginning := begins.length_le
  omega

theorem Stands.peek? {value : Value} {octets rest : Octets}
    (stands : Stands (.value value) octets rest) (place : Place) :
    ∃ first, (⟨place, octets⟩ : Cursor).skipBlanks.peek? = some first ∧
      value.StartsWith first := by
  cases stands with
  | @word meant _ _ starts =>
    obtain ⟨behind, skipped⟩ := starts.skipBlanks place
    rw [skipped]
    cases meant <;> exact ⟨_, rfl, _, rfl⟩
  | number starts =>
    obtain ⟨behind, skipped⟩ := starts.skipBlanks place
    obtain ⟨first, others, isNumeral, isFirst⟩ := starts.isFormed.1.exists_cons
    rw [skipped, Token.octets, isNumeral]
    exact ⟨first, rfl, isFirst⟩
  | text starts | list starts | object starts =>
    obtain ⟨behind, skipped⟩ := starts.skipBlanks place
    rw [skipped]
    exact ⟨_, rfl, rfl⟩

end Phrase

/-! ## Whole texts -/

/-- That a text is one value, with nothing but blanks around it. -/
def IsJson (value : Value) (text : Octets) : Prop :=
  ∃ rest, (Phrase.value value).Stands text rest ∧ AreBlank rest

theorem IsJson.unique {value other : Value} {text : Octets} (isJson : IsJson value text)
    (isOther : IsJson other text) : value = other := by
  obtain ⟨rest, stands, -⟩ := isJson
  obtain ⟨others, standsOther, -⟩ := isOther
  exact (stands.unique standsOther).1

/-- Which value a text is does not depend on the blanks between its tokens. -/
theorem IsJson.of_spans {value : Value} {text other rest otherRest : Octets} {tokens : List Token}
    (isJson : IsJson value text) (spans : Spans tokens text rest) (areBlank : AreBlank rest)
    (spansOther : Spans tokens other otherRest) (otherAreBlank : AreBlank otherRest) :
    IsJson value other := by
  obtain ⟨behind, stands, behindAreBlank⟩ := isJson
  obtain ⟨made, spansMade, isMade⟩ := stands.exists_spans
  obtain rfl := spans.unique spansMade areBlank behindAreBlank
  exact ⟨otherRest, isMade _ _ spansOther, otherAreBlank⟩

end Signet.Json
