import Signet.Event

/-!
# Quoted texts in the log

What callers have sent stands in access records between quotation marks. `unquote?` reads a
quotation back, character by character, and knows nothing of what counts as plain: whatever it is, a
quotation is read as the text that was quoted (`unquote?_quoteBy`), and it ends where it seems to,
also if more stands behind it (`quoteBy_append_inj`). Inside, quotation marks and backslashes only
occur in escapes (`IsGuarded`), and if no control is plain, there is none.

So an access record as a line of the log has no line breaks, and no two records have the same line.
-/

namespace Signet.Text

/-! ## Reading quotations -/

/-- The controls: the characters below the space, the one behind the tilde, and the thirty-two that
follow it. -/
def isControl (c : Char) : Bool :=
  c.toNat < 0x20 || (0x7f ≤ c.toNat && c.toNat < 0xa0)

/-- What the escapes of one letter stand for. -/
def shortEscapes : List (Char × Char) :=
  [('"', '"'), ('\\', '\\'), ('n', '\n'), ('r', '\r'), ('t', '\t'), ('0', '\x00')]

def hexDigit? (c : Char) : Option Nat :=
  (List.range 16).find? fun digit => digit.digitChar == c

/-- Where the reading of a quotation stands between two characters: outside of escapes, behind the
backslash of one, behind the letter of one that has a number, or in the braces behind some digits of
the number. -/
inductive QuotationState
  | plain
  | escape
  | brace
  | number (read : Nat)

/-- Reads characters up to the mark that closes a quotation. The answer is what they stand for, and
what is behind. -/
def readQuotation : QuotationState → List Char → Option (List Char × List Char)
  | _, [] => none
  | .plain, c :: rest =>
    if c = '"' then some ([], rest)
    else if c = '\\' then readQuotation .escape rest
    else (readQuotation .plain rest).map (Prod.map (c :: ·) id)
  | .escape, c :: rest =>
    if c = 'u' then readQuotation .brace rest
    else
      match shortEscapes.lookup c with
      | some meant => (readQuotation .plain rest).map (Prod.map (meant :: ·) id)
      | none => none
  | .brace, c :: rest => if c = '\x7b' then readQuotation (.number 0) rest else none
  | .number read, c :: rest =>
    if c = '\x7d' then (readQuotation .plain rest).map (Prod.map (Char.ofNat read :: ·) id)
    else
      match hexDigit? c with
      | some digit => readQuotation (.number (read * 16 + digit)) rest
      | none => none

/-- The text that a quotation stands for, if it is one from the first character to the last. -/
def unquote? (quotation : String) : Option String :=
  match quotation.toList with
  | '"' :: behind =>
    (readQuotation .plain behind).bind fun read =>
      if read.2 = [] then some (String.ofList read.1) else none
  | _ => none

/-! ## Escapes -/

section Escapes

variable {isPlain : Char → Bool} {c : Char} {rest : List Char}

/-- The ways to write a character in a quotation: as itself, by a letter, or by its number. -/
inductive IsWritten (isPlain : Char → Bool) (c : Char) : List Char → Prop
  | itself : c ≠ '"' → c ≠ '\\' → isPlain c = true → IsWritten isPlain c [c]
  | short {letter : Char} :
    shortEscapes.lookup letter = some c → IsWritten isPlain c ['\\', letter]
  | numbered : IsWritten isPlain c (['\\', 'u', '\x7b'] ++ hexDigits c.toNat ++ ['\x7d'])

theorem isWritten_escape (isPlain : Char → Bool) (c : Char) :
    IsWritten isPlain c (escape isPlain c) := by
  by_cases hasLetter : c ∈ ['"', '\\', '\n', '\r', '\t', '\x00']
  · simp only [List.mem_cons, List.not_mem_nil, or_false] at hasLetter
    rcases hasLetter with rfl | rfl | rfl | rfl | rfl | rfl <;> exact .short rfl
  · simp only [List.mem_cons, List.not_mem_nil, or_false, not_or] at hasLetter
    obtain ⟨notMark, notBackslash, notFeed, notReturn, notTab, notNull⟩ := hasLetter
    unfold escape
    rw [if_neg notMark, if_neg notBackslash, if_neg notFeed, if_neg notReturn, if_neg notTab,
      if_neg notNull]
    split
    next plain => exact .itself notMark notBackslash plain
    next => exact .numbered

theorem exists_of_mem_hexDigits {number : Nat} (isDigit : c ∈ hexDigits number) :
    ∃ digit < 16, c = digit.digitChar := by
  induction number using Nat.strongRecOn with
  | ind number ih =>
    unfold hexDigits at ih isDigit
    rw [Nat.toDigits_eq_if (by decide)] at isDigit
    split at isDigit
    next small => exact ⟨number, small, List.mem_singleton.mp isDigit⟩
    next large =>
      rcases List.mem_append.mp isDigit with isEarlier | isLast
      · exact ih (number / 16) (by omega) isEarlier
      · exact ⟨number % 16, Nat.mod_lt _ (by decide), List.mem_singleton.mp isLast⟩

/-! ## What quotations are read as -/

theorem hexDigit?_digitChar : ∀ digit < 16, hexDigit? digit.digitChar = some digit := by
  decide

/-- The digits of a number are read as the number. -/
theorem readQuotation_hexDigits (number : Nat) (rest : List Char) :
    readQuotation (.number 0) (hexDigits number ++ rest) = readQuotation (.number number) rest := by
  have oneDigit (read digit : Nat) (isDigit : digit < 16) (rest : List Char) :
      readQuotation (.number read) (digit.digitChar :: rest) =
        readQuotation (.number (read * 16 + digit)) rest := by
    have notBrace : digit.digitChar ≠ '\x7d' := Nat.digitChar_ne _ (by decide)
    rw [readQuotation, if_neg notBrace, hexDigit?_digitChar digit isDigit]
  induction number using Nat.strongRecOn generalizing rest with
  | ind number ih =>
    unfold hexDigits at ih ⊢
    rw [Nat.toDigits_eq_if (by decide)]
    by_cases small : number < 16
    · rw [if_pos small, List.singleton_append, oneDigit 0 number small, Nat.zero_mul, Nat.zero_add]
    · -- All digits but the last are those of the quotient.
      have smaller : number / 16 < number := by omega
      have together : number / 16 * 16 + number % 16 = number := by omega
      rw [if_neg small, List.append_assoc, ih _ smaller, List.singleton_append,
        oneDigit _ _ (Nat.mod_lt _ (by decide)), together]

/-- A character is read from each of the ways to write it. -/
theorem IsWritten.readQuotation {written : List Char} (isWritten : IsWritten isPlain c written) :
    readQuotation .plain (written ++ rest) =
      (Text.readQuotation .plain rest).map (Prod.map (c :: ·) id) := by
  cases isWritten with
  | itself notMark notBackslash _ =>
    rw [List.singleton_append, Text.readQuotation, if_neg notMark, if_neg notBackslash]
  | @short letter found =>
    have opened : Text.readQuotation .plain (['\\', letter] ++ rest) =
      Text.readQuotation .escape (letter :: rest) := rfl
    have notNumbered : letter ≠ 'u' := by
      rintro rfl
      cases found
    rw [opened, Text.readQuotation, if_neg notNumbered, found]
  | numbered =>
    have opened (behind : List Char) :
        Text.readQuotation .plain (['\\', 'u', '\x7b'] ++ behind) =
          Text.readQuotation (.number 0) behind := rfl
    rw [List.append_assoc, List.append_assoc, opened, readQuotation_hexDigits,
      List.singleton_append, Text.readQuotation, if_pos rfl, Char.ofNat_toNat]

/-- What is behind the opening mark of a quotation is read as the text that was quoted, up to the
closing mark. -/
theorem readQuotation_flatMap (text : List Char) :
    readQuotation .plain (text.flatMap (escape isPlain) ++ '"' :: rest) = some (text, rest) := by
  induction text with
  | nil => rfl
  | cons c text ih =>
    rw [List.flatMap_cons, List.append_assoc, (isWritten_escape isPlain c).readQuotation, ih]
    rfl

end Escapes

section Quotations

variable {isPlain : Char → Bool} {text other : String}

theorem toList_quoteBy :
    (quoteBy isPlain text).toList = '"' :: (text.toList.flatMap (escape isPlain) ++ ['"']) := by
  unfold quoteBy
  rw [String.toList_ofList]
  rfl

/-- Quoting is undone by one and the same function, whatever counts as plain. -/
theorem unquote?_quoteBy : unquote? (quoteBy isPlain text) = some text := by
  unfold unquote?
  rw [toList_quoteBy]
  show (readQuotation .plain (text.toList.flatMap (escape isPlain) ++ ['"'])).bind _ = some text
  rw [readQuotation_flatMap]
  exact congrArg some String.ofList_toList

theorem quoteBy_inj (same : quoteBy isPlain text = quoteBy isPlain other) : text = other := by
  have read := congrArg unquote? same
  rw [unquote?_quoteBy, unquote?_quoteBy] at read
  exact Option.some.inj read

/-- A quotation ends at its own closing mark, whatever stands behind it. -/
theorem quoteBy_append_inj {behind otherBehind : String}
    (same : quoteBy isPlain text ++ behind = quoteBy isPlain other ++ otherBehind) :
    text = other ∧ behind = otherBehind := by
  have characters := congrArg String.toList same
  rw [String.toList_append, String.toList_append, toList_quoteBy, toList_quoteBy, List.cons_append,
    List.cons_append, List.append_assoc, List.append_assoc, List.cons.injEq] at characters
  have read := congrArg (readQuotation .plain) characters.2
  rw [List.singleton_append, List.singleton_append, readQuotation_flatMap, readQuotation_flatMap,
    Option.some.injEq, Prod.mk.injEq] at read
  exact ⟨String.toList_inj.mp read.1, String.toList_inj.mp read.2⟩

end Quotations

/-! ## Guarded marks -/

/-- That quotation marks and backslashes only occur in escapes: characters that are neither stand
alone, and a backslash stands with the character behind it. -/
inductive IsGuarded : List Char → Prop
  | nil : IsGuarded []
  | plain {c : Char} {rest : List Char} :
    c ≠ '"' → c ≠ '\\' → IsGuarded rest → IsGuarded (c :: rest)
  | escaped {c : Char} {rest : List Char} : IsGuarded rest → IsGuarded ('\\' :: c :: rest)

namespace IsGuarded

theorem append {first second : List Char} (isGuarded : IsGuarded first)
    (isGuarded' : IsGuarded second) : IsGuarded (first ++ second) := by
  induction isGuarded with
  | nil => exact isGuarded'
  | plain notMark notBackslash _ ih => exact .plain notMark notBackslash ih
  | escaped _ ih => exact .escaped ih

theorem of_plain {characters : List Char} (plain : ∀ c ∈ characters, c ≠ '"' ∧ c ≠ '\\') :
    IsGuarded characters := by
  induction characters with
  | nil => exact .nil
  | cons c characters ih =>
    obtain ⟨first, rest⟩ := List.forall_mem_cons.mp plain
    exact .plain first.1 first.2 (ih rest)

/-- A mark among guarded characters is behind a backslash, and this backslash is not behind another
one that would take it for its own. -/
theorem exists_backslash {before after : List Char}
    (isGuarded : IsGuarded (before ++ '"' :: after)) :
    ∃ lead, IsGuarded lead ∧ before = lead ++ ['\\'] := by
  generalize split : before ++ '"' :: after = characters at isGuarded
  induction isGuarded generalizing before with
  | nil => exact absurd split (by simp)
  | plain notMark notBackslash _ ih =>
    rcases before with _ | ⟨first, before⟩
    · cases split
      exact absurd rfl notMark
    · obtain ⟨rfl, behind⟩ := List.cons.inj split
      obtain ⟨lead, isGuarded, rfl⟩ := ih behind
      exact ⟨first :: lead, .plain notMark notBackslash isGuarded, rfl⟩
  | @escaped c rest _ ih =>
    rcases before with _ | ⟨first, _ | ⟨second, before⟩⟩
    · exact absurd (List.cons.inj split).1 (by decide)
    · obtain ⟨rfl, -⟩ := List.cons.inj split
      exact ⟨[], .nil, rfl⟩
    · obtain ⟨rfl, behind⟩ := List.cons.inj split
      obtain ⟨rfl, behind'⟩ := List.cons.inj behind
      obtain ⟨lead, isGuarded, rfl⟩ := @ih before behind'
      exact ⟨'\\' :: second :: lead, .escaped isGuarded, rfl⟩

/-- Each way to write a character is guarded. -/
theorem of_isWritten {isPlain : Char → Bool} {c : Char} {written : List Char}
    (isWritten : IsWritten isPlain c written) : IsGuarded written := by
  cases isWritten with
  | itself notMark notBackslash _ => exact .plain notMark notBackslash .nil
  | short _ => exact .escaped .nil
  | numbered =>
    refine .escaped (of_plain fun behind isBehind => ?_)
    rcases List.mem_cons.mp isBehind with rfl | isBehind
    · decide
    rcases List.mem_append.mp isBehind with isDigit | isBrace
    · obtain ⟨digit, -, rfl⟩ := exists_of_mem_hexDigits isDigit
      exact ⟨Nat.digitChar_ne _ (by decide), Nat.digitChar_ne _ (by decide)⟩
    · rw [List.mem_singleton.mp isBrace]
      decide

theorem flatMap_escape (isPlain : Char → Bool) (text : List Char) :
    IsGuarded (text.flatMap (escape isPlain)) := by
  induction text with
  | nil => exact .nil
  | cons c text ih => exact (of_isWritten (isWritten_escape isPlain c)).append ih

end IsGuarded

/-! ## Controls -/

section Controls

variable {isPlain : Char → Bool} {c : Char}

/-- Characters without controls, one by one and all at once. -/
theorem isControl_eq_false_of_all {characters : List Char}
    (all : (characters.all fun c => !isControl c) = true) :
    ∀ c ∈ characters, isControl c = false := fun c isHere =>
  (Bool.not_eq_true' _).mp (List.all_eq_true.mp all c isHere)

theorem isControl_digitChar : ∀ digit < 16, isControl digit.digitChar = false := by
  decide

theorem isControl_of_short : ∀ escape ∈ shortEscapes, isControl escape.1 = false := by
  decide

/-- If no control is plain, there is none in the ways to write a character. -/
theorem IsWritten.isControl_eq_false {written : List Char} (isWritten : IsWritten isPlain c written)
    (escapes : ∀ c, isControl c = true → isPlain c = false) :
    ∀ shown ∈ written, isControl shown = false := by
  cases isWritten with
  | itself _ _ plain =>
    rw [List.forall_mem_singleton, ← Bool.not_eq_true]
    exact fun control => nomatch plain.symm.trans (escapes c control)
  | @short letter found =>
    have isShort : (letter, c) ∈ shortEscapes := by
      obtain ⟨before, after, isListed, -⟩ := List.lookup_eq_some_iff.mp found
      rw [isListed]
      exact List.mem_append_right _ (.head _)
    rw [List.forall_mem_cons, List.forall_mem_singleton]
    exact ⟨by decide, isControl_of_short _ isShort⟩
  | numbered =>
    rw [List.forall_mem_append, List.forall_mem_append, List.forall_mem_singleton]
    refine ⟨⟨isControl_eq_false_of_all rfl, fun shown isDigit => ?_⟩, by decide⟩
    obtain ⟨digit, small, rfl⟩ := exists_of_mem_hexDigits isDigit
    exact isControl_digitChar digit small

theorem isControl_eq_false_of_mem_quoteBy
    (escapes : ∀ c, isControl c = true → isPlain c = false)
    (text : String) : ∀ shown ∈ (quoteBy isPlain text).toList, isControl shown = false := by
  rw [toList_quoteBy, List.forall_mem_cons, List.forall_mem_append, List.forall_mem_singleton]
  refine ⟨by decide, fun shown isShown => ?_, by decide⟩
  obtain ⟨c, -, isShown⟩ := List.mem_flatMap.mp isShown
  exact (isWritten_escape isPlain c).isControl_eq_false escapes shown isShown

/-- In the log no control is plain. -/
theorem isPlain_of_isControl (control : isControl c = true) : Text.isPlain c = false := by
  have within : c.toNat ≤ 0x1f ∨ 0x7f ≤ c.toNat ∧ c.toNat ≤ 0xa0 := by
    simp only [isControl, Bool.or_eq_true, Bool.and_eq_true, decide_eq_true_eq] at control
    omega
  have notShown : ¬ (' ' ≤ c ∧ c ≤ '~') := by
    show ¬ (0x20 ≤ c.toNat ∧ c.toNat ≤ 0x7e)
    omega
  have notPrintable : isPrintable c = false := by
    unfold isPrintable
    rw [Bool.not_eq_false', List.any_eq_true]
    rcases within with low | high
    · exact ⟨(0x0, 0x1f), .head _, by simpa using low⟩
    · exact ⟨(0x7f, 0xa0), .tail _ (.head _), by simpa using high⟩
  rw [Text.isPlain, notPrintable, Bool.false_and, Bool.or_false, ← Bool.not_eq_true,
    Bool.and_eq_true, decide_eq_true_eq, decide_eq_true_eq]
  exact notShown

end Controls

/-- That a field of the log is contained in its quotation marks: it begins and ends with one, every
other is escaped by a backslash that is not itself escaped, and there is no control in it. -/
structure IsContained (field : String) : Prop where
  marks : ∃ body, field.toList = '"' :: (body ++ ['"']) ∧
    ∀ before after, body = before ++ '"' :: after →
      ∃ lead, IsGuarded lead ∧ before = lead ++ ['\\']
  controls : ∀ c ∈ field.toList, isControl c = false

theorem isContained_quoteBy {isPlain : Char → Bool}
    (escapes : ∀ c, isControl c = true → isPlain c = false)
    (text : String) : IsContained (quoteBy isPlain text) where
  marks := by
    refine ⟨text.toList.flatMap (escape isPlain), toList_quoteBy, fun before after split => ?_⟩
    have isGuarded := IsGuarded.flatMap_escape isPlain text.toList
    rw [split] at isGuarded
    exact isGuarded.exists_backslash
  controls := isControl_eq_false_of_mem_quoteBy escapes text

end Signet.Text

/-! ## Access records -/

namespace Signet

namespace AccessRecord

/-- Which texts an access record quotes, and in which fields. -/
inductive Quotes (record : AccessRecord) : (name text : String) → Prop
  | digest {request : RequestFields} :
    record.request? = some request → Quotes record "digest" request.digest
  | hash {request : RequestFields} :
    record.request? = some request → Quotes record "hash" request.hash
  | error : Quotes record "err" record.error

/-- The fields of an access record, by what counts as plain in quotations. -/
def fieldsBy (isPlain : Char → Bool) (record : AccessRecord) : List (String × FieldValue) :=
  let request := match record.request? with
    | some request =>
      [("digest", .verbatim (Text.quoteBy isPlain request.digest)),
       ("hash", .verbatim (Text.quoteBy isPlain request.hash))]
    | none => []
  [("m", .quoted record.method)] ++ request ++
    [("st", .number record.status), ("err", .verbatim (Text.quoteBy isPlain record.error))]

end AccessRecord

/-- What a field holds as it is shown, by what counts as plain in quotations. -/
def FieldValue.showBy (isPlain : Char → Bool) : FieldValue → String
  | number value => toString value
  | verbatim text => text
  | quoted text => Text.quoteBy isPlain text

namespace AccessRecord

/-- The line of an access record, by what counts as plain in quotations. -/
def lineBy (isPlain : Char → Bool) (record : AccessRecord) : String :=
  (Event.access record).level.name ++ (" signing_service::access:" ++
    String.join
      ((record.fieldsBy isPlain).map fun (name, value) => s!" {name}={value.showBy isPlain}"))

theorem fields_eq_fieldsBy (record : AccessRecord) : record.fields = record.fieldsBy Text.isPlain :=
  rfl

theorem line_eq_lineBy (record : AccessRecord) :
    (Event.access record).line = record.lineBy Text.isPlain := by
  show (Event.access record).level.name ++ " " ++ "signing_service::access" ++ ":" ++ "" ++ _ = _
  rw [String.append_empty, String.append_assoc, String.append_assoc, String.append_assoc]
  rfl

variable {isPlain : Char → Bool}

/-! ## Lines -/

/-- A number ends at the blank behind it. -/
theorem toString_append_inj {number other : Nat} {behind otherBehind : String}
    (same : toString number ++ (" " ++ behind) = toString other ++ (" " ++ otherBehind)) :
    number = other ∧ behind = otherBehind := by
  have digits (number : Nat) (behind : List Char) :
      (Nat.toDigits 10 number ++ ' ' :: behind).takeWhile Char.isDigit =
        Nat.toDigits 10 number := by
    rw [List.takeWhile_append_of_pos fun c => Nat.isDigit_of_mem_toDigits (by decide) (by decide),
      List.takeWhile_cons_of_neg (by decide), List.append_nil]
  have characters (number : Nat) (behind : String) :
      (toString number ++ (" " ++ behind)).toList =
        Nat.toDigits 10 number ++ ' ' :: behind.toList := by
    rw [String.toList_append, String.toList_append, Nat.toString_eq_repr, Nat.toList_repr]
    rfl
  have sameCharacters := congrArg String.toList same
  rw [characters, characters] at sameCharacters
  have sameDigits := congrArg (List.takeWhile Char.isDigit) sameCharacters
  rw [digits, digits] at sameDigits
  rw [sameDigits, List.append_cancel_left_eq, List.cons.injEq] at sameCharacters
  have sameNumber := congrArg (Nat.ofDigitChars 10 · 0) sameDigits
  rw [Nat.ofDigitChars_ten_toDigits, Nat.ofDigitChars_ten_toDigits] at sameNumber
  exact ⟨sameNumber, String.toList_inj.mp sameCharacters.2⟩

/-- Levels differ in the first letters of their names. -/
theorem level_append_inj {level other : Level} {behind otherBehind : String}
    (same : level.name ++ behind = other.name ++ otherBehind) :
    level = other ∧ behind = otherBehind := by
  have initial (level : Level) (behind : String) :
      (level.name ++ behind).toList.head? = level.name.toList.head? := by
    rw [String.toList_append]
    cases level <;> rfl
  have sameInitial := congrArg (fun line => line.toList.head?) same
  rw [initial, initial] at sameInitial
  have sameLevel : level = other := by
    revert sameInitial
    cases level <;> cases other <;> decide
  rw [sameLevel] at same
  exact ⟨sameLevel, (String.append_right_inj _).mp same⟩

/-- A field in a line, with what stands behind it. -/
def fieldThen (name shown behind : String) : String :=
  " " ++ (name ++ ("=" ++ (shown ++ behind)))

theorem fieldThen_inj {name shown other behind otherBehind : String}
    (same : fieldThen name shown behind = fieldThen name other otherBehind) :
    shown ++ behind = other ++ otherBehind :=
  (String.append_right_inj _).mp
    ((String.append_right_inj _).mp ((String.append_right_inj _).mp same))

/-- The line of an access record from its status on. -/
def outcomeBy (isPlain : Char → Bool) (record : AccessRecord) : String :=
  fieldThen "st" (toString record.status) (fieldThen "err" (Text.quoteBy isPlain record.error) "")

/-- The line of an access record behind its method. -/
def behindMethodBy (isPlain : Char → Bool) (record : AccessRecord) : String :=
  match record.request? with
  | some request =>
    fieldThen "digest" (Text.quoteBy isPlain request.digest)
      (fieldThen "hash" (Text.quoteBy isPlain request.hash) (record.outcomeBy isPlain))
  | none => record.outcomeBy isPlain

theorem lineBy_eq (record : AccessRecord) :
    record.lineBy isPlain = (Event.access record).level.name ++ (" signing_service::access:" ++
      fieldThen "m" (Text.quoteBy isPlain record.method) (record.behindMethodBy isPlain)) := by
  have join_cons (field : String × FieldValue) (fields : List (String × FieldValue)) :
      String.join ((field :: fields).map fun (name, value) => s!" {name}={value.showBy isPlain}") =
        fieldThen field.1 (field.2.showBy isPlain)
          (String.join (fields.map fun (name, value) => s!" {name}={value.showBy isPlain}")) := by
    rw [List.map_cons, String.join_cons]
    unfold fieldThen
    rw [← String.append_assoc, ← String.append_assoc, ← String.append_assoc]
    rfl
  obtain ⟨method, _ | request, status, error⟩ := record
  · show _ ++ (_ ++ String.join (List.map _ [_, _, _])) = _
    rw [join_cons, join_cons, join_cons]
    rfl
  · show _ ++ (_ ++ String.join (List.map _ [_, _, _, _, _])) = _
    rw [join_cons, join_cons, join_cons, join_cons, join_cons]
    rfl

theorem outcomeBy_inj {record other : AccessRecord}
    (same : record.outcomeBy isPlain = other.outcomeBy isPlain) :
    record.status = other.status ∧ record.error = other.error := by
  obtain ⟨sameStatus, same⟩ := toString_append_inj (fieldThen_inj same)
  have sameError := fieldThen_inj (congrArg (" " ++ ·) same)
  exact ⟨sameStatus, (Text.quoteBy_append_inj sameError).1⟩

/-- What stands behind the method tells whether there was a request. -/
theorem fieldThen_digest_ne {shown behind : String} {record : AccessRecord} :
    fieldThen "digest" shown behind ≠ record.outcomeBy isPlain := by
  intro same
  have characters := congrArg String.toList ((String.append_right_inj _).mp same)
  unfold fieldThen at characters
  simp only [String.toList_append] at characters
  exact absurd (List.cons.inj characters).1 (by decide)

/-- No two access records have the same line. -/
theorem lineBy_inj {record other : AccessRecord}
    (same : record.lineBy isPlain = other.lineBy isPlain) : record = other := by
  rw [lineBy_eq, lineBy_eq] at same
  have same := fieldThen_inj ((String.append_right_inj _).mp (level_append_inj same).2)
  obtain ⟨sameMethod, same⟩ := Text.quoteBy_append_inj same
  obtain ⟨method, request?, status, error⟩ := record
  obtain ⟨otherMethod, otherRequest?, otherStatus, otherError⟩ := other
  rcases request? with _ | request <;> rcases otherRequest? with _ | otherRequest
  · rw [mk.injEq]
    exact ⟨sameMethod, rfl, outcomeBy_inj same⟩
  · exact absurd same.symm fieldThen_digest_ne
  · exact absurd same fieldThen_digest_ne
  · obtain ⟨sameDigest, same⟩ := Text.quoteBy_append_inj (fieldThen_inj same)
    obtain ⟨sameHash, same⟩ := Text.quoteBy_append_inj (fieldThen_inj same)
    have sameRequest : request = otherRequest := by
      cases request
      cases otherRequest
      rw [RequestFields.mk.injEq]
      exact ⟨sameDigest, sameHash⟩
    rw [mk.injEq]
    exact ⟨sameMethod, congrArg some sameRequest, outcomeBy_inj same⟩

section Controls

variable (escapes : ∀ c, Text.isControl c = true → isPlain c = false)

theorem isControl_eq_false_of_mem_fieldThen {name shown behind : String}
    (inName : ∀ c ∈ name.toList, Text.isControl c = false)
    (inShown : ∀ c ∈ shown.toList, Text.isControl c = false)
    (inBehind : ∀ c ∈ behind.toList, Text.isControl c = false) :
    ∀ c ∈ (fieldThen name shown behind).toList, Text.isControl c = false := by
  unfold fieldThen
  simp only [String.toList_append, List.forall_mem_append]
  exact ⟨Text.isControl_eq_false_of_all rfl, inName, Text.isControl_eq_false_of_all rfl,
    inShown, inBehind⟩

theorem isControl_eq_false_of_mem_toString (number : Nat) :
    ∀ c ∈ (toString number).toList, Text.isControl c = false := by
  intro c isDigit
  rw [Nat.toString_eq_repr, Nat.toList_repr] at isDigit
  obtain ⟨low, high⟩ : 48 ≤ c.toNat ∧ c.toNat ≤ 57 :=
    Char.isDigit_iff_toNat.mp (Nat.isDigit_of_mem_toDigits (by decide) (by decide) isDigit)
  unfold Text.isControl
  rw [Bool.or_eq_false_iff, decide_eq_false_iff_not, Bool.and_eq_false_imp, decide_eq_true_eq]
  omega

include escapes in
/-- The line of an access record has no control in it. -/
theorem isControl_eq_false_of_mem_lineBy (record : AccessRecord) :
    ∀ c ∈ (record.lineBy isPlain).toList, Text.isControl c = false := by
  have quoted := Text.isControl_eq_false_of_mem_quoteBy escapes
  have plain (text : String) (all : (text.toList.all fun c => !Text.isControl c) = true) :=
    Text.isControl_eq_false_of_all all
  have inOutcome : ∀ c ∈ (record.outcomeBy isPlain).toList, Text.isControl c = false :=
    isControl_eq_false_of_mem_fieldThen (plain "st" rfl) (isControl_eq_false_of_mem_toString _)
      (isControl_eq_false_of_mem_fieldThen (plain "err" rfl) (quoted _) (plain "" rfl))
  have behindMethod : ∀ c ∈ (record.behindMethodBy isPlain).toList,
      Text.isControl c = false := by
    unfold behindMethodBy
    cases record.request? with
    | none => exact inOutcome
    | some request =>
      exact isControl_eq_false_of_mem_fieldThen (plain "digest" rfl) (quoted _)
        (isControl_eq_false_of_mem_fieldThen (plain "hash" rfl) (quoted _) inOutcome)
  have inLevel : ∀ c ∈ (Event.access record).level.name.toList, Text.isControl c = false := by
    cases (Event.access record).level with
    | error | warn | info | debug | trace => exact plain _ rfl
  rw [lineBy_eq, String.toList_append, String.toList_append, List.forall_mem_append,
    List.forall_mem_append]
  exact ⟨inLevel, plain _ rfl, isControl_eq_false_of_mem_fieldThen (plain "m" rfl)
    (quoted _) behindMethod⟩

end Controls

/-- A record has one field for each text that it quotes, and this field is the quotation. -/
theorem Quotes.mem_fieldsBy_iff {record : AccessRecord} {name text : String}
    (quotes : record.Quotes name text) (value : FieldValue) :
    (name, value) ∈ record.fieldsBy isPlain ↔
      value = .verbatim (Text.quoteBy isPlain text) := by
  unfold fieldsBy
  cases quotes with
  | digest sent => simp [sent]
  | hash sent => simp [sent]
  | error => cases record.request? <;> simp

end AccessRecord

/-- **What callers have sent cannot forge an access record, and is told apart.** Whatever counts as
plain in quotations, if no control does: every text that an access record quotes has one field,
which is contained in its quotation marks and from which one and the same function reads the text
back, and different texts have different quotations. Nor can such a text go beyond its field: an
access record as a line has no line break and no other control in it, and no two records have the
same line. So it is in the log, where no control is plain. -/
theorem quoted_texts_are_unambiguous (isPlain : Char → Bool)
    (escapes : ∀ c, Text.isControl c = true → isPlain c = false) :
    (∀ (record : AccessRecord) (name text : String), record.Quotes name text →
      ∃ field,
        (∀ value, (name, value) ∈ record.fieldsBy isPlain ↔ value = .verbatim field) ∧
        Text.IsContained field ∧ Text.unquote? field = some text) ∧
    (∀ text other, Text.quoteBy isPlain text = Text.quoteBy isPlain other → text = other) ∧
    (∀ record : AccessRecord, ∀ c ∈ (record.lineBy isPlain).toList,
      Text.isControl c = false) ∧
    (∀ record other : AccessRecord, record.lineBy isPlain = other.lineBy isPlain →
      record = other) ∧
    (∀ c, Text.isControl c = true → Text.isPlain c = false) ∧
    ∀ record : AccessRecord, record.fields = record.fieldsBy Text.isPlain ∧
      (Event.access record).line = record.lineBy Text.isPlain := by
  refine ⟨fun record name text quotes => ?_, fun _ _ => Text.quoteBy_inj,
    AccessRecord.isControl_eq_false_of_mem_lineBy escapes, fun _ _ => AccessRecord.lineBy_inj,
    fun _ => Text.isPlain_of_isControl,
    fun record => ⟨record.fields_eq_fieldsBy, record.line_eq_lineBy⟩⟩
  exact ⟨Text.quoteBy isPlain text, quotes.mem_fieldsBy_iff,
    Text.isContained_quoteBy escapes text, Text.unquote?_quoteBy⟩

/-- A digest text that closes its quotation and begins a line of its own stays within its field. -/
theorem quoted_texts_are_unambiguous_for_feigned_line :
    (∀ c, Text.isControl c = true → Text.isPlain c = false) ∧
      let record : AccessRecord :=
        ⟨"PostSignBlob", some ⟨"\"\nINFO m=\"", "\\"⟩, 400, "e\u0301"⟩
      record.fieldsBy Text.isPlain =
        [("m", .quoted "PostSignBlob"), ("digest", .verbatim "\"\\\"\\nINFO m=\\\"\""),
          ("hash", .verbatim "\"\\\\\""), ("st", .number 400),
          ("err", .verbatim "\"e\\u\x7b301\x7d\"")] ∧
      ∃ field, (∀ value, ("digest", value) ∈ record.fieldsBy Text.isPlain ↔
        value = .verbatim field) ∧
        Text.IsContained field ∧ Text.unquote? field = some "\"\nINFO m=\"" := by
  refine ⟨fun _ => Text.isPlain_of_isControl, ?_⟩
  intro record
  have sent : record.request? = some ⟨"\"\nINFO m=\"", "\\"⟩ := rfl
  exact ⟨by decide +kernel,
    (quoted_texts_are_unambiguous Text.isPlain fun _ => Text.isPlain_of_isControl).1
      _ _ _ (.digest sent)⟩

end Signet
