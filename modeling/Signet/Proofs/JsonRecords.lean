import Signet.Proofs.JsonLayouts

/-!
# Reading records

A record is read from an object, member by member, or from a list, item by item. Both loops take
members into a draft: they read just what `Json.Layout.Fills` says
(`Json.Record.stands_of_readMembers`, `Json.Record.readMembers_of_fills` and the same for lists),
where the items of a list stand for members with the names of the fields. So a record is understood
by what its layout tells (`Json.Layout.understands`).
-/

namespace Signet.Json

/-! ## Members of objects -/

namespace Record

variable {δ α : Type} {record : Record δ α} {layout : Layout record}

/-- A slot is read where a value stands that means something in its place. -/
theorem yields_field_iff {slot : Slot δ} {draft last : δ} {place : Place} {octets rest : Octets} :
    Yields (slot.field.read draft ⟨place, octets⟩) last rest ↔ ∃ tree value,
      (Phrase.value tree).Stands octets rest ∧ slot.Means tree value ∧
        slot.set draft value = last := by
  show Yields ((slot.reader ⟨place, octets⟩).map _) last rest ↔ _
  rw [yields_map_iff]
  constructor
  · rintro ⟨value, yields, same⟩
    obtain ⟨tree, stands, means⟩ := (slot.understands _ _ _).mp yields
    exact ⟨tree, value, stands, means, same⟩
  · rintro ⟨tree, value, stands, means, same⟩
    exact ⟨value, (slot.understands _ _ _).mpr ⟨tree, stands, means⟩, same⟩

/-- Members that go on do not go on with a numeral. -/
theorem ends_of_readMembers {bound : Octets} {draft : δ} {cursor : Cursor} {content : Content δ}
    (isRead : record.readMembers bound false draft cursor = .ok content) :
    Number.Ends cursor.rest := by
  cases bound with
  | nil => cases isRead
  | cons x bound =>
    unfold readMembers at isRead
    split at isRead
    next => cases isRead
    next isLast =>
      obtain ⟨rest, closes⟩ := stands_of_nextName? isLast
      exact closes.ends
    next isNext =>
      obtain ⟨front, begins, -, -⟩ := begins_of_nextName? isNext
      cases begins with
      | later comma => exact comma.ends

theorem stands_of_readMembers {bound : Octets} {isFirst : Bool} {draft last : δ}
    {cursor behind : Cursor}
    (isRead : record.readMembers bound isFirst draft cursor = .ok (.ok last, behind)) :
    ∃ members, (Phrase.members isFirst (named members)).Stands cursor.rest behind.rest ∧
      layout.Fills draft members last := by
  induction bound generalizing isFirst draft cursor with
  | nil => cases isRead
  | cons x bound ih =>
    unfold readMembers at isRead
    split at isRead
    next => cases isRead
    next =>
      cases isRead
      exact ⟨[], .noMembers, .nil⟩
    next behindMark isNext =>
    split at isRead
    next => cases isRead
    next name behindName isName =>
    obtain ⟨front, begins, isMark, rfl⟩ := begins_of_nextName? isNext
    obtain ⟨body, denotes, isFront⟩ := Text.yields_read_iff.mp ⟨_, isName⟩
    have isText := Token.text_stands_of_peek? isMark denotes.1 isFront
    split at isRead
    next field isField =>
      obtain ⟨slot, isSlot, rfl, rfl⟩ := layout.exists_slot_of_find? isField
      split at isRead
      next => cases isRead
      next notSet =>
      split at isRead
      next => cases isRead
      next behindColon isColon =>
      split at isRead
      next => cases isRead
      next next after isValue =>
      obtain ⟨tree, value, stands, means, rfl⟩ := yields_field_iff.mp ⟨_, isValue⟩
      obtain ⟨members, standsMore, fills⟩ := ih isRead
      have isEmpty : slot.get draft = none := by simpa [Slot.field, Field.of] using notSet
      exact ⟨(slot.name, tree) :: members, .member begins isText denotes
        (stands_of_expectColon isColon) stands standsMore, .known isSlot isEmpty means fills⟩
    next isUnknown =>
      split at isRead
      next => cases isRead
      next isOpen =>
      split at isRead
      next => cases isRead
      next behindColon isColon =>
      split at isRead
      next => cases isRead
      next after isSkipped =>
      obtain ⟨tree, stands⟩ := exists_stands_of_skipValue isSkipped (ends_of_readMembers isRead)
      obtain ⟨members, standsMore, fills⟩ := ih isRead
      exact ⟨(name, tree) :: members, .member begins isText denotes
        (stands_of_expectColon isColon) stands standsMore,
        .unknown (layout.find?_eq_none_iff.mp isUnknown) (by simpa using isOpen) fills⟩

section Member

variable {isFirst : Bool} {draft : δ} {name : String} {tree : Value}
  {body octets here behindName behindColon behind : Octets}

/-- A member of a slot is read into it. -/
theorem readMembers_slot {slot : Slot δ} {value : slot.β} (isSlot : slot ∈ layout.slots)
    (isEmpty : slot.get draft = none) (means : slot.Means tree value)
    (begins : Begins isFirst octets here) (isName : (Token.text body).Stands here behindName)
    (denotes : Text.Denotes body (some slot.name))
    (isColon : (Token.sign 58).Stands behindName behindColon)
    (stands : (Phrase.value tree).Stands behindColon behind) (x : UInt8) (bound : Octets)
    (place : Place) :
    ∃ after, record.readMembers (x :: bound) isFirst draft ⟨place, octets⟩ =
      record.readMembers bound false (slot.set draft value) ⟨after, behind⟩ := by
  obtain ⟨atName, isNext⟩ := begins.nextName? isName place
  obtain ⟨atColon, isRead⟩ := denotes.isSpelled.yields atName behindName
  obtain ⟨atValue, isSkipped⟩ := isColon.leaves_expectColon atColon
  have yields : Yields (slot.field.read draft ⟨atValue, behindColon⟩)
      (slot.set draft value) behind :=
    yields_field_iff.mpr ⟨tree, value, stands, means, rfl⟩
  obtain ⟨after, isField⟩ := yields
  have notSet : slot.field.isSet draft = false := by
    show (slot.get draft).isSome = false
    rw [isEmpty]
    rfl
  refine ⟨after, ?_⟩
  conv => lhs; unfold readMembers
  rw [isNext]
  dsimp only
  rw [isRead]
  dsimp only
  rw [Layout.find?_slot isSlot]
  dsimp only
  rw [notSet, isSkipped]
  dsimp only
  rw [isField]
  rfl

/-- A member of an unknown name is skipped. -/
theorem readMembers_unknown (isUnknown : name ∉ layout.names) (isOpen : record.isClosed = false)
    (begins : Begins isFirst octets here) (isName : (Token.text body).Stands here behindName)
    (denotes : Text.Denotes body (some name))
    (isColon : (Token.sign 58).Stands behindName behindColon)
    (stands : (Phrase.value tree).Stands behindColon behind) (x : UInt8) (bound : Octets)
    (place : Place) :
    ∃ after, record.readMembers (x :: bound) isFirst draft ⟨place, octets⟩ =
      record.readMembers bound false draft ⟨after, behind⟩ := by
  obtain ⟨atName, isNext⟩ := begins.nextName? isName place
  obtain ⟨atColon, isRead⟩ := denotes.isSpelled.yields atName behindName
  obtain ⟨atValue, isMoved⟩ := isColon.leaves_expectColon atColon
  have leaves : Leaves (skipValue ⟨atValue, behindColon⟩) behind := stands.leaves_skipValue
  obtain ⟨after, isSkipped⟩ := leaves
  refine ⟨after, ?_⟩
  conv => lhs; unfold readMembers
  rw [isNext]
  dsimp only
  rw [isRead]
  dsimp only
  rw [Layout.find?_eq_none_iff.mpr isUnknown, isOpen]
  dsimp only
  rw [if_neg (by decide), isMoved]
  dsimp only
  rw [isSkipped]

end Member

/-- Members are read that can be taken into the draft. -/
theorem readMembers_of_fills {draft last : δ} {members : List (String × Value)}
    (fills : layout.Fills draft members last) {isFirst : Bool} {octets closing rest : Octets}
    (stands : (Phrase.members isFirst (named members)).Stands octets closing)
    (closes : (Token.sign 125).Stands closing rest) (bound : Octets)
    (enough : octets.length < bound.length) (place : Place) :
    ∃ behind, record.readMembers bound isFirst draft ⟨place, octets⟩ =
      .ok (.ok last, ⟨behind, closing⟩) := by
  induction fills generalizing isFirst bound octets place with
  | nil =>
    obtain ⟨x, bound, rfl⟩ := List.exists_cons_of_length_pos (Nat.zero_lt_of_lt enough)
    cases stands
    unfold readMembers
    rw [nextName?_of_closes closes]
    exact ⟨place, rfl⟩
  | known isSlot isEmpty means _ ih =>
    obtain ⟨x, bound, rfl⟩ := List.exists_cons_of_length_pos (Nat.zero_lt_of_lt enough)
    cases stands with
    | member begins isName denotes isColon standsValue standsMore =>
    obtain ⟨after, isStep⟩ :=
      readMembers_slot isSlot isEmpty means begins isName denotes isColon standsValue x bound place
    have isShorter := Phrase.length_lt_of_member begins isName isColon standsValue
    obtain ⟨behind, isRead⟩ := ih standsMore bound
      (Nat.lt_of_lt_of_le isShorter (Nat.le_of_lt_succ enough)) after
    exact ⟨behind, isStep.trans isRead⟩
  | unknown isUnknown isOpen _ ih =>
    obtain ⟨x, bound, rfl⟩ := List.exists_cons_of_length_pos (Nat.zero_lt_of_lt enough)
    cases stands with
    | member begins isName denotes isColon standsValue standsMore =>
    obtain ⟨after, isStep⟩ := readMembers_unknown isUnknown isOpen begins isName denotes isColon
      standsValue x bound place
    have isShorter := Phrase.length_lt_of_member begins isName isColon standsValue
    obtain ⟨behind, isRead⟩ := ih standsMore bound
      (Nat.lt_of_lt_of_le isShorter (Nat.le_of_lt_succ enough)) after
    exact ⟨behind, isStep.trans isRead⟩

/-! ## Items of lists -/

/-- Items are read into slots in their order, up to the end of the list or of the slots. -/
theorem stands_of_readFields {slots : List (Slot δ)} (areSlots : slots ⊆ layout.slots)
    (nodup : (slots.map Slot.name).Nodup) {index : Nat} {draft last : δ} {cursor behind : Cursor}
    (areEmpty : ∀ slot ∈ slots, slot.get draft = none)
    (isRead : readFields (slots.map Slot.field) index draft cursor = .ok (last, behind)) :
    ∃ items, (Phrase.items (index == 0) items).Stands cursor.rest behind.rest ∧
      items.length ≤ slots.length ∧
        layout.Fills draft ((slots.map Slot.name).zip items) last := by
  induction slots generalizing index draft cursor with
  | nil =>
    cases isRead
    exact ⟨[], .noItems, Nat.le_refl _, .nil⟩
  | cons slot slots ih =>
    rw [List.map_cons, List.nodup_cons] at nodup
    rw [List.map_cons] at isRead
    unfold readFields at isRead
    split at isRead
    next => cases isRead
    next =>
      cases isRead
      exact ⟨[], .noItems, Nat.zero_le _, .nil⟩
    next element isNext =>
    split at isRead
    next => cases isRead
    next next after isElement =>
    obtain ⟨front, begins, rfl⟩ := begins_of_nextElement? isNext
    obtain ⟨tree, value, stands, means, rfl⟩ := yields_field_iff.mp ⟨_, isElement⟩
    have isSlot : slot ∈ layout.slots := areSlots (.head _)
    have areOthers : slots ⊆ layout.slots := fun other isOther => areSlots (.tail _ isOther)
    have areEmptyMore : ∀ other ∈ slots, other.get (slot.set draft value) = none := by
      intro other isOther
      have differs : other.name ≠ slot.name := by
        intro same
        exact nodup.1 (same ▸ List.mem_map_of_mem isOther)
      rw [layout.get_set_other slot isSlot other (areOthers isOther) differs]
      exact areEmpty other (.tail _ isOther)
    obtain ⟨items, standsMore, isShort, fills⟩ := ih areOthers nodup.2 areEmptyMore isRead
    exact ⟨tree :: items, .item begins (Phrase.stands_skipBlanks_iff.mp stands) standsMore,
      Nat.succ_le_succ isShort, .known isSlot (areEmpty slot (.head _)) means fills⟩

/-- Items are read that can be taken into the draft under the names of the slots. -/
theorem readFields_of_fills {slots : List (Slot δ)} (areSlots : slots ⊆ layout.slots)
    {items : List Value} (isShort : items.length ≤ slots.length) (index : Nat) {draft last : δ}
    (fills : layout.Fills draft ((slots.map Slot.name).zip items) last)
    {octets closing rest : Octets}
    (stands : (Phrase.items (index == 0) items).Stands octets closing)
    (closes : (Token.sign 93).Stands closing rest) (place : Place) :
    ∃ behind, readFields (slots.map Slot.field) index draft ⟨place, octets⟩ =
      .ok (last, ⟨behind, closing⟩) := by
  induction slots generalizing items index draft octets place with
  | nil =>
    obtain rfl : items = [] := List.eq_nil_of_length_eq_zero (Nat.le_zero.mp isShort)
    cases stands
    cases fills
    exact ⟨place, rfl⟩
  | cons slot slots ih =>
    rw [List.map_cons] at fills ⊢
    unfold readFields
    cases stands with
    | noItems =>
      cases fills
      rw [nextElement?_of_closes closes]
      exact ⟨place, rfl⟩
    | @item _ tree items _ here behind _ begins standsValue standsMore =>
      obtain ⟨front, isNext⟩ := begins.nextElement? standsValue place
      obtain ⟨-, value, means, fills⟩ := fills.exists_of_slot (areSlots (.head _))
      have yields : Yields (slot.field.read draft (⟨front, here⟩ : Cursor).skipBlanks)
          (slot.set draft value) behind :=
        yields_field_iff.mpr
          ⟨tree, value, Phrase.stands_skipBlanks_iff.mpr standsValue, means, rfl⟩
      obtain ⟨after, isElement⟩ := yields
      rw [isNext]
      dsimp only
      rw [isElement]
      exact ih (fun other isOther => areSlots (.tail _ isOther)) (Nat.le_of_succ_le_succ isShort)
        (index + 1) fills standsMore after

/-! ## Records -/

theorem closeContent_eq_ok_iff {bracket : Bracket} {content : Content α} {value : α}
    {behind : Cursor} :
    closeContent bracket content = .ok (value, behind) ↔
      content.1 = .ok value ∧ close bracket content.2 = (behind, .ok ()) := by
  obtain ⟨content, cursor⟩ := content
  unfold closeContent
  dsimp only
  split
  next value isClosed =>
    rw [isClosed]
    constructor
    · rintro ⟨⟩
      exact ⟨rfl, rfl⟩
    · rintro ⟨⟨⟩, ⟨⟩⟩
      rfl
  next isClosed =>
    rw [isClosed]
    exact ⟨nofun, nofun⟩
  next => exact ⟨nofun, nofun⟩

theorem yields_closeContent (bracket : Bracket) {closing rest : Octets} {value : α}
    {behind : Place} (closes : (Token.sign bracket.closing).Stands closing rest) :
    Yields (closeContent bracket (.ok value, ⟨behind, closing⟩)) value rest := by
  obtain ⟨after, isClosed⟩ := closes.close bracket behind
  exact ⟨after, closeContent_eq_ok_iff.mpr ⟨rfl, isClosed⟩⟩

end Record

namespace Layout

variable {δ α : Type} {record : Record δ α} (layout : Layout record)

/-- What a value means as a record. -/
def Means (tree : Value) (value : α) : Prop :=
  ∃ members last, tree.Gives layout.names members ∧ layout.Fills record.blank members last ∧
    record.complete last = .ok value

variable {layout} {value : α}

theorem means_of_readListContent {cursor : Cursor} {content : Record.Content α}
    (isContent : record.readListContent cursor = .ok content) (isValue : content.1 = .ok value) :
    ∃ items, (Phrase.items true items).Stands cursor.rest content.2.rest ∧
      layout.Means (.list items) value := by
  unfold Record.readListContent at isContent
  split at isContent
  next => cases isContent
  next last behind areRead =>
  split at isContent
  next isComplete =>
    cases isContent
    cases isValue
    rw [layout.fields_eq] at areRead
    obtain ⟨items, stands, isShort, fills⟩ := Record.stands_of_readFields (List.Subset.refl _)
      layout.nodup layout.get_blank areRead
    rw [← List.length_map Slot.name] at isShort
    exact ⟨items, stands, _, last, ⟨isShort, rfl⟩, fills, isComplete⟩
  next =>
    cases isContent
    cases isValue

theorem means_of_readObjectContent {cursor : Cursor} {content : Record.Content α}
    (isContent : record.readObjectContent cursor = .ok content) (isValue : content.1 = .ok value) :
    ∃ members, (Phrase.members true members).Stands cursor.rest content.2.rest ∧
      layout.Means (.object members) value := by
  unfold Record.readObjectContent at isContent
  split at isContent
  next => cases isContent
  next =>
    cases isContent
    cases isValue
  next last behind areRead =>
    cases isContent
    have filled : ∃ members, (Phrase.members true (named members)).Stands cursor.rest
        behind.rest ∧
        layout.Fills record.blank members last := Record.stands_of_readMembers areRead
    obtain ⟨members, stands, fills⟩ := filled
    have isComplete : record.complete last = .ok value := by
      dsimp only at isValue
      cases complete : record.complete last with
      | error missing =>
        rw [complete] at isValue
        cases isValue
      | ok value =>
        rw [complete] at isValue
        cases isValue
        rfl
    exact ⟨named members, stands, members, last, rfl, fills, isComplete⟩

theorem readListContent_of_means {items : List Value} {octets closing rest : Octets}
    (inside : (Phrase.items true items).Stands octets closing)
    (closes : (Token.sign 93).Stands closing rest) (means : layout.Means (.list items) value)
    (place : Place) : ∃ behind, record.readListContent ⟨place, octets⟩ =
      .ok (.ok value, ⟨behind, closing⟩) := by
  obtain ⟨members, last, ⟨isShort, rfl⟩, fills, isComplete⟩ := means
  rw [names, List.length_map] at isShort
  obtain ⟨behind, areRead⟩ :=
    Record.readFields_of_fills (List.Subset.refl _) isShort 0 fills inside closes place
  rw [← layout.fields_eq] at areRead
  unfold Record.readListContent
  rw [areRead]
  dsimp only
  rw [isComplete]
  exact ⟨behind, rfl⟩

theorem readObjectContent_of_means {members : List Member} {octets closing rest : Octets}
    (inside : (Phrase.members true members).Stands octets closing)
    (closes : (Token.sign 125).Stands closing rest) (means : layout.Means (.object members) value)
    (place : Place) : ∃ behind, record.readObjectContent ⟨place, octets⟩ =
      .ok (.ok value, ⟨behind, closing⟩) := by
  obtain ⟨members, last, rfl, fills, isComplete⟩ := means
  obtain ⟨behind, areRead⟩ := Record.readMembers_of_fills fills inside closes (0 :: octets)
    (Nat.lt_succ_self _) place
  unfold Record.readObjectContent
  rw [areRead]
  dsimp only
  rw [isComplete]
  exact ⟨behind, rfl⟩

theorem understands : Understands record.read layout.Means := by
  refine .intro (fun isRead => ?_) (fun stands means place => ?_)
  · unfold Record.read at isRead
    dsimp only at isRead
    split at isRead
    next => cases isRead
    next octet isNext =>
    split at isRead
    next isList =>
      subst isList
      split at isRead
      next content isContent =>
        obtain ⟨isValue, isClosed⟩ := Record.closeContent_eq_ok_iff.mp isRead
        obtain ⟨items, stands, means⟩ := layout.means_of_readListContent isContent isValue
        exact ⟨_,
          .list (Token.stands_of_peek? isNext (by decide)) stands (stands_of_close isClosed),
          means⟩
      next => cases isRead
    split at isRead
    next isObject =>
      subst isObject
      split at isRead
      next content isContent =>
        obtain ⟨isValue, isClosed⟩ := Record.closeContent_eq_ok_iff.mp isRead
        obtain ⟨members, stands, means⟩ := layout.means_of_readObjectContent isContent isValue
        exact ⟨_, .object (Token.stands_of_peek? isNext (by decide)) stands
          (stands_of_close isClosed), means⟩
      next => cases isRead
    next => exact absurd isRead refuse_ne_ok
  · cases stands with
    | word _ | number _ | text _ _ =>
      obtain ⟨members, last, gives, -⟩ := means
      cases gives
    | list opens inside closes =>
      obtain ⟨behind, skipped⟩ := opens.skipBlanks_sign place
      obtain ⟨atEnd, isContent⟩ :=
        layout.readListContent_of_means inside closes means (behind.after 91)
      unfold Record.read
      dsimp only
      rw [skipped, Cursor.peek?_cons]
      dsimp only
      rw [if_pos rfl, Cursor.advance_cons, isContent]
      exact Record.yields_closeContent .list closes
    | object opens inside closes =>
      obtain ⟨behind, skipped⟩ := opens.skipBlanks_sign place
      obtain ⟨atEnd, isContent⟩ :=
        layout.readObjectContent_of_means inside closes means (behind.after 123)
      unfold Record.read
      dsimp only
      rw [skipped, Cursor.peek?_cons]
      dsimp only
      rw [if_neg (by decide), if_pos rfl, Cursor.advance_cons, isContent]
      exact Record.yields_closeContent .object closes

/-- A record is understood by what its members mean, if this is what the layout makes of them. -/
theorem understands_of_fits {Fits : List (String × Value) → α → Prop}
    (same : ∀ members value, layout.Fits members value ↔ Fits members value) :
    Understands record.read (MeansRecord layout.names record.isClosed Fits) := by
  refine layout.understands.congr fun tree value => ?_
  constructor
  · rintro ⟨members, last, gives, fills, isComplete⟩
    obtain ⟨isUnambiguous, fit⟩ := fills_blank_iff.mp fills
    exact ⟨members, gives, isUnambiguous, (same members value).mp ⟨last, fit, isComplete⟩⟩
  · rintro ⟨members, gives, isUnambiguous, fits⟩
    obtain ⟨last, fit, isComplete⟩ := (same members value).mpr fits
    exact ⟨members, last, gives, fills_blank_iff.mpr ⟨isUnambiguous, fit⟩, isComplete⟩

end Layout

section Single

variable {α β : Type} {record : Record (Option β) α} {name : String} {reader : Reader β}
  {Means : Value → β → Prop}

theorem understands_single (understands : Understands reader Means)
    (fields_eq : record.fields = [.of name id (fun _ value => some value) reader])
    (blank_eq : record.blank = none) {Fits : List (String × Value) → α → Prop}
    (same : ∀ members value, (∃ value?, Option.Rel Means (members.lookup name) value? ∧
      record.complete value? = .ok value) ↔ Fits members value) :
    Understands record.read (MeansRecord [name] record.isClosed Fits) :=
  (Layout.single record name understands fields_eq blank_eq).understands_of_fits
    fun members value =>
      (exists_congr fun _ => and_congr_left fun _ => List.forall_mem_singleton).trans
        (same members value)

/-- A record of one field that has to be there means what this field does. -/
theorem understands_given (understands : Understands reader Means)
    (fields_eq : record.fields = [.of name id (fun _ value => some value) reader])
    (blank_eq : record.blank = none) (make : β → α) (get : α → β)
    (make_get : ∀ value, make (get value) = value)
    (get_make : ∀ value, get (make value) = value)
    (complete_some : ∀ value, record.complete (some value) = .ok (make value))
    (complete_none : record.complete none = .error name) :
    Understands record.read (MeansRecord [name] record.isClosed fun members value =>
      MeansGiven Means (members.lookup name) (get value)) := by
  refine understands_single understands fields_eq blank_eq fun members value => ?_
  rw [← rel_some_iff]
  constructor
  · rintro ⟨_ | inner, fit, isComplete⟩
    · rw [complete_none] at isComplete
      cases isComplete
    · rw [complete_some] at isComplete
      cases isComplete
      rwa [get_make]
  · intro fit
    exact ⟨some (get value), fit, by rw [complete_some, make_get]⟩

end Single

end Signet.Json
