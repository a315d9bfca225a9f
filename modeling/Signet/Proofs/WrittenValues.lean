import Signet.Json.Writing
import Signet.Proofs.JsonLayouts

/-!
# Values that are written

What is written for a value stands for it in the grammar, whatever stands behind it (`Json.Writes`).
A writer puts together what it writes from texts, lists and objects, and each of these is written
for what it is.
-/

namespace Signet.Json

/-- That a text is written for a value. -/
def Writes (text : String) (tree : Value) : Prop :=
  ∀ rest, (Phrase.value tree).Stands (Octets.ofText text ++ rest) rest

theorem Writes.stands {text : String} {tree : Value} (writes : Writes text tree) :
    (Phrase.value tree).Stands (Octets.ofText text) [] := by
  have stands := writes []
  rwa [List.append_nil] at stands

/-- A text is the value that it is written for. -/
theorem Writes.isJson {text written : String} {tree : Value} (writes : Writes written tree)
    (isWritten : written = text) : IsJson tree (Octets.ofText text) :=
  isWritten ▸ ⟨[], writes.stands, Cursor.areBlank_nil⟩

theorem writes_null : Writes "null" .null := by
  intro rest
  have letters : Octets.ofText "null" = (Token.word .null).octets := Octets.ofText_of_encoded rfl
  have isFormed : (Token.word .null).IsFormed rest := trivial
  rw [letters]
  exact .word isFormed.stands

theorem stands_sign {sign : UInt8} (isSign : sign ∈ [91, 93, 123, 125, 44, 58]) (rest : Octets) :
    (Token.sign sign).Stands (sign :: rest) rest :=
  Token.IsFormed.stands isSign

/-! ## Texts -/

theorem ofText_writeText (text : String) :
    Octets.ofText (writeText text) =
      34 :: ((text.toList.flatMap writeCharacter).flatMap String.utf8EncodeChar ++ [34]) := by
  unfold writeText
  rw [Octets.ofText_ofList, List.cons_append, List.flatMap_cons, List.flatMap_append]
  rfl

/-- What is written for a text is a token that denotes it. -/
theorem exists_text_of_writeText (text : String) : ∃ body, Text.Denotes body (some text) ∧
    ∀ rest, (Token.text body).Stands (Octets.ofText (writeText text) ++ rest) rest := by
  have isText : Octets.toText? (text.toList.flatMap String.utf8EncodeChar) = some text := by
    rw [← Octets.ofText_eq_flatMap, Octets.toText?_ofText]
  have denotes := Text.IsSpelled.denotes ⟨_, Text.spells_written text.toList, isText⟩
  refine ⟨_, denotes, fun rest => ?_⟩
  rw [ofText_writeText]
  exact Token.IsFormed.stands denotes.1

theorem writes_text (text : String) : Writes (writeText text) (.text (some text)) := by
  intro rest
  obtain ⟨body, denotes, stands⟩ := exists_text_of_writeText text
  exact .text (stands rest) denotes

/-! ## What is written with commas -/

theorem ofText_intercalate_cons (first : String) (texts : List String) :
    Octets.ofText (",".intercalate (first :: texts)) =
      Octets.ofText first ++ texts.flatMap fun text => 44 :: Octets.ofText text := by
  induction texts generalizing first with
  | nil => rw [String.intercalate_singleton, List.flatMap_nil, List.append_nil]
  | cons text texts ih =>
    have comma : Octets.ofText "," = [44] := Octets.ofText_of_encoded rfl
    rw [String.intercalate_cons_cons, Octets.ofText_append, Octets.ofText_append, ih, comma,
      List.append_assoc]
    rfl

theorem stands_items {texts : List String} {items : List Value}
    (areWritten : List.Forall₂ Writes texts items) (rest : Octets) :
    (Phrase.items false items).Stands
      ((texts.flatMap fun text => 44 :: Octets.ofText text) ++ rest) rest := by
  induction areWritten with
  | nil => exact .noItems
  | cons isWritten _ ih =>
    rw [List.flatMap_cons, List.append_assoc]
    exact .item (.later (stands_sign (by decide) _)) (isWritten _) ih

/-- A list is written if its items are. -/
theorem writes_list {texts : List String} {items : List Value}
    (areWritten : List.Forall₂ Writes texts items) : Writes (writeList texts) (.list items) := by
  intro rest
  have opening : Octets.ofText "[" = [91] := Octets.ofText_of_encoded rfl
  have closing : Octets.ofText "]" = [93] := Octets.ofText_of_encoded rfl
  have inside : (Phrase.items true items).Stands
      (Octets.ofText (",".intercalate texts) ++ 93 :: rest) (93 :: rest) := by
    cases areWritten with
    | nil => exact .noItems
    | cons isFirst areOthers =>
      rw [ofText_intercalate_cons, List.append_assoc]
      exact .item .first (isFirst _) (stands_items areOthers _)
  unfold writeList
  rw [Octets.ofText_append, Octets.ofText_append, opening, closing, List.append_assoc,
    List.append_assoc]
  exact .list (stands_sign (by decide) _) inside (stands_sign (by decide) _)

/-- How a member is written. -/
def writeMember (member : String × String) : String :=
  writeText member.1 ++ ":" ++ member.2

/-- That a member is written for a name and a value. -/
def WritesMember (text : String × String) (member : String × Value) : Prop :=
  text.1 = member.1 ∧ Writes text.2 member.2

theorem Writes.member {text : String} {tree : Value} (writes : Writes text tree) (name : String) :
    WritesMember (name, text) (name, tree) :=
  ⟨rfl, writes⟩

/-- A member stands where it is written. -/
theorem WritesMember.stands {text : String × String} {member : String × Value}
    (isWritten : WritesMember text member) {isFirst : Bool} {octets behind rest : Octets}
    {members : List (String × Value)}
    (begins : Begins isFirst octets (Octets.ofText (writeMember text) ++ behind))
    (standsMore : (Phrase.members false (named members)).Stands behind rest) :
    (Phrase.members isFirst (named (member :: members))).Stands octets rest := by
  obtain ⟨name, tree⟩ := member
  obtain ⟨rfl, writes⟩ := isWritten
  obtain ⟨body, denotes, stands⟩ := exists_text_of_writeText text.1
  have colon : Octets.ofText ":" = [58] := Octets.ofText_of_encoded rfl
  unfold writeMember at begins
  rw [Octets.ofText_append, Octets.ofText_append, colon, List.append_assoc, List.append_assoc]
    at begins
  exact .member begins (stands _) denotes (stands_sign (by decide) _) (writes _) standsMore

theorem stands_members {texts : List (String × String)} {members : List (String × Value)}
    (areWritten : List.Forall₂ WritesMember texts members) (rest : Octets) :
    (Phrase.members false (named members)).Stands
      (((texts.map writeMember).flatMap fun text => 44 :: Octets.ofText text) ++ rest) rest := by
  induction areWritten with
  | nil => exact .noMembers
  | cons isWritten _ ih =>
    rw [List.map_cons, List.flatMap_cons, List.append_assoc]
    exact isWritten.stands (.later (stands_sign (by decide) _)) ih

/-- An object is written if its members are. -/
theorem writes_object {texts : List (String × String)} {members : List (String × Value)}
    (areWritten : List.Forall₂ WritesMember texts members) :
    Writes (writeObject texts) (.object (named members)) := by
  intro rest
  have opening : Octets.ofText "\x7b" = [123] := Octets.ofText_of_encoded rfl
  have closing : Octets.ofText "\x7d" = [125] := Octets.ofText_of_encoded rfl
  have inside : (Phrase.members true (named members)).Stands
      (Octets.ofText (",".intercalate (texts.map writeMember)) ++ 125 :: rest) (125 :: rest) := by
    cases areWritten with
    | nil => exact .noMembers
    | cons isFirst areOthers =>
      rw [List.map_cons, ofText_intercalate_cons, List.append_assoc]
      exact isFirst.stands .first (stands_members areOthers _)
  show (Phrase.value _).Stands (Octets.ofText
    ("\x7b" ++ ",".intercalate (texts.map writeMember) ++ "\x7d") ++ rest) rest
  rw [Octets.ofText_append, Octets.ofText_append, opening, closing, List.append_assoc,
    List.append_assoc]
  exact .object (stands_sign (by decide) _) inside (stands_sign (by decide) _)

end Signet.Json
