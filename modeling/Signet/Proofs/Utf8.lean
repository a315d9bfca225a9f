import Signet.Octets

/-!
# Characters as octets

A text is written as the octets of its characters, one character behind the other
(`Octets.ofText_ofList`). A character of ASCII is one octet, its own number, and this octet is part
of no other character (`Octets.eq_of_mem_utf8EncodeChar`). So what looks for certain characters of
ASCII may look at octets instead.

The octets of a lesser character are less than those of a greater one, and they differ before either
ends (`Octets.utf8EncodeChar_append_lt`). So texts have the order of their octets
(`Octets.ofText_lt_ofText_iff`).

Octets that are no text have a first place where they stop being one (`Octets.exists_utf8Fault`): as
long as none is found, they are taken to pieces of two, three or four octets, and each of these is a
character.
-/

namespace Signet.Octets

/-- What a table of 256 rows shows holds of all octets. -/
theorem forall_of_table {P : UInt8 → Prop} (table : ∀ number < 256, P (UInt8.ofNat number))
    (octet : UInt8) : P octet := by
  have row := table octet.toNat octet.toNat_lt
  rwa [UInt8.ofNat_toNat] at row

theorem ofText_ofList (characters : List Char) :
    ofText (String.ofList characters) = characters.flatMap String.utf8EncodeChar := by
  have encoded : (String.ofList characters).toByteArray = characters.utf8Encode :=
    String.toByteArray_ofList
  show (String.ofList characters).toByteArray.data.toList = _
  rw [encoded, List.utf8Encode, List.toList_data_toByteArray]

theorem ofText_eq_flatMap (text : String) :
    ofText text = text.toList.flatMap String.utf8EncodeChar := by
  rw [← ofText_ofList, String.ofList_toList]

theorem ofText_of_encoded {text : String} {octets : Octets}
    (encoded : text.toList.flatMap String.utf8EncodeChar = octets) : ofText text = octets :=
  (ofText_eq_flatMap text).trans encoded

theorem ofText_append (text more : String) :
    ofText (text ++ more) = ofText text ++ ofText more := by
  rw [ofText_eq_flatMap, String.toList_append, List.flatMap_append, ← ofText_eq_flatMap,
    ← ofText_eq_flatMap]

/-- A character of ASCII is one octet. -/
theorem utf8EncodeChar_of_lt {c : Char} (isAscii : c.toNat < 128) :
    String.utf8EncodeChar c = [UInt8.ofNat c.toNat] := by
  have value : c.val.toNat ≤ 127 := Nat.le_of_lt_succ isAscii
  unfold String.utf8EncodeChar
  exact if_pos value

/-- No octet of another character is a character of ASCII. -/
theorem le_of_mem_utf8EncodeChar {c : Char} {octet : UInt8} (notAscii : 128 ≤ c.toNat)
    (isPart : octet ∈ String.utf8EncodeChar c) : 128 ≤ octet.toNat := by
  have value : ¬ c.val.toNat ≤ 127 := Nat.not_le.mpr notAscii
  simp only [String.utf8EncodeChar, value, if_false] at isPart
  split at isPart
  · simp only [List.mem_cons, List.not_mem_nil, or_false] at isPart
    rcases isPart with rfl | rfl <;> rw [UInt8.toNat_ofNat'] <;> omega
  · split at isPart
    · simp only [List.mem_cons, List.not_mem_nil, or_false] at isPart
      rcases isPart with rfl | rfl | rfl <;> rw [UInt8.toNat_ofNat'] <;> omega
    · simp only [List.mem_cons, List.not_mem_nil, or_false] at isPart
      rcases isPart with rfl | rfl | rfl | rfl <;> rw [UInt8.toNat_ofNat'] <;> omega

theorem toNat_ofNat_of_lt {number : Nat} (isAscii : number < 128) :
    (UInt8.ofNat number).toNat = number := by
  rw [UInt8.toNat_ofNat']
  omega

/-- The octet of a character of ASCII is part of no other character. -/
theorem eq_of_mem_utf8EncodeChar {c ascii : Char} (isAscii : ascii.toNat < 128)
    (isPart : UInt8.ofNat ascii.toNat ∈ String.utf8EncodeChar c) : c = ascii := by
  by_cases isAlso : c.toNat < 128
  · rw [utf8EncodeChar_of_lt isAlso, List.mem_singleton] at isPart
    have number := congrArg UInt8.toNat isPart
    rw [toNat_ofNat_of_lt isAscii, toNat_ofNat_of_lt isAlso] at number
    rw [← Char.ofNat_toNat c, ← number, Char.ofNat_toNat]
  · have high := le_of_mem_utf8EncodeChar (Nat.not_lt.mp isAlso) isPart
    rw [toNat_ofNat_of_lt isAscii] at high
    omega

/-! ## Order -/

/-- Octets are ordered by the first two that differ. -/
theorem ofNat_cons_lt {number other : Nat} {behind otherBehind : Octets} (isOctet : other < 256)
    (le : number ≤ other) (later : number = other → behind < otherBehind) :
    UInt8.ofNat number :: behind < UInt8.ofNat other :: otherBehind := by
  rw [List.cons_lt_cons_iff]
  rcases Nat.lt_or_eq_of_le le with less | same
  · left
    rw [UInt8.lt_iff_toNat_lt, UInt8.toNat_ofNat', UInt8.toNat_ofNat']
    omega
  · exact Or.inr ⟨congrArg UInt8.ofNat same, later same⟩

/-- A lesser character has lesser octets, whatever stands behind the two. -/
theorem utf8EncodeChar_append_lt {c other : Char} (less : c < other) (behind otherBehind : Octets) :
    String.utf8EncodeChar c ++ behind < String.utf8EncodeChar other ++ otherBehind := by
  have less : c.val.toNat < other.val.toNat := less
  have bounded : other.val.toNat < 0x110000 := by
    rcases other.valid with low | high
    · exact Nat.lt_trans low (by decide)
    · exact high.2
  unfold String.utf8EncodeChar
  dsimp only
  generalize c.val.toNat = number, other.val.toNat = otherNumber at less bounded
  -- The first octet tells how many there are; if it is the same in both, the others decide in turn.
  by_cases isOne : number ≤ 127
  · rw [if_pos isOne]
    split
    · exact ofNat_cons_lt (by omega) (by omega) (by omega)
    split
    · exact ofNat_cons_lt (by omega) (by omega) (by omega)
    split <;> exact ofNat_cons_lt (by omega) (by omega) (by omega)
  rw [if_neg isOne, if_neg (show ¬ otherNumber ≤ 127 by omega)]
  by_cases areTwo : number ≤ 2047
  · rw [if_pos areTwo]
    split
    · exact ofNat_cons_lt (by omega) (by omega) fun _ =>
        ofNat_cons_lt (by omega) (by omega) (by omega)
    split <;> exact ofNat_cons_lt (by omega) (by omega) (by omega)
  rw [if_neg areTwo, if_neg (show ¬ otherNumber ≤ 2047 by omega)]
  by_cases areThree : number ≤ 65535
  · rw [if_pos areThree]
    split
    · exact ofNat_cons_lt (by omega) (by omega) fun _ =>
        ofNat_cons_lt (by omega) (by omega) fun _ =>
        ofNat_cons_lt (by omega) (by omega) (by omega)
    · exact ofNat_cons_lt (by omega) (by omega) (by omega)
  rw [if_neg areThree, if_neg (show ¬ otherNumber ≤ 65535 by omega)]
  exact ofNat_cons_lt (by omega) (by omega) fun _ => ofNat_cons_lt (by omega) (by omega) fun _ =>
    ofNat_cons_lt (by omega) (by omega) fun _ => ofNat_cons_lt (by omega) (by omega) (by omega)

/-- Lesser characters in a row have lesser octets. -/
theorem flatMap_utf8EncodeChar_lt {characters others : List Char} (less : characters < others) :
    characters.flatMap String.utf8EncodeChar < others.flatMap String.utf8EncodeChar := by
  induction less with
  | @nil c characters =>
    rw [List.flatMap_nil, List.flatMap_cons]
    have nonempty : String.utf8EncodeChar c ≠ [] := String.utf8EncodeChar_ne_nil
    obtain ⟨octet, rest, encoded⟩ := List.exists_cons_of_ne_nil nonempty
    rw [encoded]
    exact List.nil_lt_cons _ _
  | rel less => 
    rw [List.flatMap_cons, List.flatMap_cons]
    exact utf8EncodeChar_append_lt less _ _
  | cons _ ih => 
    rw [List.flatMap_cons, List.flatMap_cons]
    exact List.append_left_lt ih

/-- Texts are ordered as their octets are. -/
theorem ofText_lt_ofText_iff {text other : String} :
    ofText text < ofText other ↔ text < other := by
  have forwards {text other : String} (less : text < other) : ofText text < ofText other := by
    rw [ofText_eq_flatMap, ofText_eq_flatMap]
    exact flatMap_utf8EncodeChar_lt less
  refine ⟨fun less => Decidable.byContradiction fun notLess => ?_, forwards⟩
  by_cases same : text = other
  · subst same
    exact List.lt_irrefl _ less
  · have greater : other < text := Decidable.byContradiction fun notGreater =>
      same (String.le_antisymm (String.not_lt.mp notGreater) (String.not_lt.mp notLess))
    exact List.lt_asymm less (forwards greater)

/-! ## Octets that are no text -/

/-- Each number of a character is the number of one. -/
theorem exists_character {number : Nat} (isValid : number.isValidChar) :
    ∃ c : Char, c.val.toNat = number := by
  refine ⟨Char.ofNat number, ?_⟩
  rw [Char.ofNat, dif_pos isValid]
  rfl

theorem exists_character_of_two {lead second : UInt8} (lead_ge : 0xC2 ≤ lead.toNat)
    (lead_le : lead.toNat ≤ 0xDF) (second_ge : 0x80 ≤ second.toNat)
    (second_le : second.toNat ≤ 0xBF) :
    ∃ c, String.utf8EncodeChar c = [lead, second] := by
  have isValid : ((lead.toNat - 0xC0) * 64 + (second.toNat - 0x80)).isValidChar := Or.inl (by omega)
  obtain ⟨c, number⟩ := exists_character isValid
  refine ⟨c, ?_⟩
  rw [String.utf8EncodeChar, number]
  rw [if_neg (by omega), if_pos (by omega)]
  simp only [List.cons.injEq, ← UInt8.toNat_inj, UInt8.toNat_ofNat', and_true]
  omega

theorem exists_character_of_three {lead second third : UInt8} (lead_ge : 0xE0 ≤ lead.toNat)
    (lead_le : lead.toNat ≤ 0xEF) (second_ge : 0x80 ≤ second.toNat)
    (second_le : second.toNat ≤ 0xBF) (third_ge : 0x80 ≤ third.toNat)
    (third_le : third.toNat ≤ 0xBF) (notShorter : lead.toNat = 0xE0 → 0xA0 ≤ second.toNat)
    (noSurrogate : lead.toNat = 0xED → second.toNat ≤ 0x9F) :
    ∃ c, String.utf8EncodeChar c = [lead, second, third] := by
  have isValid : ((lead.toNat - 0xE0) * 4096 + (second.toNat - 0x80) * 64 +
      (third.toNat - 0x80)).isValidChar := by
    show _ < 0xD800 ∨ 0xDFFF < _ ∧ _ < 0x110000
    omega
  obtain ⟨c, number⟩ := exists_character isValid
  refine ⟨c, ?_⟩
  rw [String.utf8EncodeChar, number]
  rw [if_neg (by omega), if_neg (by omega), if_pos (by omega)]
  simp only [List.cons.injEq, ← UInt8.toNat_inj, UInt8.toNat_ofNat', and_true]
  omega

theorem exists_character_of_four {lead second third fourth : UInt8} (lead_ge : 0xF0 ≤ lead.toNat)
    (lead_le : lead.toNat ≤ 0xF4) (second_ge : 0x80 ≤ second.toNat)
    (second_le : second.toNat ≤ 0xBF) (third_ge : 0x80 ≤ third.toNat)
    (third_le : third.toNat ≤ 0xBF) (fourth_ge : 0x80 ≤ fourth.toNat)
    (fourth_le : fourth.toNat ≤ 0xBF) (notShorter : lead.toNat = 0xF0 → 0x90 ≤ second.toNat)
    (notHigher : lead.toNat = 0xF4 → second.toNat ≤ 0x8F) :
    ∃ c, String.utf8EncodeChar c = [lead, second, third, fourth] := by
  have isValid : ((lead.toNat - 0xF0) * 262144 + (second.toNat - 0x80) * 4096 +
      (third.toNat - 0x80) * 64 + (fourth.toNat - 0x80)).isValidChar := by
    show _ < 0xD800 ∨ 0xDFFF < _ ∧ _ < 0x110000
    omega
  obtain ⟨c, number⟩ := exists_character isValid
  refine ⟨c, ?_⟩
  rw [String.utf8EncodeChar, number]
  rw [if_neg (by omega), if_neg (by omega), if_neg (by omega)]
  simp only [List.cons.injEq, ← UInt8.toNat_inj, UInt8.toNat_ofNat', and_true]
  omega

/-- What is read of a character starts with an octet within the bounds, and goes on as long as more
octets are due. -/
theorem within_of_afterContinuation {low high : UInt8} {seen more : Nat} {octets rest : Octets}
    (continued : afterContinuation low high seen more octets = .ok rest) :
    ∃ octet behind, octets = octet :: behind ∧ low.toNat ≤ octet.toNat ∧
      octet.toNat ≤ high.toNat ∧ (more = 0 → behind = rest) ∧
      ∀ later, more = later + 1 →
        afterContinuation 0x80 0xBF (seen + 1) later behind = .ok rest := by
  rcases octets with _ | ⟨octet, behind⟩
  · simp [afterContinuation] at continued
  · unfold afterContinuation at continued
    split at continued
    next within =>
      refine ⟨octet, behind, rfl, within.1, within.2, ?_, ?_⟩
      · rintro rfl
        exact Except.ok.inj continued
      · rintro later rfl
        exact continued
    next => cases continued

/-- How many octets follow a lead octet, and within which bounds the first of them is. -/
theorem continuation?_eq_some {lead low high : UInt8} {more : Nat}
    (isLead : continuation? lead = some (low, high, more)) :
    0x80 ≤ low.toNat ∧ high.toNat ≤ 0xBF ∧
      ((more = 0 ∧ 0xC2 ≤ lead.toNat ∧ lead.toNat ≤ 0xDF) ∨
        (more = 1 ∧ 0xE0 ≤ lead.toNat ∧ lead.toNat ≤ 0xEF ∧
          (lead.toNat = 0xE0 → 0xA0 ≤ low.toNat) ∧
            (lead.toNat = 0xED → high.toNat ≤ 0x9F)) ∨
        more = 2 ∧ 0xF0 ≤ lead.toNat ∧ lead.toNat ≤ 0xF4 ∧
          (lead.toNat = 0xF0 → 0x90 ≤ low.toNat) ∧
            (lead.toNat = 0xF4 → high.toNat ≤ 0x8F)) := by
  unfold continuation? at isLead
  simp only [UInt8.le_iff_toNat_le, ← UInt8.toNat_inj, UInt8.toNat_ofNat] at isLead
  -- One case for each row of the table.
  iterate 7
    split at isLead
    · cases isLead
      simp
      omega
  cases isLead

/-- A lead octet and what may follow it are a character. -/
theorem exists_character_of_continuation {lead low high : UInt8} {more : Nat}
    {octets rest : Octets} (isLead : continuation? lead = some (low, high, more))
    (continued : afterContinuation low high 1 more octets = .ok rest) :
    ∃ c, lead :: octets = String.utf8EncodeChar c ++ rest := by
  obtain ⟨second, octets, rfl, second_ge, second_le, ends, continued⟩ :=
    within_of_afterContinuation continued
  obtain ⟨low_ge, high_le, row⟩ := continuation?_eq_some isLead
  rcases row with ⟨rfl, lead_ge, lead_le⟩ | ⟨rfl, lead_ge, lead_le, lowest, highest⟩ |
    ⟨rfl, lead_ge, lead_le, lowest, highest⟩
  · have character : ∃ c, String.utf8EncodeChar c = [lead, second] :=
      exists_character_of_two lead_ge lead_le (by omega) (by omega)
    obtain ⟨c, encoded⟩ := character
    exact ⟨c, by rw [encoded, ends rfl]; rfl⟩
  · obtain ⟨third, octets, rfl, third_ge, third_le, ends, -⟩ :=
      within_of_afterContinuation (continued 0 rfl)
    have character : ∃ c, String.utf8EncodeChar c = [lead, second, third] :=
      exists_character_of_three lead_ge lead_le (by omega) (by omega) third_ge third_le
        (by omega) (by omega)
    obtain ⟨c, encoded⟩ := character
    exact ⟨c, by rw [encoded, ends rfl]; rfl⟩
  · obtain ⟨third, octets, rfl, third_ge, third_le, -, continued⟩ :=
      within_of_afterContinuation (continued 1 rfl)
    obtain ⟨fourth, octets, rfl, fourth_ge, fourth_le, ends, -⟩ :=
      within_of_afterContinuation (continued 0 rfl)
    have character : ∃ c, String.utf8EncodeChar c = [lead, second, third, fourth] :=
      exists_character_of_four lead_ge lead_le (by omega) (by omega) third_ge third_le
        fourth_ge fourth_le (by omega) (by omega)
    obtain ⟨c, encoded⟩ := character
    exact ⟨c, by rw [encoded, ends rfl]; rfl⟩

theorem exists_characters_of_go {fuel valid : Nat} {octets : Octets}
    (enough : octets.length ≤ fuel) (faultless : utf8Fault?.go fuel valid octets = none) :
    ∃ characters : List Char, octets = characters.flatMap String.utf8EncodeChar := by
  induction fuel generalizing valid octets with
  | zero => exact ⟨[], List.eq_nil_of_length_eq_zero (Nat.le_zero.mp enough)⟩
  | succ fuel ih =>
    rcases octets with _ | ⟨lead, octets⟩
    · exact ⟨[], rfl⟩
    have enough : octets.length ≤ fuel := Nat.le_of_succ_le_succ enough
    unfold utf8Fault?.go at faultless
    split at faultless
    next isAscii =>
      obtain ⟨characters, rfl⟩ := ih enough faultless
      have isAscii : lead.toNat < 128 := isAscii
      have isValid : lead.toNat.isValidChar := Or.inl (by omega)
      obtain ⟨c, number⟩ := exists_character isValid
      rw [← number] at isAscii
      have encoded : String.utf8EncodeChar c = [lead] := by
        rw [utf8EncodeChar_of_lt isAscii]
        show [UInt8.ofNat c.val.toNat] = _
        rw [number, UInt8.ofNat_toNat]
      refine ⟨c :: characters, ?_⟩
      rw [List.flatMap_cons, encoded]
      rfl
    next =>
      split at faultless
      next => cases faultless
      next low high more isLead =>
        split at faultless
        next => cases faultless
        next rest continued =>
          obtain ⟨c, isCharacter⟩ := exists_character_of_continuation isLead continued
          have shorter : rest.length ≤ fuel := by
            have lengths := congrArg List.length isCharacter
            rw [List.length_cons, List.length_append, String.length_utf8EncodeChar] at lengths
            have positive := c.utf8Size_pos
            omega
          obtain ⟨characters, rfl⟩ := ih shorter faultless
          exact ⟨c :: characters, isCharacter⟩

/-- Octets are read as the text that they write. -/
theorem toText?_eq_some_iff {octets : Octets} {text : String} :
    octets.toText? = some text ↔ octets = ofText text := by
  constructor
  · intro isText
    unfold toText? String.fromUTF8? at isText
    split at isText
    next valid =>
      rw [← Option.some.inj isText]
      rfl
    next => cases isText
  · rintro rfl
    exact toText?_ofText text

/-- Octets that are no text have a fault. -/
theorem exists_utf8Fault {octets : Octets} (noText : octets.toText? = none) :
    ∃ fault, octets.utf8Fault? = some fault := by
  cases faultless : octets.utf8Fault? with
  | some fault => exact ⟨fault, rfl⟩
  | none =>
    obtain ⟨characters, isText⟩ := exists_characters_of_go (Nat.le_refl _) faultless
    rw [isText, ← ofText_ofList, toText?_ofText] at noText
    cases noText

end Signet.Octets
