import Signet.Proofs.DigestTexts

/-!
# The normal form of digest texts

Many texts are read as the same octets, for line breaks do not count and neither do the spare bits
of the last symbol. Only one of these texts is written: it has no line breaks, and its spare bits
are zero. `normalForm` takes any text to this form without reading it, and `digest_normal_form` says
that reading and writing again does the same.

Both directions are compared by their bits. What is written for octets spells their bits with zeros
behind them up to the next symbol (`exists_spelling_encodeOctets`), and so does the normal form of a
text (`sextetBits_withoutSpareBits`); and places in the alphabet are determined by their bits
(`sextetBits_inj`).
-/

namespace Signet

theorem Octets.ofText_inj {text other : String} (same : ofText text = ofText other) :
    text = other := by
  have texts := congrArg toText? same
  rw [toText?_ofText, toText?_ofText] at texts
  exact Option.some.inj texts

namespace Base64

/-! ## Places -/

theorem symbol_of_lt {place : Nat} (place_lt : place < 64) :
    symbol place ∈ alphabet ∧ alphabet.idxOf (symbol place) = place := by
  have table : ∀ place < 64, symbol place ∈ alphabet ∧
      alphabet.idxOf (symbol place) = place := by
    decide +kernel
  exact table place place_lt

theorem symbol_idxOf {octet : UInt8} (isSymbol : octet ∈ alphabet) :
    symbol (alphabet.idxOf octet) = octet := by
  have table : ∀ octet ∈ alphabet, symbol (alphabet.idxOf octet) = octet := by
    decide +kernel
  exact table octet isSymbol

theorem placesOf_map_symbol {places : List Nat} (bounded : ∀ place ∈ places, place < 64) :
    placesOf (places.map symbol) = places := by
  unfold placesOf
  rw [List.map_map]
  have same : places.map (alphabet.idxOf ∘ symbol) = places.map id :=
    List.map_congr_left fun place isPlace => (symbol_of_lt (bounded place isPlace)).2
  rw [same, List.map_id]

theorem idxOf_lt {octet : UInt8} (isSymbol : octet ∈ alphabet) : alphabet.idxOf octet < 64 := by
  rw [← length_alphabet]
  exact List.idxOf_lt_length_of_mem isSymbol

/-- Symbols are determined by their bits. -/
theorem sextetBits_inj {symbols others : Octets}
    (symbols_mem : ∀ symbol ∈ symbols, symbol ∈ alphabet)
    (others_mem : ∀ other ∈ others, other ∈ alphabet)
    (same : sextetBits (placesOf symbols) = sextetBits (placesOf others)) : symbols = others := by
  induction symbols generalizing others with
  | nil =>
    have lengths := congrArg List.length same
    simp only [length_sextetBits, placesOf, List.length_map, List.length_nil] at lengths
    exact (List.eq_nil_of_length_eq_zero (by omega)).symm
  | cons symbol symbols ih =>
    rcases others with _ | ⟨other, others⟩
    · have lengths := congrArg List.length same
      simp [length_sextetBits, placesOf] at lengths
    have isSymbol : symbol ∈ alphabet := symbols_mem symbol (by simp)
    have isOther : other ∈ alphabet := others_mem other (by simp)
    have split (octet : UInt8) (octets : Octets) : sextetBits (placesOf (octet :: octets)) =
        bitsOf 6 (alphabet.idxOf octet) ++ sextetBits (placesOf octets) := rfl
    rw [split, split] at same
    obtain ⟨first, later⟩ := List.append_inj same (by simp only [length_bitsOf])
    have places : alphabet.idxOf symbol = alphabet.idxOf other :=
      bitsOf_inj (idxOf_lt isSymbol) (idxOf_lt isOther) first
    rw [← symbol_idxOf isSymbol, places, symbol_idxOf isOther,
      ih (fun octet isLater => symbols_mem octet (by simp [isLater]))
        (fun octet isLater => others_mem octet (by simp [isLater])) later]

/-! ## What is written -/

/-- How many pads stand behind the symbols of octets. -/
def padsFor (length : Nat) : Nat :=
  (3 - length % 3) % 3

/-- Three octets are four sextets. -/
theorem sextetBits_group (a b c : UInt8) :
    let group := a.toNat * 65536 + b.toNat * 256 + c.toNat
    sextetBits [group / 262144, group / 4096 % 64, group / 64 % 64, group % 64] =
      Octets.bits [a, b, c] := by
  intro group
  have a_lt := a.toNat_lt
  have b_lt := b.toNat_lt
  have c_lt := c.toNat_lt
  have whole : group / 262144 * 262144 + group / 4096 % 64 * 4096 + group / 64 % 64 * 64 +
      group % 64 = group := by omega
  have first : group / 65536 = a.toNat := by omega
  have second : group / 256 % 256 = b.toNat := by omega
  have third : group % 256 = c.toNat := by omega
  have bits := bits_group (a := group / 262144) (b := group / 4096 % 64) (c := group / 64 % 64)
    (d := group % 64) (by omega) (by omega) (by omega)
  simp only [whole, first, second, third, UInt8.ofNat_toNat] at bits
  exact bits.symm

/-- Two octets are three sextets with two spare bits. -/
theorem sextetBits_group_of_two (a b : UInt8) :
    let group := a.toNat * 1024 + b.toNat * 4
    sextetBits [group / 4096, group / 64 % 64, group % 64] =
      Octets.bits [a, b] ++ [false, false] := by
  intro group
  have a_lt := a.toNat_lt
  have b_lt := b.toNat_lt
  have whole : group / 4096 * 1024 + group / 64 % 64 * 16 + group % 64 / 4 =
      a.toNat * 256 + b.toNat := by omega
  have first : (a.toNat * 256 + b.toNat) / 256 = a.toNat := by omega
  have second : (a.toNat * 256 + b.toNat) % 256 = b.toNat := by omega
  have spare : bitsOf 2 (group % 64) = [false, false] := by
    rw [← bitsOf_mod, show group % 64 % 2 ^ 2 = 0 by omega]
    rfl
  have bits := bits_group_of_three (a := group / 4096) (b := group / 64 % 64) (c := group % 64)
    (by omega) (by omega)
  simp only [whole, first, second, UInt8.ofNat_toNat, spare] at bits
  exact bits.symm

/-- One octet is two sextets with four spare bits. -/
theorem sextetBits_group_of_one (a : UInt8) :
    let group := a.toNat * 16
    sextetBits [group / 64, group % 64] = Octets.bits [a] ++ [false, false, false, false] := by
  intro group
  have a_lt := a.toNat_lt
  have whole : group / 64 * 4 + group % 64 / 16 = a.toNat := by omega
  have spare : bitsOf 4 (group % 64) = [false, false, false, false] := by
    rw [← bitsOf_mod, show group % 64 % 2 ^ 4 = 0 by omega]
    rfl
  have bits := bits_group_of_two (a := group / 64) (b := group % 64) (by omega)
  simp only [whole, UInt8.ofNat_toNat, spare] at bits
  exact bits.symm

/-- Octets are written as sextets with their bits, and with zeros in the spare bits. -/
theorem encodeOnto_eq (written octets : Octets) :
    ∃ places : List Nat, (∀ place ∈ places, place < 64) ∧
      encodeOnto written octets = written.reverse ++
        (places.map symbol ++ List.replicate (padsFor octets.length) pad) ∧
      sextetBits places =
        octets.bits ++ List.replicate (2 * padsFor octets.length) false := by
  fun_induction encodeOnto written octets with
  | case1 written a b c rest group ih =>
    obtain ⟨places, bounded, isWritten, bits⟩ := ih
    have group_bits := sextetBits_group a b c
    have pads : padsFor (a :: b :: c :: rest).length = padsFor rest.length := by
      unfold padsFor
      simp only [List.length_cons]
      omega
    have a_lt := a.toNat_lt
    have b_lt := b.toNat_lt
    have c_lt := c.toNat_lt
    refine ⟨group / 262144 :: group / 4096 % 64 :: group / 64 % 64 :: group % 64 :: places,
      ?_, ?_, ?_⟩
    · simp only [List.forall_mem_cons]
      exact ⟨by omega, by omega, by omega, by omega, bounded⟩
    · rw [isWritten, pads]
      simp
    · have split : sextetBits
          (group / 262144 :: group / 4096 % 64 :: group / 64 % 64 :: group % 64 :: places) =
          sextetBits [group / 262144, group / 4096 % 64, group / 64 % 64, group % 64] ++
            sextetBits places := by
        simp [sextetBits]
      rw [split, group_bits, bits, pads, ← List.append_assoc, ← Octets.bits_append]
      rfl
  | case2 written a b group =>
    have a_lt := a.toNat_lt
    have b_lt := b.toNat_lt
    refine ⟨[group / 4096, group / 64 % 64, group % 64], ?_, ?_, sextetBits_group_of_two a b⟩
    · simp only [List.forall_mem_cons, List.not_mem_nil, false_imp_iff, implies_true, and_true]
      exact ⟨by omega, by omega, by omega⟩
    · simp [padsFor]
  | case3 written a group =>
    have a_lt := a.toNat_lt
    refine ⟨[group / 64, group % 64], ?_, ?_, sextetBits_group_of_one a⟩
    · simp only [List.forall_mem_cons, List.not_mem_nil, false_imp_iff, implies_true, and_true]
      exact ⟨by omega, by omega⟩
    · simp [padsFor]
  | case4 written =>
    exact ⟨[], by simp, by simp [padsFor], by simp [padsFor, sextetBits, Octets.bits_nil]⟩

/-- What is written for octets spells their bits. -/
theorem exists_spelling_encodeOctets (octets : Octets) :
    ∃ symbols, IsSpelling (encodeOctets octets) symbols (padsFor octets.length) ∧
      sextetBits (placesOf symbols) =
        octets.bits ++ List.replicate (2 * padsFor octets.length) false := by
  obtain ⟨places, bounded, isWritten, bits⟩ := encodeOnto_eq [] octets
  refine ⟨places.map symbol, ⟨isWritten, fun octet isHere => ?_⟩, ?_⟩
  · obtain ⟨place, isPlace, rfl⟩ := List.mem_map.mp isHere
    exact (symbol_of_lt (bounded place isPlace)).1
  · rw [placesOf_map_symbol bounded]
    exact bits

theorem mem_encodeOctets {octets : Octets} {octet : UInt8}
    (isHere : octet ∈ encodeOctets octets) : octet ∈ alphabet ∨ octet = pad := by
  obtain ⟨symbols, spelling, -⟩ := exists_spelling_encodeOctets octets
  rw [spelling.spells, List.mem_append] at isHere
  exact isHere.imp (spelling.symbols_mem octet) List.eq_of_mem_replicate

/-- What is written is read back. -/
theorem decodeOctets_encodeOctets (octets : Octets) :
    decodeOctets (encodeOctets octets) = .ok octets := by
  obtain ⟨symbols, spelling, bits⟩ := exists_spelling_encodeOctets octets
  have lengths := congrArg List.length bits
  have length := spelling.length
  simp only [length_sextetBits, placesOf, List.length_map, List.length_append,
    List.length_replicate, Octets.length_bits] at lengths
  have few : padsFor octets.length ≤ 2 := by
    unfold padsFor
    omega
  have filled : 8 * (3 * (encodeOctets octets).length / 4 - padsFor octets.length) =
      octets.bits.length := by
    rw [Octets.length_bits]
    omega
  refine decodeOctets_eq_ok_iff.mpr ⟨by omega, symbols, _, few, spelling, ?_⟩
  rw [bits, filled, List.take_left]

/-! ## Written texts -/

theorem lt_of_alphabet_or_pad {octet : UInt8} (isHere : octet ∈ alphabet ∨ octet = pad) :
    octet.toNat < 128 ∧ isLineBreak octet = false := by
  have table : ∀ octet ∈ pad :: alphabet, octet.toNat < 128 ∧ isLineBreak octet = false := by
    decide +kernel
  exact table octet (List.mem_cons.mpr isHere.symm)

/-- A written text is the octets that are written. -/
theorem ofText_encode (octets : Octets) : Octets.ofText (encode octets) = encodeOctets octets := by
  have isAscii : ∀ octet ∈ encodeOctets octets,
      String.utf8EncodeChar (Char.ofNat octet.toNat) = [octet] := by
    intro octet isHere
    have octet_lt := (lt_of_alphabet_or_pad (mem_encodeOctets isHere)).1
    have isValid : octet.toNat.isValidChar := Or.inl (by omega)
    have number : (Char.ofNat octet.toNat).toNat = octet.toNat := by
      rw [Char.ofNat, dif_pos isValid]
      rfl
    rw [Octets.utf8EncodeChar_of_lt (by omega), number, UInt8.ofNat_toNat]
  unfold encode
  rw [Octets.ofText_ofList, List.flatMap_map, List.flatMap_def, List.map_congr_left isAscii,
    ← List.flatMap_def, List.flatMap_singleton']

/-- Line breaks are not written. -/
theorem withoutLineBreaks_encode (octets : Octets) :
    withoutLineBreaks (encode octets) = encode octets := by
  apply Octets.ofText_inj
  rw [← filter_ofText, ofText_encode, List.filter_eq_self]
  intro octet isHere
  rw [(lt_of_alphabet_or_pad (mem_encodeOctets isHere)).2]
  rfl

/-- That characters are others with line breaks put in, at any places. -/
inductive Breaks : (characters broken : List Char) → Prop
  | nil : Breaks [] []
  | keep {c : Char} {characters broken : List Char} :
    Breaks characters broken → Breaks (c :: characters) (c :: broken)
  | insert {c : Char} {characters broken : List Char} :
    c = '\r' ∨ c = '\n' → Breaks characters broken → Breaks characters (c :: broken)

theorem Breaks.refl (characters : List Char) : Breaks characters characters := by
  induction characters with
  | nil => exact .nil
  | cons c characters ih => exact .keep ih

theorem Breaks.append {characters broken others brokenOthers : List Char}
    (breaks : Breaks characters broken) (more : Breaks others brokenOthers) :
    Breaks (characters ++ others) (broken ++ brokenOthers) := by
  induction breaks with
  | nil => exact more
  | keep _ ih => exact .keep ih
  | insert isBreak _ ih => exact .insert isBreak ih

theorem Breaks.withoutLineBreaks_eq {text broken : String}
    (breaks : Breaks text.toList broken.toList) :
    withoutLineBreaks broken = withoutLineBreaks text := by
  have filtered {characters broken : List Char} (breaks : Breaks characters broken) :
      broken.filter (fun c => c ≠ '\r' ∧ c ≠ '\n') =
        characters.filter fun c => c ≠ '\r' ∧ c ≠ '\n' := by
    induction breaks with
    | nil => rfl
    | keep _ ih => rw [List.filter_cons, List.filter_cons, ih]
    | insert isBreak _ ih =>
      rw [List.filter_cons, ih]
      rcases isBreak with rfl | rfl <;> rfl
  unfold withoutLineBreaks
  rw [filtered breaks]

/-! ## Spare bits -/

/-- Symbols of which the last has zeros in its spare bits, two for each pad. -/
def withoutSpareBits (pads : Nat) : Octets → Octets
  | [] => []
  | [last] => [symbol (alphabet.idxOf last / 4 ^ pads * 4 ^ pads)]
  | first :: second :: rest => first :: withoutSpareBits pads (second :: rest)

/-- A text without its line breaks, and with zeros in the spare bits of its last symbol. -/
def normalForm (text : String) : Octets :=
  let octets := Octets.ofText (withoutLineBreaks text)
  let symbols := octets.takeWhile (· ≠ pad)
  let pads := octets.dropWhile (· ≠ pad)
  withoutSpareBits pads.length symbols ++ pads

theorem bitsOf_clear {width below number : Nat} (inside : below ≤ width) :
    bitsOf width (number / 2 ^ below * 2 ^ below) =
      (bitsOf width number).take (width - below) ++ List.replicate below false := by
  obtain ⟨above, rfl⟩ := Nat.exists_eq_add_of_le' inside
  have zeros : bitsOf below (number / 2 ^ below * 2 ^ below) = List.replicate below false := by
    have zero := bitsOf_mul_add below (number / 2 ^ below) 0
    rw [Nat.add_zero] at zero
    rw [zero, List.eq_replicate_iff]
    exact ⟨length_bitsOf below 0, by simp [bitsOf]⟩
  rw [bitsOf_add, bitsOf_add, Nat.mul_div_cancel _ (Nat.two_pow_pos below), zeros,
    Nat.add_sub_cancel, List.take_left' (length_bitsOf above _)]

section SpareBits

variable {pads : Nat} {symbols : Octets}

theorem clear_lt {octet : UInt8} (isSymbol : octet ∈ alphabet) :
    alphabet.idxOf octet / 4 ^ pads * 4 ^ pads < 64 :=
  Nat.lt_of_le_of_lt (Nat.div_mul_le_self _ _) (idxOf_lt isSymbol)

theorem mem_withoutSpareBits (symbols_mem : ∀ symbol ∈ symbols, symbol ∈ alphabet) :
    ∀ symbol ∈ withoutSpareBits pads symbols, symbol ∈ alphabet := by
  fun_induction withoutSpareBits pads symbols with
  | case1 => simp
  | case2 last =>
    intro symbol isHere
    rw [List.mem_singleton.mp isHere]
    exact (symbol_of_lt (clear_lt (symbols_mem last (by simp)))).1
  | case3 first second rest ih =>
    intro symbol isHere
    rcases List.mem_cons.mp isHere with rfl | isLater
    · exact symbols_mem _ (by simp)
    · exact ih (fun other isOther => symbols_mem other (by simp [isOther])) symbol isLater

/-- Only the spare bits of symbols change. -/
theorem sextetBits_withoutSpareBits (few : pads ≤ 2)
    (symbols_mem : ∀ symbol ∈ symbols, symbol ∈ alphabet) (nonempty : symbols ≠ []) :
    sextetBits (placesOf (withoutSpareBits pads symbols)) =
      (sextetBits (placesOf symbols)).take (6 * symbols.length - 2 * pads) ++
        List.replicate (2 * pads) false := by
  have split (octet : UInt8) (octets : Octets) : sextetBits (placesOf (octet :: octets)) =
      bitsOf 6 (alphabet.idxOf octet) ++ sextetBits (placesOf octets) := rfl
  fun_induction withoutSpareBits pads symbols with
  | case1 => exact absurd rfl nonempty
  | case2 last =>
    have power : 4 ^ pads = 2 ^ (2 * pads) := by
      rw [Nat.pow_mul]
    have fits : alphabet.idxOf last / 4 ^ pads * 4 ^ pads < 64 :=
      clear_lt (symbols_mem last (by simp))
    have place := (symbol_of_lt fits).2
    rw [split, split, place, power, bitsOf_clear (by omega)]
    simp [placesOf, sextetBits]
  | case3 first second rest ih =>
    have later := ih (fun other isOther => symbols_mem other (by simp [isOther])) (by simp)
    have length : 6 * (first :: second :: rest).length - 2 * pads =
        (bitsOf 6 (alphabet.idxOf first)).length + (6 * (second :: rest).length - 2 * pads) := by
      simp only [length_bitsOf, List.length_cons]
      omega
    rw [split, split, later, length, List.take_length_add_append, List.append_assoc]

end SpareBits

/-- The normal form of a text that spells symbols is what is written for the octets that the text is
read as. -/
theorem IsSpelling.encodeOctets_eq {octets symbols digest : Octets} {pads : Nat}
    (spelling : IsSpelling octets symbols pads) (few : pads ≤ 2) (isWhole : octets.length % 4 = 0)
    (bits : digest.bits =
      (sextetBits (placesOf symbols)).take (8 * (3 * octets.length / 4 - pads))) :
    encodeOctets digest = withoutSpareBits pads symbols ++ List.replicate pads pad := by
  obtain ⟨others, written, writtenBits⟩ := exists_spelling_encodeOctets digest
  have length := spelling.length
  have lengths := congrArg List.length bits
  simp only [Octets.length_bits, List.length_take, length_sextetBits, placesOf,
    List.length_map] at lengths
  have samePads : padsFor digest.length = pads := by
    unfold padsFor
    omega
  rw [samePads] at written writtenBits
  rw [written.spells]
  by_cases nonempty : symbols = []
  · subst nonempty
    simp only [List.length_nil] at length lengths
    have noPads : pads = 0 := by omega
    subst noPads
    have isEmpty : digest = [] := List.eq_nil_of_length_eq_zero (by omega)
    subst isEmpty
    have noBits := congrArg List.length writtenBits
    simp only [length_sextetBits, placesOf, List.length_map, Octets.bits_nil, List.nil_append,
      List.length_replicate] at noBits
    have noSymbols : others = [] := List.eq_nil_of_length_eq_zero (by omega)
    rw [noSymbols]
    rfl
  · have same : sextetBits (placesOf others) =
        sextetBits (placesOf (withoutSpareBits pads symbols)) := by
      rw [writtenBits, bits, sextetBits_withoutSpareBits few spelling.symbols_mem nonempty]
      congr 2
      omega
    rw [sextetBits_inj written.symbols_mem (mem_withoutSpareBits spelling.symbols_mem) same]

theorem IsSpelling.normalForm_eq {text : String} {symbols : Octets} {pads : Nat}
    (spelling : IsSpelling (Octets.ofText (withoutLineBreaks text)) symbols pads) :
    normalForm text = withoutSpareBits pads symbols ++ List.replicate pads pad := by
  have noPad : ∀ symbol ∈ symbols, symbol ≠ pad := by
    rintro symbol isHere rfl
    exact pad_not_mem_alphabet (spelling.symbols_mem _ isHere)
  have front : (symbols ++ List.replicate pads pad).takeWhile (· ≠ pad) = symbols := by
    rw [List.takeWhile_append_of_pos (by simpa using noPad)]
    cases pads <;> simp [List.replicate_succ]
  have behind : (symbols ++ List.replicate pads pad).dropWhile (· ≠ pad) =
      List.replicate pads pad := by
    rw [List.dropWhile_append_of_pos (by simpa using noPad)]
    cases pads <;> simp [List.replicate_succ]
  unfold normalForm
  dsimp only
  rw [spelling.spells, front, behind, List.length_replicate]

/-- To read a text and to write again takes it to its normal form. -/
theorem ofText_encode_of_decode {text : String} {digest : Octets}
    (decoded : decode text = .ok digest) : Octets.ofText (encode digest) = normalForm text := by
  rw [decode_eq] at decoded
  obtain ⟨isWhole, symbols, pads, few, spelling, bits⟩ := decodeOctets_eq_ok_iff.mp decoded
  rw [ofText_encode, spelling.encodeOctets_eq few isWhole bits, spelling.normalForm_eq]

theorem decode_encode (octets : Octets) : decode (encode octets) = .ok octets := by
  rw [decode_eq, withoutLineBreaks_encode, ofText_encode, decodeOctets_encodeOctets]

/-- What is written is read back, wherever line breaks are put in. -/
theorem decode_of_breaks {octets : Octets} {broken : String}
    (breaks : Breaks (encode octets).toList broken.toList) : decode broken = .ok octets := by
  rw [decode_eq, breaks.withoutLineBreaks_eq, ← decode_eq, decode_encode]

/-- **The normal form of digest texts.** What is written for octets is read back as these octets,
wherever line breaks are put in. A text that can be read is written again in its normal form:
without line breaks, and with zeros in the spare bits of its last symbol. So two texts are read as
the same octets if and only if they have the same normal form, and just the texts that are written
for some octets are written again as they are. -/
theorem digest_normal_form (octets : Octets) (text other : String) :
    (∀ broken : String, Breaks (encode octets).toList broken.toList →
      decode broken = .ok octets) ∧
    (∀ digest, decode text = .ok digest → Octets.ofText (encode digest) = normalForm text) ∧
    (∀ digest otherDigest, decode text = .ok digest → decode other = .ok otherDigest →
      (digest = otherDigest ↔ normalForm text = normalForm other)) ∧
    ((∃ digest, decode text = .ok digest ∧ encode digest = text) ↔
      ∃ digest, encode digest = text) := by
  refine ⟨fun broken => decode_of_breaks, fun digest => ofText_encode_of_decode,
    fun digest otherDigest decoded otherDecoded => ⟨?_, fun same => ?_⟩, ?_⟩
  · rintro rfl
    rw [← ofText_encode_of_decode decoded, ofText_encode_of_decode otherDecoded]
  · rw [← ofText_encode_of_decode decoded, ← ofText_encode_of_decode otherDecoded] at same
    have written : encode digest = encode otherDigest := Octets.ofText_inj same
    have read := decode_encode digest
    rw [written, decode_encode] at read
    exact (Except.ok.inj read).symm
  · refine ⟨fun ⟨digest, _, written⟩ => ⟨digest, written⟩,
      fun ⟨digest, written⟩ => ?_⟩
    exact ⟨digest, written ▸ decode_encode digest, written⟩

/-- A text with a line break and with spare bits that are not zero is written again without them. -/
theorem digest_normal_form_of_two_octets :
    decode "3q3=" = .ok [0xDE, 0xAD] ∧ decode "3\r\nq0=" = .ok [0xDE, 0xAD] ∧
      normalForm "3q3=" = normalForm "3\r\nq0=" ∧
      Octets.ofText (encode [0xDE, 0xAD]) = normalForm "3q3=" := by
  have decoded : decode "3q3=" = .ok [0xDE, 0xAD] := rfl
  have written : (encode [0xDE, 0xAD]).toList = ['3', 'q', '0', '='] := by decide +kernel
  have breaks : Breaks (encode [0xDE, 0xAD]).toList "3\r\nq0=".toList := by
    rw [written]
    exact .keep (.insert (.inl rfl) (.insert (.inr rfl) (.keep (.keep (.keep .nil)))))
  obtain ⟨readBack, normal, same, -⟩ := digest_normal_form [0xDE, 0xAD] "3q3=" "3\r\nq0="
  have broken := readBack _ breaks
  exact ⟨decoded, broken, (same _ _ decoded broken).mp rfl, normal _ decoded⟩

end Base64

end Signet
