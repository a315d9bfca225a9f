import Signet.Base64
import Signet.Proofs.Bits
import Signet.Proofs.Utf8

/-!
# The grammar of digest texts

A digest text is read without its line breaks. What is left must be symbols of the alphabet with at
most two pads behind them, in whole groups of four, and then stands for the bits of the symbols, cut
down to the octets that the groups hold. `Verdict` lists what else can be found, in the order in
which it is looked for, and every string of octets has its verdict (`decodeOctets_verdict`). What
decoding answers is settled for each of them, so the verdicts exclude each other, and
`digest_text_grammar` reads off when each fault is reported.
-/

namespace Signet

namespace Base64

/-! ## Symbols -/

/-- The sixty-four symbols, each at the place that it stands for: capital letters, small letters,
digits, `+` and `/`. -/
def alphabet : Octets :=
  (List.range' 65 26 ++ List.range' 97 26 ++ List.range' 48 10 ++ [43, 47]).map UInt8.ofNat

example :
    "ABCDEFGHIJKLMNOPQRSTUVWXYZabcdefghijklmnopqrstuvwxyz0123456789+/".toList.map
      (fun c => UInt8.ofNat c.toNat) = alphabet := by
  decide +kernel

theorem length_alphabet : alphabet.length = 64 := by
  simp [alphabet]

theorem getElem?_of_sextet? {octet : UInt8} {place : Nat} (read : sextet? octet = some place) :
    alphabet[place]? = some octet := by
  have table : ∀ octet, ∀ place ∈ sextet? octet, alphabet[place]? = some octet :=
    Octets.forall_of_table (by decide +kernel)
  exact table octet place read

theorem sextet?_of_getElem? {octet : UInt8} {place : Nat} (stands : alphabet[place]? = some octet) :
    sextet? octet = some place := by
  have table : ∀ place < 64, ∀ octet ∈ alphabet[place]?, sextet? octet = some place := by
    decide +kernel
  have place_lt : place < alphabet.length := (List.getElem?_eq_some_iff.mp stands).1
  rw [length_alphabet] at place_lt
  exact table place place_lt octet stands

theorem sextet?_of_mem {octet : UInt8} (isSymbol : octet ∈ alphabet) :
    sextet? octet = some (alphabet.idxOf octet) := by
  have place_lt := List.idxOf_lt_length_of_mem isSymbol
  exact sextet?_of_getElem?
    (List.getElem?_eq_some_iff.mpr ⟨place_lt, List.getElem_idxOf place_lt⟩)

theorem sextet?_of_not_mem {octet : UInt8} (noSymbol : octet ∉ alphabet) :
    sextet? octet = none := by
  cases read : sextet? octet with
  | none => rfl
  | some place => exact absurd (List.mem_of_getElem? (getElem?_of_sextet? read)) noSymbol

theorem pad_not_mem_alphabet : pad ∉ alphabet := by decide +kernel

/-- The places of symbols in the alphabet. -/
def placesOf (symbols : Octets) : List Nat :=
  symbols.map alphabet.idxOf

/-- That octets are symbols with some pads behind them. -/
structure IsSpelling (octets symbols : Octets) (pads : Nat) : Prop where
  spells : octets = symbols ++ List.replicate pads pad
  symbols_mem : ∀ symbol ∈ symbols, symbol ∈ alphabet

/-! ## The symbols at the front -/

/-- Symbols are split off up to the first octet that is none. -/
theorem spanSymbols_append {symbols rest : Octets} (places : List Nat)
    (symbols_mem : ∀ symbol ∈ symbols, symbol ∈ alphabet)
    (stops : ∀ octet ∈ rest.head?, octet ∉ alphabet) :
    spanSymbols places (symbols ++ rest) = (places.reverse ++ placesOf symbols, rest) := by
  induction symbols generalizing places with
  | nil =>
    cases rest with
    | nil => simp [spanSymbols, placesOf]
    | cons octet rest =>
      have unread : sextet? octet = none := sextet?_of_not_mem (stops octet rfl)
      simp [spanSymbols, placesOf, unread]
  | cons symbol symbols ih =>
    have read := sextet?_of_mem (symbols_mem symbol (by simp))
    have later := ih (alphabet.idxOf symbol :: places) fun other isLater =>
      symbols_mem other (by simp [isLater])
    simp only [List.cons_append, spanSymbols, read, later, placesOf, List.map_cons,
      List.reverse_cons, List.append_assoc, List.nil_append]

/-- All octets are symbols up to the first that is none. -/
theorem exists_symbols (octets : Octets) :
    ∃ symbols rest, octets = symbols ++ rest ∧ (∀ symbol ∈ symbols, symbol ∈ alphabet) ∧
      ∀ octet ∈ rest.head?, octet ∉ alphabet := by
  induction octets with
  | nil => exact ⟨[], [], rfl, by simp, by simp⟩
  | cons octet octets ih =>
    by_cases isSymbol : octet ∈ alphabet
    · obtain ⟨symbols, rest, rfl, symbols_mem, stops⟩ := ih
      refine ⟨octet :: symbols, rest, rfl, fun symbol isHere => ?_, stops⟩
      rcases List.mem_cons.mp isHere with rfl | isLater
      · exact isSymbol
      · exact symbols_mem symbol isLater
    · refine ⟨[], octet :: octets, rfl, by simp, fun first isFirst => ?_⟩
      cases isFirst
      exact isSymbol

theorem IsSpelling.spanSymbols {octets symbols : Octets} {pads : Nat}
    (spelling : IsSpelling octets symbols pads) :
    spanSymbols [] octets = (placesOf symbols, List.replicate pads pad) := by
  rw [spelling.spells]
  refine spanSymbols_append [] spelling.symbols_mem fun octet isFirst => ?_
  have isPad : octet = pad := List.eq_of_mem_replicate (List.mem_of_mem_head? isFirst)
  rw [isPad]
  exact pad_not_mem_alphabet

theorem IsSpelling.length {octets symbols : Octets} {pads : Nat}
    (spelling : IsSpelling octets symbols pads) : octets.length = symbols.length + pads := by
  rw [spelling.spells, List.length_append, List.length_replicate]

/-! ## What octets are answered with -/

section Cases

variable {octets symbols : Octets} {pads : Nat}

theorem decodeOctets_of_overhang (overhangs : octets.length % 4 = 1) :
    decodeOctets octets = .error (overhangFault octets) :=
  if_pos overhangs

/-- Where there are only symbols, their last group has to be full. -/
theorem decodeOctets_of_symbols (noOverhang : octets.length % 4 ≠ 1)
    (split : Base64.spanSymbols [] octets = (placesOf symbols, [])) :
    decodeOctets octets =
      if symbols.length % 4 = 0 then .ok (packOnto [] (placesOf symbols))
      else .error .invalidPadding := by
  have places : (placesOf symbols).length = symbols.length := List.length_map _
  unfold decodeOctets
  rw [if_neg noOverhang, split]
  dsimp only
  rw [places]

/-- Behind symbols there may only be pads that fill up their last group. -/
theorem decodeOctets_of_rest {octet : UInt8} {rest : Octets} (noOverhang : octets.length % 4 ≠ 1)
    (split : Base64.spanSymbols [] octets = (placesOf symbols, octet :: rest)) :
    decodeOctets octets =
      if 2 ≤ symbols.length % 4 ∧ symbols.length % 4 + (octet :: rest).length ≤ 4 ∧
          (octet :: rest).all (· == pad) then
        if symbols.length % 4 + (octet :: rest).length = 4 then .ok (packOnto [] (placesOf symbols))
        else .error .invalidPadding
      else .error (.invalidByte symbols.length octet) := by
  have places : (placesOf symbols).length = symbols.length := List.length_map _
  unfold decodeOctets
  rw [if_neg noOverhang, split]
  dsimp only
  rw [places]

/-- Pads that fit into the last group are taken as its end. -/
theorem decodeOctets_of_pads (spelling : IsSpelling octets symbols (pads + 1))
    (twoAtLeast : 2 ≤ symbols.length % 4) (fits : symbols.length % 4 + (pads + 1) ≤ 4) :
    decodeOctets octets =
      if symbols.length % 4 + (pads + 1) = 4 then .ok (packOnto [] (placesOf symbols))
      else .error .invalidPadding := by
  have length := spelling.length
  have split := spelling.spanSymbols
  rw [List.replicate_succ] at split
  have padding : 2 ≤ symbols.length % 4 ∧
      symbols.length % 4 + (pad :: List.replicate pads pad).length ≤ 4 ∧
      (pad :: List.replicate pads pad).all (· == pad) := by
    simp
    omega
  rw [decodeOctets_of_rest (by omega) split, if_pos padding, List.length_cons,
    List.length_replicate]

theorem decodeOctets_of_whole (spelling : IsSpelling octets symbols pads) (few : pads ≤ 2)
    (isWhole : octets.length % 4 = 0) :
    decodeOctets octets = .ok (packOnto [] (placesOf symbols)) := by
  have length := spelling.length
  cases pads with
  | zero =>
    rw [decodeOctets_of_symbols (by omega) spelling.spanSymbols]
    exact if_pos (by omega)
  | succ pads =>
    rw [decodeOctets_of_pads spelling (by omega) (by omega)]
    exact if_pos (by omega)

theorem decodeOctets_of_unpadded (spelling : IsSpelling octets symbols pads)
    (twoAtLeast : 2 ≤ symbols.length % 4) (isOpen : symbols.length % 4 + pads < 4) :
    decodeOctets octets = .error .invalidPadding := by
  have length := spelling.length
  cases pads with
  | zero =>
    rw [decodeOctets_of_symbols (by omega) spelling.spanSymbols]
    exact if_neg (by omega)
  | succ pads =>
    rw [decodeOctets_of_pads spelling twoAtLeast (by omega)]
    exact if_neg (by omega)

end Cases

/-- What octets without line breaks can come to. -/
inductive Verdict (octets : Octets) : Except DecodingFault Octets → Prop
  | whole {symbols : Octets} {pads : Nat} : IsSpelling octets symbols pads → pads ≤ 2 →
    octets.length % 4 = 0 → Verdict octets (.ok (packOnto [] (placesOf symbols)))
  | unpadded {symbols : Octets} {pads : Nat} : IsSpelling octets symbols pads →
    2 ≤ symbols.length % 4 → symbols.length % 4 + pads < 4 →
    Verdict octets (.error .invalidPadding)
  | overhang {last : UInt8} : octets.length % 4 = 1 → last ∈ octets.getLast? →
    last ∈ alphabet ∨ last = pad → Verdict octets (.error .invalidLength)
  | stray {offset : Nat} {octet : UInt8} : octets[offset]? = some octet → octet ∉ alphabet →
    Verdict octets (.error (.invalidByte offset octet))

theorem overhangFault_of_fitting {octets : Octets} {last : UInt8} (ends : last ∈ octets.getLast?)
    (fits : last ∈ alphabet ∨ last = pad) : overhangFault octets = .invalidLength := by
  unfold overhangFault
  rw [ends]
  refine if_neg fun isStray => ?_
  rcases fits with isSymbol | isPad
  · exact nomatch isStray.2.symm.trans (sextet?_of_mem isSymbol)
  · exact isStray.1 isPad

theorem overhangFault_of_stray {octets : Octets} {last : UInt8} (ends : last ∈ octets.getLast?)
    (noSymbol : last ∉ alphabet) (noPad : last ≠ pad) :
    overhangFault octets = .invalidByte (octets.length - 1) last := by
  unfold overhangFault
  rw [ends]
  exact if_pos ⟨noPad, sextet?_of_not_mem noSymbol⟩

/-- Octets of which one is left over behind the groups have a verdict. -/
theorem overhangFault_verdict {octets : Octets} (overhangs : octets.length % 4 = 1) :
    Verdict octets (.error (overhangFault octets)) := by
  have nonempty : octets ≠ [] := by
    rintro rfl
    cases overhangs
  have ends : octets.getLast nonempty ∈ octets.getLast? := List.getLast?_eq_some_getLast nonempty
  by_cases fits : octets.getLast nonempty ∈ alphabet ∨ octets.getLast nonempty = pad
  · rw [overhangFault_of_fitting ends fits]
    exact .overhang overhangs ends fits
  · obtain ⟨noSymbol, noPad⟩ := not_or.mp fits
    rw [overhangFault_of_stray ends noSymbol noPad]
    exact .stray (by rw [← List.getLast?_eq_getElem?]; exact ends) noSymbol

/-- Every string of octets has a verdict. -/
theorem decodeOctets_verdict (octets : Octets) : Verdict octets (decodeOctets octets) := by
  by_cases overhangs : octets.length % 4 = 1
  · rw [decodeOctets_of_overhang overhangs]
    exact overhangFault_verdict overhangs
  obtain ⟨symbols, rest, spells, symbols_mem, stops⟩ := exists_symbols octets
  have split : Base64.spanSymbols [] octets = (placesOf symbols, rest) := by
    rw [spells]
    exact spanSymbols_append [] symbols_mem stops
  cases rest with
  | nil =>
    have spelling : IsSpelling octets symbols 0 := ⟨spells, symbols_mem⟩
    have length := spelling.length
    rw [decodeOctets_of_symbols overhangs split]
    split
    next isWhole => exact .whole spelling (by omega) (by omega)
    next isOpen => exact .unpadded spelling (by omega) (by omega)
  | cons octet rest =>
    rw [decodeOctets_of_rest overhangs split]
    split
    next isPadding =>
      obtain ⟨twoAtLeast, fits, allPads⟩ := isPadding
      have pads : octet :: rest = List.replicate (octet :: rest).length pad :=
        List.eq_replicate_iff.mpr ⟨rfl, fun other isHere =>
          eq_of_beq (List.all_eq_true.mp allPads other isHere)⟩
      have spelling : IsSpelling octets symbols (octet :: rest).length :=
        ⟨by rw [spells, ← pads], symbols_mem⟩
      have length := spelling.length
      split
      next isWhole => exact .whole spelling (by omega) (by omega)
      next isOpen => exact .unpadded spelling twoAtLeast (by omega)
    next isStray =>
      refine .stray ?_ (stops octet rfl)
      rw [spells, List.getElem?_append_right (Nat.le_refl _), Nat.sub_self]
      rfl

/-! ## Groups -/

/-- The bits that sextets stand for, one sextet behind the other. -/
def sextetBits (sextets : List Nat) : List Bool :=
  sextets.flatMap (bitsOf 6)

theorem length_sextetBits (sextets : List Nat) :
    (sextetBits sextets).length = 6 * sextets.length := by
  induction sextets with
  | nil => rfl
  | cons sextet sextets ih =>
    have split : sextetBits (sextet :: sextets) = bitsOf 6 sextet ++ sextetBits sextets := rfl
    rw [split, List.length_append, length_bitsOf, ih, List.length_cons]
    omega

/-- Four sextets are three octets. -/
theorem bits_group {a b c d : Nat} (b_lt : b < 64) (c_lt : c < 64) (d_lt : d < 64) :
    let group := a * 262144 + b * 4096 + c * 64 + d
    Octets.bits [UInt8.ofNat (group / 65536), UInt8.ofNat (group / 256 % 256),
      UInt8.ofNat (group % 256)] = sextetBits [a, b, c, d] := by
  intro group
  have octets : bitsOf 24 group =
      bitsOf 8 (group / 65536) ++ (bitsOf 8 (group / 256 % 256) ++ bitsOf 8 (group % 256)) := by
    have octet : 256 = 2 ^ 8 := rfl
    have twoOctets : 65536 = 2 ^ 16 := rfl
    rw [octet, twoOctets, bitsOf_mod, bitsOf_mod, bitsOf_add 8 16, bitsOf_add 8 8]
  have first : group / 2 ^ 18 = a := by omega
  have second : group / 2 ^ 12 = a * 2 ^ 6 + b := by omega
  have third : group / 2 ^ 6 = (a * 64 + b) * 2 ^ 6 + c := by omega
  have fourth : bitsOf 6 group = bitsOf 6 d := by
    rw [show group = (a * 4096 + b * 64 + c) * 2 ^ 6 + d by omega, bitsOf_mul_add]
  have sextets : bitsOf 24 group =
      bitsOf 6 a ++ (bitsOf 6 b ++ (bitsOf 6 c ++ bitsOf 6 d)) := by
    rw [bitsOf_add 6 18, bitsOf_add 6 12, bitsOf_add 6 6, first, second, third, fourth,
      bitsOf_mul_add, bitsOf_mul_add]
  simp only [Octets.bits_cons, Octets.bits_nil, Octets.bitsOf_ofNat, List.append_nil]
  rw [← octets, sextets]
  simp [sextetBits]

/-- Three sextets are two octets and two bits more. -/
theorem bits_group_of_three {a b c : Nat} (b_lt : b < 64) (c_lt : c < 64) :
    let group := a * 1024 + b * 16 + c / 4
    Octets.bits [UInt8.ofNat (group / 256), UInt8.ofNat (group % 256)] ++ bitsOf 2 c =
      sextetBits [a, b, c] := by
  intro group
  have octets : bitsOf 16 group = bitsOf 8 (group / 256) ++ bitsOf 8 (group % 256) := by
    have octet : 256 = 2 ^ 8 := rfl
    rw [octet, bitsOf_mod, bitsOf_add 8 8]
  have first : group / 2 ^ 10 = a := by omega
  have second : group / 2 ^ 4 = a * 2 ^ 6 + b := by omega
  have third : bitsOf 4 group = bitsOf 4 (c / 2 ^ 2) := by
    rw [show group = (a * 64 + b) * 2 ^ 4 + c / 2 ^ 2 by omega, bitsOf_mul_add]
  have sextets : bitsOf 16 group = bitsOf 6 a ++ (bitsOf 6 b ++ bitsOf 4 (c / 2 ^ 2)) := by
    rw [bitsOf_add 6 10, bitsOf_add 6 4, first, second, third, bitsOf_mul_add]
  simp only [Octets.bits_cons, Octets.bits_nil, Octets.bitsOf_ofNat, List.append_nil]
  rw [← octets, sextets]
  simp [sextetBits, bitsOf_add 4 2 c]

/-- Two sextets are an octet and four bits more. -/
theorem bits_group_of_two {a b : Nat} (b_lt : b < 64) :
    Octets.bits [UInt8.ofNat (a * 4 + b / 16)] ++ bitsOf 4 b = sextetBits [a, b] := by
  have first : (a * 4 + b / 16) / 2 ^ 2 = a := by omega
  have second : bitsOf 2 (a * 4 + b / 16) = bitsOf 2 (b / 2 ^ 4) := by
    rw [show a * 4 + b / 16 = a * 2 ^ 2 + b / 2 ^ 4 by omega, bitsOf_mul_add]
  have sextets : bitsOf 8 (a * 4 + b / 16) = bitsOf 6 a ++ bitsOf 2 (b / 2 ^ 4) := by
    rw [bitsOf_add 6 2, first, second]
  simp only [Octets.bits_cons, Octets.bits_nil, Octets.bitsOf_ofNat, List.append_nil]
  rw [sextets]
  simp [sextetBits, bitsOf_add 2 4 b]

/-- Packing keeps the bits of sextets, up to the last octet that they fill. -/
theorem bits_packOnto (written : Octets) (sextets : List Nat)
    (bounded : ∀ sextet ∈ sextets, sextet < 64) :
    (packOnto written sextets).bits =
      Octets.bits written.reverse ++
        (sextetBits sextets).take (8 * (6 * sextets.length / 8)) := by
  fun_induction packOnto written sextets with
  | case1 written a b c d rest group ih =>
    have group_bits := bits_group (a := a) (bounded b (by simp)) (bounded c (by simp))
      (bounded d (by simp))
    have split : sextetBits (a :: b :: c :: d :: rest) =
        sextetBits [a, b, c, d] ++ sextetBits rest := by
      simp [sextetBits]
    have length : 8 * (6 * (a :: b :: c :: d :: rest).length / 8) =
        (sextetBits [a, b, c, d]).length + 8 * (6 * rest.length / 8) := by
      simp only [length_sextetBits, List.length_cons, List.length_nil]
      omega
    have rest_bits := ih fun sextet isLater => bounded sextet (by simp [isLater])
    rw [rest_bits, split, length, List.take_length_add_append, ← group_bits,
      ← List.append_assoc, ← Octets.bits_append]
    simp [group]
  | case2 written a b c group =>
    have group_bits := bits_group_of_three (a := a) (bounded b (by simp)) (bounded c (by simp))
    rw [← group_bits, List.take_left' (by simp [Octets.length_bits]), ← Octets.bits_append]
    simp [group]
  | case3 written a b =>
    have group_bits := bits_group_of_two (a := a) (bounded b (by simp))
    rw [← group_bits, List.take_left' (by simp [Octets.length_bits]), ← Octets.bits_append]
    simp
  | case4 sextets written notFour notThree notTwo =>
    -- At most one sextet is left, which fills no octet.
    rcases sextets with _ | ⟨a, _ | ⟨b, _ | ⟨c, _ | ⟨d, rest⟩⟩⟩⟩
    · simp
    · simp
    · exact absurd rfl (notTwo a b)
    · exact absurd rfl (notThree a b c)
    · exact absurd rfl (notFour a b c d rest)

/-! ## Line breaks -/

/-- A text without its line breaks. -/
def withoutLineBreaks (text : String) : String :=
  String.ofList (text.toList.filter fun c => c ≠ '\r' ∧ c ≠ '\n')

/-- The octets of a character are skipped if it is a line break, and are all kept otherwise. -/
theorem filter_utf8EncodeChar (c : Char) :
    (String.utf8EncodeChar c).filter (fun octet => !isLineBreak octet) =
      if c ≠ '\r' ∧ c ≠ '\n' then String.utf8EncodeChar c else [] := by
  by_cases isReturn : c = '\r'
  · subst isReturn
    decide
  by_cases isFeed : c = '\n'
  · subst isFeed
    decide
  rw [if_pos ⟨isReturn, isFeed⟩, List.filter_eq_self]
  intro octet isPart
  have notReturn : octet ≠ 13 := by
    rintro rfl
    have returns : UInt8.ofNat '\r'.toNat ∈ String.utf8EncodeChar c := isPart
    exact isReturn (Octets.eq_of_mem_utf8EncodeChar (by decide) returns)
  have notFeed : octet ≠ 10 := by
    rintro rfl
    have feeds : UInt8.ofNat '\n'.toNat ∈ String.utf8EncodeChar c := isPart
    exact isFeed (Octets.eq_of_mem_utf8EncodeChar (by decide) feeds)
  simp [isLineBreak, notReturn, notFeed]

/-- Line breaks are skipped before anything is read. -/
theorem filter_ofText (text : String) :
    (Octets.ofText text).filter (fun octet => !isLineBreak octet) =
      Octets.ofText (withoutLineBreaks text) := by
  rw [Octets.ofText_eq_flatMap, withoutLineBreaks, Octets.ofText_ofList]
  induction text.toList with
  | nil => rfl
  | cons c characters ih =>
    rw [List.flatMap_cons, List.filter_append, ih, filter_utf8EncodeChar, List.filter_cons]
    by_cases other : c ≠ '\r' ∧ c ≠ '\n'
    · simp [other]
    · rw [if_neg other, if_neg (by simpa using other), List.nil_append]

theorem withoutLineBreaks_idem (text : String) :
    withoutLineBreaks (withoutLineBreaks text) = withoutLineBreaks text := by
  simp [withoutLineBreaks]

theorem decode_eq (text : String) :
    decode text = decodeOctets (Octets.ofText (withoutLineBreaks text)) := by
  rw [decode, filter_ofText]

/-! ## The grammar -/

/-- The bits that a spelling stands for: those of its symbols, up to the last octet that they
fill. -/
theorem IsSpelling.bits_packOnto {octets symbols : Octets} {pads : Nat}
    (spelling : IsSpelling octets symbols pads) (few : pads ≤ 2)
    (isWhole : octets.length % 4 = 0) :
    (packOnto [] (placesOf symbols)).bits =
      (sextetBits (placesOf symbols)).take (8 * (3 * octets.length / 4 - pads)) := by
  have bounded : ∀ place ∈ placesOf symbols, place < 64 := by
    intro place isPlace
    obtain ⟨symbol, isHere, rfl⟩ := List.mem_map.mp isPlace
    rw [← length_alphabet]
    exact List.idxOf_lt_length_of_mem (spelling.symbols_mem symbol isHere)
  have length := spelling.length
  have filled : 6 * (placesOf symbols).length / 8 = 3 * octets.length / 4 - pads := by
    rw [placesOf, List.length_map]
    omega
  rw [Base64.bits_packOnto [] _ bounded, filled]
  rfl

theorem decodeOctets_eq_ok_iff {octets digest : Octets} :
    decodeOctets octets = .ok digest ↔
      octets.length % 4 = 0 ∧ ∃ symbols pads, pads ≤ 2 ∧ IsSpelling octets symbols pads ∧
        digest.bits =
          (sextetBits (placesOf symbols)).take (8 * (3 * octets.length / 4 - pads)) := by
  refine ⟨fun decoded => ?_, fun spelled => ?_⟩
  · have verdict := decodeOctets_verdict octets
    rw [decoded] at verdict
    cases verdict with
    | whole spelling few isWhole =>
      exact ⟨isWhole, _, _, few, spelling, spelling.bits_packOnto few isWhole⟩
  · obtain ⟨isWhole, symbols, pads, few, spelling, bits⟩ := spelled
    have same := bits.trans (spelling.bits_packOnto few isWhole).symm
    rw [decodeOctets_of_whole spelling few isWhole, Octets.bits_inj same]

theorem decodeOctets_eq_invalidLength_iff {octets : Octets} :
    decodeOctets octets = .error .invalidLength ↔
      octets.length % 4 = 1 ∧ ∃ last ∈ octets.getLast?, last ∈ alphabet ∨ last = pad := by
  refine ⟨fun fails => ?_, fun overhang => ?_⟩
  · have verdict := decodeOctets_verdict octets
    rw [fails] at verdict
    cases verdict with
    | overhang overhangs ends fits => exact ⟨overhangs, _, ends, fits⟩
  · obtain ⟨overhangs, last, ends, fits⟩ := overhang
    rw [decodeOctets_of_overhang overhangs, overhangFault_of_fitting ends fits]

theorem decodeOctets_eq_invalidPadding_iff {octets : Octets} :
    decodeOctets octets = .error .invalidPadding ↔
      ∃ symbols pads, IsSpelling octets symbols pads ∧ 2 ≤ symbols.length % 4 ∧
        symbols.length % 4 + pads < 4 := by
  refine ⟨fun fails => ?_, fun unpadded => ?_⟩
  · have verdict := decodeOctets_verdict octets
    rw [fails] at verdict
    cases verdict with
    | unpadded spelling twoAtLeast isOpen => exact ⟨_, _, spelling, twoAtLeast, isOpen⟩
  · obtain ⟨symbols, pads, spelling, twoAtLeast, isOpen⟩ := unpadded
    exact decodeOctets_of_unpadded spelling twoAtLeast isOpen

/-- **The grammar of digest texts.** Only what is left of a text without its line breaks matters. It
can be decoded if and only if it is symbols with at most two pads behind them, in whole groups of
four, and then to the octets whose bits are those of the symbols, cut down to three octets for a
group less one for each pad. The length is at fault if and only if one octet is left over that is a
symbol or a pad; the padding is at fault if and only if two or three symbols of the last group have
too few pads behind them; and in all other cases an octet that is no symbol is to blame, at the
place where it stands. -/
theorem digest_text_grammar (text : String) :
    let octets := Octets.ofText (withoutLineBreaks text)
    decode text = decode (withoutLineBreaks text) ∧
    ((∃ digest, decode text = .ok digest) ↔
      octets.length % 4 = 0 ∧ ∃ symbols pads, pads ≤ 2 ∧ IsSpelling octets symbols pads) ∧
    (∀ digest, decode text = .ok digest ↔
      octets.length % 4 = 0 ∧ ∃ symbols pads, pads ≤ 2 ∧ IsSpelling octets symbols pads ∧
        digest.bits =
          (sextetBits (placesOf symbols)).take (8 * (3 * octets.length / 4 - pads))) ∧
    (decode text = .error .invalidLength ↔
      octets.length % 4 = 1 ∧ ∃ last ∈ octets.getLast?, last ∈ alphabet ∨ last = pad) ∧
    (decode text = .error .invalidPadding ↔
      ∃ symbols pads, IsSpelling octets symbols pads ∧ 2 ≤ symbols.length % 4 ∧
        symbols.length % 4 + pads < 4) ∧
    ∀ offset octet, decode text = .error (.invalidByte offset octet) →
      octets[offset]? = some octet ∧ octet ∉ alphabet := by
  intro octets
  rw [decode_eq text, decode_eq (withoutLineBreaks text), withoutLineBreaks_idem]
  refine ⟨rfl, ⟨fun decodes => ?_, fun spelled => ?_⟩, fun digest => decodeOctets_eq_ok_iff,
    decodeOctets_eq_invalidLength_iff, decodeOctets_eq_invalidPadding_iff,
    fun offset octet fails => ?_⟩
  · obtain ⟨digest, decoded⟩ := decodes
    obtain ⟨isWhole, symbols, pads, few, spelling, -⟩ := decodeOctets_eq_ok_iff.mp decoded
    exact ⟨isWhole, symbols, pads, few, spelling⟩
  · obtain ⟨isWhole, symbols, pads, few, spelling⟩ := spelled
    exact ⟨_, decodeOctets_of_whole spelling few isWhole⟩
  · have verdict := decodeOctets_verdict octets
    rw [fails] at verdict
    cases verdict with
    | stray stands noSymbol => exact ⟨stands, noSymbol⟩

/-- A length that is at fault does not mean that there are only symbols: in `AAAA=` the pad behind
the group is not reported as an octet that cannot stand there. -/
theorem length_fault_of_pad_behind_group :
    decode "AAAA=" = .error .invalidLength ∧
      ¬ ∀ text, decode text = .error .invalidLength ↔
        (∀ octet ∈ Octets.ofText (withoutLineBreaks text), octet ∈ alphabet) ∧
          (Octets.ofText (withoutLineBreaks text)).length % 4 = 1 := by
  have fails : decode "AAAA=" = .error .invalidLength := rfl
  refine ⟨fails, fun onlySymbols => ?_⟩
  have symbols := ((onlySymbols "AAAA=").mp fails).1
  exact pad_not_mem_alphabet (symbols pad (by decide +kernel))

end Base64

end Signet
