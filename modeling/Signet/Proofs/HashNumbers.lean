import Signet.Hmac

/-!
# Hashes that are computed with numbers

SHA-256 works on words of thirty-two bits and keeps its schedules in arrays, and neither is easy to
evaluate inside of a proof. `Sha256.Numbers` does the same with natural numbers and with lists in
which the newest word comes first, so that the four words that the next one is made of stand at
fixed places. Both come to the same hash (`Sha256.hash_eq_numbers`, `Hmac.sha256_eq_numbers`), and
what is to be known of the hash of some given octets is computed with numbers.
-/

namespace Signet

namespace Sha256

/-- The eight chaining words, as numbers. -/
structure Numbers where
  a : Nat
  b : Nat
  c : Nat
  d : Nat
  e : Nat
  f : Nat
  g : Nat
  h : Nat

namespace Numbers

def initial : Numbers where
  a := 0x6a09e667
  b := 0xbb67ae85
  c := 0x3c6ef372
  d := 0xa54ff53a
  e := 0x510e527f
  f := 0x9b05688c
  g := 0x1f83d9ab
  h := 0x5be0cd19

def rotateRight (word bits : Nat) : Nat :=
  word >>> bits ||| word <<< (32 - bits) % 0x100000000

/-- Puts the next word of a schedule in front of those that are there. -/
def extend (words : List Nat) : List Nat :=
  let before (distance : Nat) := words.getD (distance - 1) 0
  let s0 := rotateRight (before 15) 7 ^^^ rotateRight (before 15) 18 ^^^ before 15 >>> 3
  let s1 := rotateRight (before 2) 17 ^^^ rotateRight (before 2) 19 ^^^ before 2 >>> 10
  (before 16 + s0 + before 7 + s1) % 0x100000000 :: words

/-- The schedule of a block that words begin with. -/
def schedule (words : List Nat) : List Nat :=
  ((List.range 48).foldl (fun words _ => extend words) (words.take 16).reverse).reverse

def round (words : Numbers) (constant scheduled : Nat) : Numbers :=
  let s1 := rotateRight words.e 6 ^^^ rotateRight words.e 11 ^^^ rotateRight words.e 25
  let choice := (words.e &&& words.f) ^^^ ((0xffffffff - words.e) &&& words.g)
  let t1 := words.h + s1 + choice + constant + scheduled
  let s0 := rotateRight words.a 2 ^^^ rotateRight words.a 13 ^^^ rotateRight words.a 22
  let majority := (words.a &&& words.b) ^^^ (words.a &&& words.c) ^^^ (words.b &&& words.c)
  { a := (t1 + (s0 + majority)) % 0x100000000, b := words.a, c := words.b, d := words.c,
    e := (words.d + t1) % 0x100000000, f := words.e, g := words.f, h := words.g }

def add (left right : Numbers) : Numbers where
  a := (left.a + right.a) % 0x100000000
  b := (left.b + right.b) % 0x100000000
  c := (left.c + right.c) % 0x100000000
  d := (left.d + right.d) % 0x100000000
  e := (left.e + right.e) % 0x100000000
  f := (left.f + right.f) % 0x100000000
  g := (left.g + right.g) % 0x100000000
  h := (left.h + right.h) % 0x100000000

/-- Stirs the chaining words with the block that words begin with. -/
def compress (chained : Numbers) (words : List Nat) : Numbers :=
  chained.add (((roundConstants.map UInt32.toNat).zip (schedule words)).foldl
    (fun words (constant, scheduled) => round words constant scheduled) chained)

def toOctets (words : Numbers) : Octets :=
  [words.a, words.b, words.c, words.d, words.e, words.f, words.g, words.h].flatMap
    (Octets.ofNat 4)

/-- The words that octets are read as, four octets for each. -/
def wordsOf : Octets → List Nat
  | a :: b :: c :: d :: octets =>
    (a.toNat <<< 24 ||| b.toNat <<< 16 ||| c.toNat <<< 8 ||| d.toNat) :: wordsOf octets
  | _ => []

def hash (message : Octets) : Octets :=
  let words := wordsOf (padded message)
  ((List.range ((padded message).length / 64)).foldl
    (fun chained block => compress chained (words.drop (block * 16))) initial).toOctets

end Numbers

/-! ## Words -/

def Words.numbers (words : Words) : Numbers where
  a := words.a.toNat
  b := words.b.toNat
  c := words.c.toNat
  d := words.d.toNat
  e := words.e.toNat
  f := words.f.toNat
  g := words.g.toNat
  h := words.h.toNat

theorem toNat_rotateRight (word : UInt32) {bits : UInt32} (positive : 0 < bits.toNat)
    (below : bits.toNat < 32) :
    (rotateRight word bits).toNat = Numbers.rotateRight word.toNat bits.toNat := by
  have isLess : bits ≤ 32 := UInt32.le_iff_toNat_le.mpr (Nat.le_of_lt below)
  have rest : (32 - bits).toNat = 32 - bits.toNat := UInt32.toNat_sub_of_le _ _ isLess
  unfold rotateRight Numbers.rotateRight
  rw [UInt32.toNat_or, UInt32.toNat_shiftRight, UInt32.toNat_shiftLeft, rest,
    Nat.mod_eq_of_lt below, Nat.mod_eq_of_lt (show 32 - bits.toNat < 32 by omega)]

theorem numbers_round (words : Words) (constant scheduled : UInt32) :
    (round words constant scheduled).numbers =
      words.numbers.round constant.toNat scheduled.toNat := by
  simp [round, Numbers.round, Words.numbers, toNat_rotateRight]

theorem numbers_add (left right : Words) :
    (left.add right).numbers = left.numbers.add right.numbers := by
  simp [Words.add, Numbers.add, Words.numbers]

/-! ## Schedules -/

/-- The words of a schedule as numbers, the newest first. -/
def numbersOf (schedule : Array UInt32) : List Nat :=
  (schedule.toList.map UInt32.toNat).reverse

/-- What stands at a distance from the end of a schedule stands at a fixed place if the newest is
first. -/
theorem toNat_before {schedule : Array UInt32} {distance : Nat} (positive : 0 < distance)
    (within : distance ≤ schedule.size) :
    (schedule[schedule.size - distance]?.getD 0).toNat =
      (numbersOf schedule)[distance - 1]?.getD 0 := by
  have isThere : schedule.size - distance < schedule.size := by omega
  have isListed : distance - 1 < (schedule.toList.map UInt32.toNat).length := by
    rw [List.length_map, Array.length_toList]
    omega
  have samePlace : schedule.size - 1 - (distance - 1) = schedule.size - distance := by omega
  rw [numbersOf, List.getElem?_reverse isListed, List.length_map, Array.length_toList, samePlace,
    List.getElem?_map, Array.getElem?_toList, Array.getElem?_eq_getElem isThere]
  rfl

theorem numbersOf_extend {schedule : Array UInt32} (large : 16 ≤ schedule.size) :
    numbersOf (extend schedule) = Numbers.extend (numbersOf schedule) := by
  have before {distance : Nat} (positive : 0 < distance) (within : distance ≤ 16) :=
    toNat_before positive (Nat.le_trans within large)
  have pushed (word : UInt32) :
      numbersOf (schedule.push word) = word.toNat :: numbersOf schedule := by
    simp [numbersOf]
  unfold extend
  dsimp only
  rw [pushed]
  simp [Numbers.extend, toNat_rotateRight, before]

theorem numbersOf_foldl_extend {schedule : Array UInt32} (large : 16 ≤ schedule.size)
    (rounds : List Nat) :
    numbersOf (rounds.foldl (fun words _ => extend words) schedule) =
      rounds.foldl (fun words _ => Numbers.extend words) (numbersOf schedule) := by
  induction rounds generalizing schedule with
  | nil => rfl
  | cons _ rounds ih =>
    have larger : 16 ≤ (extend schedule).size := by
      unfold extend
      rw [Array.size_push]
      exact Nat.le_succ_of_le large
    rw [List.foldl_cons, List.foldl_cons, ih larger, numbersOf_extend large]

/-! ## Blocks -/

theorem toNat_wordAt_zero (a b c d : UInt8) (octets : Octets) :
    (wordAt (a :: b :: c :: d :: octets).toArray 0).toNat =
      a.toNat <<< 24 ||| b.toNat <<< 16 ||| c.toNat <<< 8 ||| d.toNat := by
  have small (octet : UInt8) {bits : Nat} (few : bits ≤ 24) :
      octet.toNat <<< bits % 2 ^ 32 = octet.toNat <<< bits := by
    refine Nat.mod_eq_of_lt ?_
    calc octet.toNat <<< bits = octet.toNat * 2 ^ bits := Nat.shiftLeft_eq _ _
      _ ≤ octet.toNat * 2 ^ 24 := Nat.mul_le_mul_left _ (Nat.pow_le_pow_right (by decide) few)
      _ < 2 ^ 8 * 2 ^ 24 := Nat.mul_lt_mul_of_pos_right octet.toNat_lt (by decide)
  have isWord : (wordAt (a :: b :: c :: d :: octets).toArray 0).toNat =
      a.toNat <<< 24 % 2 ^ 32 ||| b.toNat <<< 16 % 2 ^ 32 ||| c.toNat <<< 8 % 2 ^ 32 |||
        d.toNat := by
    simp [wordAt]
  rw [isWord, small a (Nat.le_refl 24), small b (by decide), small c (by decide)]

theorem wordAt_succ (a b c d : UInt8) (octets : Octets) (index : Nat) :
    wordAt (a :: b :: c :: d :: octets).toArray (4 * (index + 1)) =
      wordAt octets.toArray (4 * index) := by
  simp [wordAt, Nat.mul_add]

theorem exists_four_octets {octets : Octets} (long : 4 ≤ octets.length) :
    ∃ a b c d behind, octets = a :: b :: c :: d :: behind := by
  rcases octets with _ | ⟨a, _ | ⟨b, _ | ⟨c, _ | ⟨d, behind⟩⟩⟩⟩
  · cases long
  · simp at long
  · simp at long
  · simp at long
  · exact ⟨a, b, c, d, behind, rfl⟩

theorem getElem?_wordsOf {octets : Octets} {index : Nat}
    (within : 4 * index + 4 ≤ octets.length) :
    (Numbers.wordsOf octets)[index]? = some (wordAt octets.toArray (4 * index)).toNat := by
  induction index generalizing octets with
  | zero =>
    obtain ⟨a, b, c, d, behind, rfl⟩ := exists_four_octets within
    rw [Nat.mul_zero, toNat_wordAt_zero]
    rfl
  | succ index ih =>
    obtain ⟨a, b, c, d, behind, rfl⟩ := exists_four_octets (show 4 ≤ octets.length by omega)
    have isLong : 4 * index + 4 ≤ behind.length := by
      simp only [List.length_cons] at within
      omega
    rw [wordAt_succ, ← ih isLong, Numbers.wordsOf, List.getElem?_cons_succ]

/-- A schedule begins with the words of its block. -/
theorem numbersOf_words {octets : Octets} {block : Nat}
    (within : 64 * (block + 1) ≤ octets.length) :
    numbersOf ((List.range 16).map fun index =>
        wordAt octets.toArray (block * 64 + 4 * index)).toArray =
      (((Numbers.wordsOf octets).drop (block * 16)).take 16).reverse := by
  refine congrArg List.reverse (List.ext_getElem? fun index => ?_)
  rw [List.getElem?_take, List.getElem?_drop, List.map_map, List.getElem?_map]
  by_cases few : index < 16
  · rw [if_pos few, getElem?_wordsOf (by omega), List.getElem?_range few]
    have samePlace : 4 * (block * 16 + index) = block * 64 + 4 * index := by omega
    rw [samePlace]
    rfl
  · rw [if_neg few, List.getElem?_eq_none (by rw [List.length_range]; omega)]
    rfl

theorem map_schedule {octets : Octets} {block : Nat} (within : 64 * (block + 1) ≤ octets.length) :
    (schedule octets.toArray (block * 64)).toList.map UInt32.toNat =
      Numbers.schedule ((Numbers.wordsOf octets).drop (block * 16)) := by
  have large : 16 ≤ ((List.range 16).map fun index =>
      wordAt octets.toArray (block * 64 + 4 * index)).toArray.size := by simp
  have same := numbersOf_foldl_extend large (List.range 48)
  rw [numbersOf_words within] at same
  exact List.reverse_eq_iff.mp same

theorem numbers_foldl_round (pairs : List (UInt32 × UInt32)) (words : Words) :
    (pairs.foldl (fun words (constant, scheduled) => round words constant scheduled)
        words).numbers =
      (pairs.map fun pair => (pair.1.toNat, pair.2.toNat)).foldl
        (fun words (constant, scheduled) => words.round constant scheduled) words.numbers := by
  induction pairs generalizing words with
  | nil => rfl
  | cons pair pairs ih => rw [List.map_cons, List.foldl_cons, List.foldl_cons, ih, numbers_round]

theorem numbers_compress (words : Words) {octets : Octets} {block : Nat}
    (within : 64 * (block + 1) ≤ octets.length) :
    (compress octets.toArray words (block * 64)).numbers =
      words.numbers.compress ((Numbers.wordsOf octets).drop (block * 16)) := by
  unfold compress Numbers.compress
  dsimp only
  rw [numbers_add, numbers_foldl_round, ← map_schedule within, List.zip_map]
  rfl

theorem numbers_foldl_compress {octets : Octets} (words : Words) {count : Nat}
    (within : 64 * count ≤ octets.length) :
    ((List.range count).foldl (fun words block => compress octets.toArray words (block * 64))
        words).numbers =
      (List.range count).foldl
        (fun words block => words.compress ((Numbers.wordsOf octets).drop (block * 16)))
        words.numbers := by
  induction count with
  | zero => rfl
  | succ count ih =>
    rw [List.range_succ, List.foldl_append, List.foldl_append]
    dsimp only [List.foldl_cons, List.foldl_nil]
    rw [numbers_compress _ within, ih (by omega)]

/-- A hash can be computed with numbers. -/
theorem hash_eq_numbers (message : Octets) : hash message = Numbers.hash message := by
  have within : 64 * ((padded message).length / 64) ≤ (padded message).length :=
    Nat.mul_div_le _ _
  have same := numbers_foldl_compress initial within
  have written (words : Words) : words.toOctets = words.numbers.toOctets := rfl
  unfold hash Numbers.hash
  dsimp only
  rw [List.size_toArray, written, same]
  rfl

end Sha256

/-- So can a keyed hash. -/
theorem Hmac.sha256_eq_numbers (key message : Octets) :
    sha256 key message =
      Sha256.Numbers.hash ((blockKey key).map (· ^^^ 0x5c) ++
        Sha256.Numbers.hash ((blockKey key).map (· ^^^ 0x36) ++ message)) := by
  unfold sha256
  dsimp only
  rw [Sha256.hash_eq_numbers, Sha256.hash_eq_numbers]

end Signet
