import Signet.Octets

/-!
# SHA-256

The hash that turns a seed into key material. A message is closed by one set bit, zero bits and its
length, and is then taken in blocks of sixty-four octets, each of which stirs the eight chaining
words once.
-/

namespace Signet.Sha256

/-- The eight chaining words. -/
structure Words where
  a : UInt32
  b : UInt32
  c : UInt32
  d : UInt32
  e : UInt32
  f : UInt32
  g : UInt32
  h : UInt32

def initial : Words where
  a := 0x6a09e667
  b := 0xbb67ae85
  c := 0x3c6ef372
  d := 0xa54ff53a
  e := 0x510e527f
  f := 0x9b05688c
  g := 0x1f83d9ab
  h := 0x5be0cd19

def roundConstants : List UInt32 :=
  [0x428a2f98, 0x71374491, 0xb5c0fbcf, 0xe9b5dba5, 0x3956c25b, 0x59f111f1, 0x923f82a4, 0xab1c5ed5,
   0xd807aa98, 0x12835b01, 0x243185be, 0x550c7dc3, 0x72be5d74, 0x80deb1fe, 0x9bdc06a7, 0xc19bf174,
   0xe49b69c1, 0xefbe4786, 0x0fc19dc6, 0x240ca1cc, 0x2de92c6f, 0x4a7484aa, 0x5cb0a9dc, 0x76f988da,
   0x983e5152, 0xa831c66d, 0xb00327c8, 0xbf597fc7, 0xc6e00bf3, 0xd5a79147, 0x06ca6351, 0x14292967,
   0x27b70a85, 0x2e1b2138, 0x4d2c6dfc, 0x53380d13, 0x650a7354, 0x766a0abb, 0x81c2c92e, 0x92722c85,
   0xa2bfe8a1, 0xa81a664b, 0xc24b8b70, 0xc76c51a3, 0xd192e819, 0xd6990624, 0xf40e3585, 0x106aa070,
   0x19a4c116, 0x1e376c08, 0x2748774c, 0x34b0bcb5, 0x391c0cb3, 0x4ed8aa4a, 0x5b9cca4f, 0x682e6ff3,
   0x748f82ee, 0x78a5636f, 0x84c87814, 0x8cc70208, 0x90befffa, 0xa4506ceb, 0xbef9a3f7, 0xc67178f2]

def rotateRight (word : UInt32) (bits : UInt32) : UInt32 :=
  word >>> bits ||| word <<< (32 - bits)

/-- The word at an offset of padded octets, most significant octet first. -/
def wordAt (octets : Array UInt8) (offset : Nat) : UInt32 :=
  (octets.getD offset 0).toUInt32 <<< 24 ||| (octets.getD (offset + 1) 0).toUInt32 <<< 16 |||
    (octets.getD (offset + 2) 0).toUInt32 <<< 8 ||| (octets.getD (offset + 3) 0).toUInt32

/-- The next word of a schedule that already has sixteen words or more. -/
def extend (schedule : Array UInt32) : Array UInt32 :=
  let before (distance : Nat) := schedule.getD (schedule.size - distance) 0
  let s0 := rotateRight (before 15) 7 ^^^ rotateRight (before 15) 18 ^^^ before 15 >>> 3
  let s1 := rotateRight (before 2) 17 ^^^ rotateRight (before 2) 19 ^^^ before 2 >>> 10
  schedule.push (before 16 + s0 + before 7 + s1)

/-- The sixty-four schedule words of the block that starts at an offset. -/
def schedule (octets : Array UInt8) (offset : Nat) : Array UInt32 :=
  (List.range 48).foldl (fun words _ => extend words)
    ((List.range 16).map fun index => wordAt octets (offset + 4 * index)).toArray

def round (words : Words) (constant scheduled : UInt32) : Words :=
  let s1 := rotateRight words.e 6 ^^^ rotateRight words.e 11 ^^^ rotateRight words.e 25
  let choice := (words.e &&& words.f) ^^^ (~~~words.e &&& words.g)
  let t1 := words.h + s1 + choice + constant + scheduled
  let s0 := rotateRight words.a 2 ^^^ rotateRight words.a 13 ^^^ rotateRight words.a 22
  let majority := (words.a &&& words.b) ^^^ (words.a &&& words.c) ^^^ (words.b &&& words.c)
  { a := t1 + (s0 + majority), b := words.a, c := words.b, d := words.c,
    e := words.d + t1, f := words.e, g := words.f, h := words.g }

def Words.add (left right : Words) : Words where
  a := left.a + right.a
  b := left.b + right.b
  c := left.c + right.c
  d := left.d + right.d
  e := left.e + right.e
  f := left.f + right.f
  g := left.g + right.g
  h := left.h + right.h

/-- Stirs the chaining words with the block that starts at an offset. -/
def compress (octets : Array UInt8) (words : Words) (offset : Nat) : Words :=
  let scheduled := (schedule octets offset).toList
  words.add ((roundConstants.zip scheduled).foldl
    (fun words (constant, scheduled) => round words constant scheduled) words)

/-- A message, closed so that it fills whole blocks: a set bit, zeros, and its length in bits. -/
def padded (message : Octets) : Octets :=
  let zeros := (119 - message.length % 64) % 64
  message ++ 0x80 :: List.replicate zeros 0 ++ Octets.ofNat 8 (message.length * 8)

def Words.toOctets (words : Words) : Octets :=
  [words.a, words.b, words.c, words.d, words.e, words.f, words.g, words.h].flatMap
    fun word => Octets.ofNat 4 word.toNat

/-- The thirty-two octets that SHA-256 makes of a message. -/
def hash (message : Octets) : Octets :=
  let octets := (padded message).toArray
  ((List.range (octets.size / 64)).foldl
    (fun words block => compress octets words (block * 64)) initial).toOctets

theorem length_hash (message : Octets) : (hash message).length = 32 := by
  simp [hash, Words.toOctets, Octets.length_ofNat]

end Signet.Sha256
