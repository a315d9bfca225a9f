import Signet.Octets

/-!
# ChaCha20 key streams

A key of thirty-two octets stands for an endless stream of octets, here in blocks of sixty-four:
twenty rounds over sixteen words, with a block number of sixty-four bits and a nonce of zero. Key
generation reads its random octets from such a stream.
-/

namespace Signet.ChaCha20

/-- The sixteen words that the rounds work on, as four rows of four. -/
abbrev Grid := Array UInt32

def rotateLeft (word : UInt32) (bits : UInt32) : UInt32 :=
  word <<< bits ||| word >>> (32 - bits)

/-- One quarter round on four places of the grid. -/
def quarterRound (a b c d : Nat) (grid : Grid) : Grid :=
  let wa := grid.getD a 0
  let wb := grid.getD b 0
  let wc := grid.getD c 0
  let wd := grid.getD d 0
  let wa := wa + wb
  let wd := rotateLeft (wd ^^^ wa) 16
  let wc := wc + wd
  let wb := rotateLeft (wb ^^^ wc) 12
  let wa := wa + wb
  let wd := rotateLeft (wd ^^^ wa) 8
  let wc := wc + wd
  let wb := rotateLeft (wb ^^^ wc) 7
  (((grid.setIfInBounds a wa).setIfInBounds b wb).setIfInBounds c wc).setIfInBounds d wd

/-- Two rounds: one down the columns, one down the diagonals. -/
def doubleRound (grid : Grid) : Grid :=
  let grid := quarterRound 0 4 8 12 grid
  let grid := quarterRound 1 5 9 13 grid
  let grid := quarterRound 2 6 10 14 grid
  let grid := quarterRound 3 7 11 15 grid
  let grid := quarterRound 0 5 10 15 grid
  let grid := quarterRound 1 6 11 12 grid
  let grid := quarterRound 2 7 8 13 grid
  quarterRound 3 4 9 14 grid

/-- The words that octets write, four to a word, least significant octet first. -/
def wordsOf : Octets → List UInt32
  | a :: b :: c :: d :: rest =>
    (a.toUInt32 ||| b.toUInt32 <<< 8 ||| c.toUInt32 <<< 16 ||| d.toUInt32 <<< 24) :: wordsOf rest
  | _ => []

/-- The grid before the rounds: constants, key, block number, and a nonce of zero. -/
def start (key : Octets) (block : Nat) : Grid :=
  ([0x61707865, 0x3320646e, 0x79622d32, 0x6b206574] ++ wordsOf key ++
    [UInt32.ofNat block, UInt32.ofNat (block / 4294967296), 0, 0]).toArray

/-- The sixty-four octets of one block of the key stream. -/
def block (key : Octets) (number : Nat) : Octets :=
  let before := start key number
  let after := (List.range 10).foldl (fun grid _ => doubleRound grid) before
  (List.zipWith (· + ·) before.toList after.toList).flatMap
    fun word => (Octets.ofNat 4 word.toNat).reverse

end Signet.ChaCha20
