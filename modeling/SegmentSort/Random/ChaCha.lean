import SegmentSort.Random.Source

/-!
# The ChaCha stream

`ChaCha` is a random source that yields the words of the ChaCha key stream with 12 rounds.
A word of 64 bits consists of two words of the stream, the low one first.  The key is
expanded from a seed by a linear congruential generator whose output is permuted.
-/

namespace SegmentSort

namespace ChaCha

/-- The state of a block: constants, key, and block number. -/
abbrev Block : Type := Vector UInt32 16

/-- A word with its bits moved to the left, those that leave it coming back on the right. -/
def rotateLeft (x n : UInt32) : UInt32 :=
  x <<< n ||| x >>> (32 - n)

/-- A word with its bits moved to the right, those that leave it coming back on the left. -/
def rotateRight (x n : UInt32) : UInt32 :=
  x >>> n ||| x <<< (32 - n)

/-- The word at `b` is added to the one at `a`, and the sum mixed into the one at `d`. -/
def mix (s : Block) (a b d : Fin 16) (n : UInt32) : Block :=
  let s := s.set a (s[a] + s[b])
  s.set d (rotateLeft (s[d] ^^^ s[a]) n)

/-- A quarter round on four words of a block. -/
def quarterRound (s : Block) (a b c d : Fin 16) : Block :=
  let s := mix s a b d 16
  let s := mix s c d b 12
  let s := mix s a b d 8
  mix s c d b 7

/-- A round on the columns of a block and a round on its diagonals. -/
def doubleRound (s : Block) : Block :=
  let s := quarterRound s 0 4 8 12
  let s := quarterRound s 1 5 9 13
  let s := quarterRound s 2 6 10 14
  let s := quarterRound s 3 7 11 15
  let s := quarterRound s 0 5 10 15
  let s := quarterRound s 1 6 11 12
  let s := quarterRound s 2 7 8 13
  quarterRound s 3 4 9 14

/-- The number of double rounds. -/
def doubleRounds : Nat := 6

/-- The words `expand 32-byte k`. -/
def constants : Vector UInt32 4 :=
  #v[0x61707865, 0x3320646e, 0x79622d32, 0x6b206574]

/-- The block with a number before it is mixed.  The number takes 64 bits, low word first. -/
def initial (key : Vector UInt32 8) (number : UInt64) : Block :=
  constants ++ key ++ #v[number.toUInt32, (number >>> 32).toUInt32, 0, 0]

/-- The block of the key stream with a number. -/
def block (key : Vector UInt32 8) (number : UInt64) : Block :=
  let start := initial key number
  (Nat.repeat doubleRound doubleRounds start).zipWith (· + ·) start

/-- One step of the generator that expands a seed. -/
def seedStep (state : UInt64) : UInt64 :=
  state * 6364136223846793005 + 11634580027462260723

/-- The word that the generator yields in a state. -/
def seedWord (state : UInt64) : UInt32 :=
  rotateRight (((state >>> 18) ^^^ state) >>> 27).toUInt32 (state >>> 59).toUInt32

/-- The key for a seed: the words of the states after the seed. -/
def keyOfSeed (seed : UInt64) : Vector UInt32 8 :=
  Vector.ofFn fun i => seedWord (Nat.repeat seedStep (i.val + 1) seed)

end ChaCha

/-- A position in a key stream. -/
structure ChaCha where
  key : Vector UInt32 8
  /-- The number of the next block. -/
  number : UInt64
  /-- The words of the current block that have not been drawn. -/
  pending : List UInt32

namespace ChaCha

/-- The start of the key stream for a seed. -/
def ofSeed (seed : UInt64) : ChaCha where
  key := keyOfSeed seed
  number := 0
  pending := []

/-- The next word of the stream. -/
def next (c : ChaCha) : UInt32 × ChaCha :=
  match c.pending with
  | word :: pending => (word, { c with pending })
  | [] =>
    let words := block c.key c.number
    (words[0], { c with number := c.number + 1, pending := words.toList.tail })

instance : RandomSource ChaCha where
  draw32 c := c.next
  draw64 c :=
    let (low, c) := c.next
    let (high, c) := c.next
    (high.toUInt64 <<< 32 ||| low.toUInt64, c)

end ChaCha

end SegmentSort
