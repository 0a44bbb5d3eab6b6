import PolicyLevers.Random.WordSource

/-!
# The ChaCha stream with eight rounds

A seeded source: a 64-bit seed is spread over a 256-bit key, and the words are the blocks of the
cipher's key stream, counted from zero.  Different stream numbers under one key give unrelated
sequences.
-/

namespace PolicyLevers.Random.ChaCha

set_option autoImplicit false

abbrev Cells := Vector UInt32 16

def rotateLeft (value : UInt32) (places : UInt32) : UInt32 :=
  (value <<< places) ||| (value >>> ((32 : UInt32) - places))

def quarterRound (cells : Cells) (a b c d : Fin 16) : Cells :=
  let cells := cells.set a (cells[a] + cells[b])
  let cells := cells.set d (rotateLeft (cells[d] ^^^ cells[a]) 16)
  let cells := cells.set c (cells[c] + cells[d])
  let cells := cells.set b (rotateLeft (cells[b] ^^^ cells[c]) 12)
  let cells := cells.set a (cells[a] + cells[b])
  let cells := cells.set d (rotateLeft (cells[d] ^^^ cells[a]) 8)
  let cells := cells.set c (cells[c] + cells[d])
  cells.set b (rotateLeft (cells[b] ^^^ cells[c]) 7)

/-- One round over the columns and one over the diagonals. -/
def doubleRound (cells : Cells) : Cells :=
  let cells := quarterRound cells 0 4 8 12
  let cells := quarterRound cells 1 5 9 13
  let cells := quarterRound cells 2 6 10 14
  let cells := quarterRound cells 3 7 11 15
  let cells := quarterRound cells 0 5 10 15
  let cells := quarterRound cells 1 6 11 12
  let cells := quarterRound cells 2 7 8 13
  quarterRound cells 3 4 9 14

/-- The next state of the generator that spreads a seed. -/
def spread (state : UInt64) : UInt64 := state * 6364136223846793005 + 11634580027462260723

def keyWord (state : UInt64) : UInt32 :=
  let mixed := (((state >>> (18 : UInt64)) ^^^ state) >>> (27 : UInt64)).toUInt32
  rotateLeft mixed ((32 : UInt32) - (state >>> (59 : UInt64)).toUInt32)

def keyWords (state : UInt64) : Nat → List UInt32
  | 0 => []
  | count + 1 => keyWord (spread state) :: keyWords (spread state) count

/-- The lower and the upper half of a word. -/
def halves (word : UInt64) : List UInt32 := [word.toUInt32, (word >>> (32 : UInt64)).toUInt32]

/-- The cells of a block before the rounds: constants, key, counter and stream. -/
def initial (key : List UInt32) (counter stream : UInt64) : Cells :=
  let cells := [0x61707865, 0x3320646e, 0x79622d32, 0x6b206574] ++ key ++ halves counter ++ halves stream
  Vector.ofFn (fun index => cells.getD index.val 0)

/-- A block of the key stream: eight rounds, added to the cells they started from. -/
def block (key : List UInt32) (counter stream : UInt64) : Cells :=
  let cells := initial key counter stream
  let mixed := doubleRound (doubleRound (doubleRound (doubleRound cells)))
  Vector.ofFn (fun index => mixed[index] + cells[index])

/-- The word at a place of the key stream, eight words to a block, the lower half first. -/
def wordAt (key : List UInt32) (stream : UInt64) (index : Nat) : UInt64 :=
  let cells := (block key (UInt64.ofNat (index / 8)) stream).toList
  let low := cells.getD (2 * (index % 8)) 0
  let high := cells.getD (2 * (index % 8) + 1) 0
  low.toUInt64 ||| (high.toUInt64 <<< (32 : UInt64))

def source (seed stream : UInt64) : WordSource :=
  let key := keyWords seed 8
  WordSource.start (wordAt key stream)

end PolicyLevers.Random.ChaCha
