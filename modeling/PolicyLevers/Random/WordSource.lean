/-!
# Sources of random words

A generator is an endless sequence of 64-bit words and the number of words taken from it so far.
Everything random in a run is a function of the words it takes, in the order it takes them.
-/

namespace PolicyLevers.Random

set_option autoImplicit false

/-- An endless sequence of words, of which the first `drawn` are used up. -/
structure WordSource where
  word : Nat → UInt64
  drawn : Nat

namespace WordSource

def start (word : Nat → UInt64) : WordSource := ⟨word, 0⟩

def next (source : WordSource) : UInt64 × WordSource :=
  (source.word source.drawn, { source with drawn := source.drawn + 1 })

/-- The listed words, over and over; a source of zeros if none is listed. -/
def cycle (words : List UInt64) : WordSource :=
  let listed := words.toArray
  start (fun index => listed.getD (index % listed.size) 0)

end WordSource

/-- The double in `[1, 2)` whose fraction is the upper 52 bits of a word. -/
def unitFraction (word : UInt64) : Float := Float.ofBits ((word >>> 12) ||| ((1023 : UInt64) <<< 52))

end PolicyLevers.Random
