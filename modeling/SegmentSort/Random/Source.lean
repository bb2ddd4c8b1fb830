/-!
# Random sources

A `RandomSource` draws words of 32 and of 64 bits.  `Replay` draws the numbers of a list,
over and over, and `Counted` counts the draws from another source.
-/

namespace SegmentSort

/-- A type of states from which words can be drawn; a draw yields a word and the state for
the next draw. -/
class RandomSource (σ : Type) where
  draw32 : σ → UInt32 × σ
  draw64 : σ → UInt64 × σ

/-- A list of words, and the number of draws so far. -/
structure Replay where
  words : Array UInt64
  drawn : Nat
  deriving DecidableEq, Repr

namespace Replay

/-- The words of a list, from the start. -/
def ofWords (words : Array UInt64) : Replay where
  words
  drawn := 0

/-- The next word; after the last one, the first one again. -/
def next (r : Replay) : UInt64 × Replay :=
  (r.words[r.drawn % r.words.size]?.getD 0, { r with drawn := r.drawn + 1 })

instance : RandomSource Replay where
  draw32 r := (r.next.1.toUInt32, r.next.2)
  draw64 r := r.next

end Replay

/-- A source, and the number of draws so far. -/
structure Counted (σ : Type) where
  source : σ
  drawn : Nat

instance (σ : Type) [RandomSource σ] : RandomSource (Counted σ) where
  draw32 c :=
    let (word, source) := RandomSource.draw32 c.source
    (word, { source, drawn := c.drawn + 1 })
  draw64 c :=
    let (word, source) := RandomSource.draw64 c.source
    (word, { source, drawn := c.drawn + 1 })

end SegmentSort
