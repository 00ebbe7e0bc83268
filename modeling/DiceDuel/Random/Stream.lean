/-!
# Streams of words

A generator takes its words from a reader, which stands at a position of the stream of a seed. A type
of readers is lawful if readers at one position of one stream read the same word, and say the
position. What else a reader is made of, such as a buffer, is its own affair.
-/

namespace DiceDuel

/-- A type of readers of streams of words. -/
class WordReader (ρ : Type) where
  /-- The reader at the start of a seed's stream. -/
  ofSeed : UInt64 → ρ
  /-- Reads the next word. -/
  next : ρ → UInt32 × ρ
  /-- The position of the next word. -/
  position : ρ → BitVec 128
  /-- The reader moved to a position of its stream. -/
  seek : BitVec 128 → ρ → ρ

namespace WordReader

variable {ρ : Type} [WordReader ρ]

/-- Where a reader stands: in the stream of a seed, before the word at a position. A stream has
`2 ^ 68` positions and goes round. -/
inductive Stands : ρ → UInt64 → BitVec 68 → Prop
  /-- A new reader stands at the start of its stream. -/
  | ofSeed (seed : UInt64) : Stands (ofSeed seed) seed 0
  /-- To read a word is to move on by one. -/
  | next {r : ρ} {seed : UInt64} {position : BitVec 68} (before : Stands r seed position) :
      Stands (next r).2 seed (position + 1)
  /-- To be moved to a position counts as far as there are positions. -/
  | seek {r : ρ} {seed : UInt64} {position : BitVec 68} (target : BitVec 128)
      (before : Stands r seed position) : Stands (seek target r) seed (target.setWidth 68)

end WordReader

/-- Readers whose words are fixed by the seed and the position, and which say where they stand. -/
class LawfulWordReader (ρ : Type) [WordReader ρ] : Prop where
  /-- Readers at one position of one stream read the same word. -/
  next_eq {r other : ρ} {seed : UInt64} {position : BitVec 68}
    (here : WordReader.Stands r seed position) (there : WordReader.Stands other seed position) :
    (WordReader.next r).1 = (WordReader.next other).1
  /-- A reader says at which position it stands. -/
  position_eq {r : ρ} {seed : UInt64} {position : BitVec 68}
    (here : WordReader.Stands r seed position) : WordReader.position r = position.setWidth 128

end DiceDuel
