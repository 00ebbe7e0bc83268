import DiceDuel.Binary64.Decimal
import DiceDuel.Die.Source
import DiceDuel.Random.Keystream
import DiceDuel.Random.SipHash

/-!
# The random source of a duel

A generator reads a stream of words, whatever reads it, and records the seed of the stream. Its state
is written down as that seed with the position in the stream, and taken up again by a fresh reader
that is moved there.
Whole numbers are drawn without bias by refusing the words of an incomplete last run.
-/

namespace DiceDuel

-- A power is the core library's, whatever other instances a module that uses this one brings in.
attribute [local instance (high)] instPowNat

/-- What a generator can be restored from. -/
structure Checkpoint where
  /-- The seed of the stream. -/
  seed : UInt64
  /-- The position in words; only its lowest 68 bits count. -/
  position : BitVec 128
deriving DecidableEq, Repr

/-- A reader of a stream, with the seed of the stream. -/
structure Generator (ρ : Type := Keystream.Reader) where
  /-- Where the next word is read. -/
  stream : ρ
  /-- The seed that is recorded for the stream. -/
  seed : UInt64
deriving DecidableEq, Repr

/-- Why a draw within bounds is refused. -/
inductive RangeFault where
  /-- The lower bound is above the upper. -/
  | inverted (low high : Binary64)
  /-- A bound, or the distance between the bounds, is not finite. -/
  | notFinite (low high : Binary64)
  /-- The probability is not between zero and one. -/
  | notAProbability (p : Binary64)
deriving DecidableEq

/-- The text of a fault. -/
def RangeFault.message : RangeFault → String
  | .inverted low high => "min " ++ low.text ++ " cannot be greater than max " ++ high.text
  | .notFinite low high =>
    "range bounds must be finite, got [" ++ low.text ++ ", " ++ high.text ++ ")"
  | .notAProbability p => "probability must be between 0 and 1, got " ++ p.text

namespace Generator

variable {ρ : Type} [WordReader ρ]

/-- The generator at the start of a seed's stream. -/
def ofSeed (seed : UInt64) : Generator ρ := ⟨WordReader.ofSeed seed, seed⟩

/-- The generator of a named stream, which depends on the seed and not on the position. -/
def named (g : Generator ρ) (name : String) : Generator ρ :=
  ofSeed (SipHash.ofSeedAndName g.seed name)

/-- What the generator can be restored from. -/
def checkpoint (g : Generator ρ) : Checkpoint := ⟨g.seed, WordReader.position g.stream⟩

/-- The generator at a checkpoint. -/
def ofCheckpoint (c : Checkpoint) : Generator ρ :=
  ⟨WordReader.seek c.position (WordReader.ofSeed c.seed), c.seed⟩

/-- Draws the next word. -/
def word (g : Generator ρ) : UInt32 × Generator ρ :=
  let (word, stream) := WordReader.next g.stream
  (word, { g with stream })

/-- Draws two words; the first is the low half. -/
def long (g : Generator ρ) : UInt64 × Generator ρ :=
  let (low, g) := g.word
  let (high, g) := g.word
  (low.toUInt64 ||| (high.toUInt64 <<< 32), g)

/-- Draws, and makes something of what is drawn. -/
def making {α β : Type} (g : Generator ρ) (draw : Generator ρ → α × Generator ρ) (make : α → β) :
    β × Generator ρ :=
  let (value, g) := draw g
  (make value, g)

/-- Draws until a value is accepted, at most one time more than the given number; the last draw is
taken as it is. -/
def drawUntil {α : Type} (draw : Generator ρ → α × Generator ρ) (accept : α → Bool) :
    Nat → Generator ρ → α × Generator ρ
  | 0, g => draw g
  | tries + 1, g =>
    let (value, next) := draw g
    if accept value then (value, next) else drawUntil draw accept tries next

/-- The number of positions of a stream. After as many draws the stream has come round, so a value
that was never accepted never will be. -/
def positions : Nat := 2 ^ (68 : Nat)

/-- Draws a face of the die. The words above the last full run of faces are refused. -/
def face (g : Generator ρ) : UInt8 × Generator ρ :=
  let fair (word : UInt32) : Bool := word.toNat * 6 % UInt32.size < UInt32.size - UInt32.size % 6
  g.making (drawUntil word fair positions) fun word =>
    UInt8.ofNat (1 + word.toNat * 6 / UInt32.size)

instance : DieSource (Generator ρ) := ⟨face⟩

/-- Draws one of the given number of whole numbers from zero on, for a number below `2 ^ 64`. Words
are refused whose product with the number has a low half beyond the number's greatest shift within
64 bits. -/
def below (span : Nat) (g : Generator ρ) : Nat × Generator ρ :=
  let fair (word : UInt64) : Bool := word.toNat * span % UInt64.size < span * 2 ^ (63 - span.log2)
  g.making (drawUntil long fair positions) fun word => word.toNat * span / UInt64.size

/-- Draws an integer between two bounds, both included. A single integer costs a draw too, and the
full range takes the words as they are. -/
def int (low high : Int64) (g : Generator ρ) : Except RangeFault Int64 × Generator ρ :=
  if high < low then
    (.error (.inverted (.ofInt low.toInt) (.ofInt high.toInt)), g)
  else if high.toInt - low.toInt + 1 = UInt64.size then
    g.making long fun word => .ok word.toInt64
  else
    g.making (below (high.toInt - low.toInt + 1).toNat) fun offset =>
      .ok (Int64.ofInt (low.toInt + offset))

/-- Draws a number from zero, included, to one, excluded, on the grid of `2 ^ -53`. -/
def unit (g : Generator ρ) : Binary64 × Generator ρ :=
  g.making long fun word => .dyadic (word.toNat / 2 ^ (11 : Nat)) 53

/-- Draws a number from zero, included, to one, excluded, on the grid of `2 ^ -52`. -/
def coarseUnit (g : Generator ρ) : Binary64 × Generator ρ :=
  g.making long fun word => .dyadic (word.toNat / 2 ^ (12 : Nat)) 52

/-- Draws a number from a lower bound on; a result that is rounded up may be the upper bound. -/
def between (low high : Binary64) (g : Generator ρ) : Binary64 × Generator ρ :=
  g.making coarseUnit fun share => share * (high - low) + low

/-- Draws a number from a lower bound, included, to an upper bound, excluded. Equal bounds give the
lower one without a draw; a result that was rounded up to the upper bound is refused. -/
def float (low high : Binary64) (g : Generator ρ) : Except RangeFault Binary64 × Generator ρ :=
  if !low.isFinite || !high.isFinite || !(high - low).isFinite then
    (.error (.notFinite low high), g)
  else if high.lt low then (.error (.inverted low high), g)
  else if low.same high then (.ok low, g)
  else g.making (drawUntil (between low high) (fun value => value.lt high) positions) .ok

/-- Draws true with a probability. -/
def chance (p : Binary64) (g : Generator ρ) : Except RangeFault Bool × Generator ρ :=
  if (0 : Binary64).le p && p.le 1 then g.making unit fun share => .ok (share.lt p)
  else (.error (.notAProbability p), g)

end Generator

end DiceDuel
