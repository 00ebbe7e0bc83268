import DiceDuel.Binary64.Basic

/-!
# Scaling and bands

A spell may carry a tier, a level and a progression rate. They place a value inside a band, a pair
of bounds with a number: tier and level each contribute a blend of the bounds, and the rate moves
the weight from tier to level. The arithmetic is binary64, in the order written here.
-/

namespace DiceDuel

/-- Tier, level and progression rate; each may be missing. -/
structure Scaling where
  /-- The tier of the spell. -/
  tier : Option UInt8 := none
  /-- The level of the caster. -/
  level : Option UInt8 := none
  /-- How fast the weight moves from tier to level. -/
  rate : Option UInt8 := none
deriving DecidableEq, Repr, Inhabited

namespace Scaling

/-- A scaling with all three values. -/
def of (tier level rate : UInt8) : Scaling := ⟨some tier, some level, some rate⟩

/-- Whether any of the three is there. -/
def isSet (s : Scaling) : Bool := s.tier.isSome || s.level.isSome || s.rate.isSome

end Scaling

/-- Bounds for a scaled value. -/
structure Band where
  /-- The number by which spells name the band. -/
  number : UInt8
  /-- The value at tier one and level one. -/
  low : Int64
  /-- The value at tier three and level five. -/
  high : Int64
deriving DecidableEq

namespace Band

/-- The bands that spells can name. -/
def table : List Band :=
  [⟨1, 1, 18⟩, ⟨2, 3, 24⟩, ⟨3, 5, 26⟩, ⟨4, 7, 32⟩, ⟨5, 10, 34⟩, ⟨6, 12, 40⟩, ⟨7, 15, 42⟩,
    ⟨8, 17, 48⟩, ⟨9, 20, 50⟩, ⟨10, 22, 56⟩]

/-- The band with a number. -/
def ofNumber? : Nat → Option Band
  | 0 => none
  | n + 1 => table[n]?

/-- A scaling field as a number; a missing one counts as one. -/
def fieldValue (field : Option UInt8) : Binary64 := .ofInt (field.getD 1).toNat

/-- The share of the level in the blend: a quarter at rate one, an eighth more for each rate. -/
def levelWeight (s : Scaling) : Binary64 := .dyadic 1 2 + (fieldValue s.rate - 1) / 8

/-- Where between the bounds a scaling lies: zero at the low bound, one at the high. -/
def blend (s : Scaling) : Binary64 :=
  (1 - levelWeight s) * ((fieldValue s.tier - 1) / 2)
    + levelWeight s * ((fieldValue s.level - 1) / 4)

/-- The value of a band under a scaling, rounded to the nearest integer, halves upward. -/
def scaled (band : Band) (s : Scaling) : Int64 :=
  let low := Binary64.ofInt band.low.toInt
  let high := Binary64.ofInt band.high.toInt
  (low + (high - low) * blend s + .dyadic 1 1).floorInt64

/-- The value of a numbered band under a scaling. -/
def scaledOfNumber? (number : Nat) (s : Scaling) : Option Int64 :=
  (ofNumber? number).map (·.scaled s)

end Band

end DiceDuel
