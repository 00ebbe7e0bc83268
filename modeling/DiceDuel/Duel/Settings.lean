import DiceDuel.Casting.Arguments
import DiceDuel.Side

/-!
# Settings

What a host decides before a duel: how long the steps of a turn take, who opens, the seed of the dice
and how faulty tokens are treated. Delays are counted in the units of the duel's clock.
-/

namespace DiceDuel

/-- The settings of a duel. -/
structure Settings where
  /-- From the start of a roll to its result. -/
  rollDelay : UInt64 := 1000
  /-- From an automated roll to its spell. -/
  castDelay : UInt64 := 300
  /-- From a spell to the end of its animation. -/
  animationDelay : UInt64 := 2000
  /-- The side that takes the first turn. -/
  opener : Side := .player
  /-- The seed of the dice. -/
  seed : UInt64 := 42
  /-- How tokens with a fault are treated. -/
  strictness : Strictness := .lenient
deriving DecidableEq, Repr

namespace Settings

/-- Settings with other delays. -/
def withDelays (s : Settings) (roll cast animation : UInt64) : Settings :=
  { s with rollDelay := roll, castDelay := cast, animationDelay := animation }

/-- Settings under which nothing takes time. -/
def instant : Settings := withDelays {} 0 0 0

/-- How long an automated turn takes, from its roll to the end of its animation. -/
def automatedTurn (s : Settings) : UInt64 := s.rollDelay + s.castDelay + s.animationDelay

end Settings

end DiceDuel
