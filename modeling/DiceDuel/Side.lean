/-!
# The two sides of a duel

The player acts through the host; the enemy's turns run by themselves.
-/

namespace DiceDuel

/-- A side of the duel. -/
inductive Side where
  /-- The side the host acts for. -/
  | player
  /-- The side whose turns run by themselves. -/
  | enemy
deriving DecidableEq, Repr, Inhabited

namespace Side

/-- The side that acts next. -/
def opposite : Side → Side
  | .player => .enemy
  | .enemy => .player

/-- Whether the side's turns need no host. -/
def isAutomated : Side → Bool
  | .player => false
  | .enemy => true

/-- The name of a side in messages and records. -/
def name : Side → String
  | .player => "player"
  | .enemy => "enemy"

/-- The heading of a side's turn. -/
def turnLabel : Side → String
  | .player => "Players Turn"
  | .enemy => "Enemies Turn"

/-- After two turns it is the first side's again. -/
@[simp] theorem opposite_opposite (side : Side) : side.opposite.opposite = side := by
  cases side <;> rfl

end Side

end DiceDuel
