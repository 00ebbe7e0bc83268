import DiceDuel.Die.Source

/-!
# The roll-again gate

A spell with the roll-again mark goes ahead only if a die drawn for it shows an even face.
-/

namespace DiceDuel

/-- What the gate decided, with the face that was drawn. -/
inductive Verdict where
  /-- The spell goes ahead. -/
  | proceed (face : UInt8)
  /-- The spell is dropped. -/
  | cancel (face : UInt8)
deriving DecidableEq, Repr

namespace Verdict

/-- The face that was drawn. -/
def face : Verdict → UInt8
  | .proceed face => face
  | .cancel face => face

/-- Whether the spell goes ahead. -/
def proceeds : Verdict → Bool
  | .proceed _ => true
  | .cancel _ => false

/-- The verdict of a face: even faces let the spell through. -/
def ofFace (face : UInt8) : Verdict := if face % 2 = 1 then .cancel face else .proceed face

/-- Draws a die and gives its verdict. -/
def draw {δ : Type} [DieSource δ] (dice : δ) : Verdict × δ :=
  let (roll, dice) := DieSource.roll dice
  (ofFace (Die.clamp roll), dice)

end Verdict

end DiceDuel
