import DiceDuel.Die.Face

/-!
# Sources of dice

Whatever draws a die is given one value of a type with this single operation. The scripted source
replays a list of bytes round and round and counts its draws, so that a run can be foretold.
-/

namespace DiceDuel

/-- A type of values from which dice are drawn. -/
class DieSource (δ : Type) where
  /-- Draws one byte, a face if the source keeps to the die. -/
  roll : δ → UInt8 × δ

/-- A source that replays a script. -/
structure ScriptedDice where
  /-- The script, replayed from its start when it ends. -/
  rolls : List UInt8
  /-- How many draws the script has answered. -/
  cursor : Nat := 0
  /-- How many draws were made in all. -/
  draws : Nat := 0
deriving DecidableEq, Repr

namespace ScriptedDice

/-- A source at the start of its script. -/
def ofRolls (rolls : List UInt8) : ScriptedDice := { rolls }

/-- Draws the next byte of the script, or one from an empty script. Bytes outside the die are
given as they stand, and only a script that has an answer moves its cursor. -/
def roll (dice : ScriptedDice) : UInt8 × ScriptedDice :=
  match dice.rolls[dice.cursor % dice.rolls.length]? with
  | some face => (face, { dice with cursor := dice.cursor + 1, draws := dice.draws + 1 })
  | none => (1, { dice with draws := dice.draws + 1 })

instance : DieSource ScriptedDice := ⟨roll⟩

/-- Every draw is counted, also one from an empty script. -/
@[simp] theorem draws_roll (dice : ScriptedDice) : dice.roll.2.draws = dice.draws + 1 := by
  unfold roll
  split <;> rfl

/-- Drawing leaves the script as it is. -/
@[simp] theorem rolls_roll (dice : ScriptedDice) : dice.roll.2.rolls = dice.rolls := by
  unfold roll
  split <;> rfl

end ScriptedDice

end DiceDuel
