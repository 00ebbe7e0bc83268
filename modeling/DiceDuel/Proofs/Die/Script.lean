import DiceDuel.Die.Source

/-!
# Scripted dice, draw by draw

A scripted source is known from its script and the number of draws that were made: the answer to a
draw is the byte of the script at that number, counted round and round. So a run with scripted dice
can be told by saying which draw it made where.
-/

namespace DiceDuel.ScriptedDice

/-- The answer of a script to a draw, when a number of draws came before. An empty script answers
every draw with one. -/
def answerAt (rolls : List UInt8) (drawn : Nat) : UInt8 := rolls[drawn % rolls.length]?.getD 1

/-- A source at the start of its script, after a number of draws. -/
def afterDraws (rolls : List UInt8) : Nat → ScriptedDice
  | 0 => ofRolls rolls
  | drawn + 1 => (afterDraws rolls drawn).roll.2

/-- The script stays as it is. -/
@[simp] theorem rolls_afterDraws (rolls : List UInt8) (drawn : Nat) :
    (afterDraws rolls drawn).rolls = rolls := by
  induction drawn with
  | zero => rfl
  | succ drawn ih => rw [afterDraws, rolls_roll, ih]

/-- Each draw is counted. -/
@[simp] theorem draws_afterDraws (rolls : List UInt8) (drawn : Nat) :
    (afterDraws rolls drawn).draws = drawn := by
  induction drawn with
  | zero => rfl
  | succ drawn ih => rw [afterDraws, draws_roll, ih]

/-- A script that is not empty answers every draw with one of its bytes. -/
theorem exists_getElem?_eq {rolls : List UInt8} (hrolls : rolls ≠ []) (drawn : Nat) :
    ∃ face, rolls[drawn % rolls.length]? = some face := by
  have hlt : drawn % rolls.length < rolls.length :=
    Nat.mod_lt drawn (List.length_pos_iff.mpr hrolls)
  exact ⟨rolls[drawn % rolls.length], List.getElem?_eq_getElem hlt⟩

/-- A script that is not empty has answered each draw. -/
theorem cursor_afterDraws {rolls : List UInt8} (hrolls : rolls ≠ []) (drawn : Nat) :
    (afterDraws rolls drawn).cursor = drawn := by
  induction drawn with
  | zero => rfl
  | succ drawn ih =>
    obtain ⟨face, hface⟩ := exists_getElem?_eq hrolls drawn
    rw [afterDraws, roll, rolls_afterDraws, ih, hface]

/-- The next draw is answered by the number of draws before it. -/
theorem roll_afterDraws (rolls : List UInt8) (drawn : Nat) :
    (afterDraws rolls drawn).roll.1 = answerAt rolls drawn := by
  unfold answerAt roll
  rw [rolls_afterDraws]
  by_cases hrolls : rolls = []
  · subst hrolls
    rfl
  · obtain ⟨face, hface⟩ := exists_getElem?_eq hrolls drawn
    rw [cursor_afterDraws hrolls, hface]
    rfl

end DiceDuel.ScriptedDice
