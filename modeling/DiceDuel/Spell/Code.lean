import DiceDuel.Text.Numeral

/-!
# Codes

A code is a spell as it is written and passed around. Any text is one; a malformed code is read as
a spell that nobody can cast.
-/

namespace DiceDuel

/-- A spell as it is written. -/
structure Code where
  /-- The text as it stands. -/
  text : String
deriving DecidableEq, Repr, Inhabited

/-- The code of a rolled face; a byte outside the die is written as it stands. -/
def Code.ofFace (face : UInt8) : Code := ⟨String.ofList ('I' :: 'D' :: Text.numeral face.toNat)⟩

end DiceDuel
