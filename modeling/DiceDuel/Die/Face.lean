/-!
# Faces of the die

The die has six faces. A source of dice may give any byte, so whoever uses a roll brings it to the
nearest face first.
-/

namespace DiceDuel.Die

/-- The number of faces. -/
def faces : UInt8 := 6

/-- The face nearest to a byte. -/
def clamp (roll : UInt8) : UInt8 :=
  if roll < 1 then 1 else if faces < roll then faces else roll

/-- No face is below one. -/
theorem one_le_clamp (roll : UInt8) : 1 ≤ clamp roll := by
  unfold clamp faces
  split
  · decide
  · split
    · decide
    · exact UInt8.not_lt.mp ‹_›

/-- No face is above the last one. -/
theorem clamp_le_faces (roll : UInt8) : clamp roll ≤ faces := by
  unfold clamp
  split
  · decide
  · split
    · exact UInt8.le_refl _
    · exact UInt8.not_lt.mp ‹_›

end DiceDuel.Die
