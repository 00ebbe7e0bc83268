import DiceDuel.Casting.Arguments
import DiceDuel.Side

/-!
# Castings and the journal

A casting is one spell handed over to be carried out: its base, its arguments and who cast it. What
carries spells out is a type of the host; the journal is one that only writes them down.
-/

namespace DiceDuel

/-- Who casts a spell, and the roll of the turn if there is one yet. -/
structure Caller where
  /-- The casting side. -/
  side : Side
  /-- The roll of the turn. -/
  roll : Option UInt8
deriving DecidableEq, Repr

/-- A spell handed over to be carried out. -/
structure Casting where
  /-- The kind of spell. -/
  base : Base
  /-- Its arguments. -/
  arguments : Arguments
  /-- Who casts it. -/
  caller : Caller
deriving DecidableEq

/-- A type of values that carry spells out. -/
class SpellHandler (η : Type) where
  /-- Carries out one spell. -/
  carryOut : η → Casting → η

/-- The spells that were carried out, oldest first. -/
structure Journal where
  /-- The castings in order. -/
  castings : List Casting := []
deriving DecidableEq

namespace Journal

/-- The journal without castings. -/
def empty : Journal := {}

/-- The journal with one more casting at its end. -/
def record (journal : Journal) (casting : Casting) : Journal :=
  ⟨journal.castings ++ [casting]⟩

instance : SpellHandler Journal := ⟨record⟩

/-- A casting is recorded behind those before it. -/
@[simp] theorem castings_record (journal : Journal) (casting : Casting) :
    (journal.record casting).castings = journal.castings ++ [casting] := rfl

/-- The number of castings. -/
def size (journal : Journal) : Nat := journal.castings.length

/-- The latest casting. -/
def last? (journal : Journal) : Option Casting := journal.castings.getLast?

/-- The number of castings of one base. -/
def countOf (journal : Journal) (base : Base) : Nat :=
  (journal.castings.filter fun casting => casting.base == base).length

end Journal

end DiceDuel
