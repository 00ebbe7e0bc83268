import DiceDuel.Die.Face
import DiceDuel.Text.Quoted

/-!
# Bases: the catalog of spells

A base is one kind of spell, written with three letters. Most have letters of their own; buffs and
charges are composed of a focus and a reach, and each face of the die has a base. This file holds
the catalog, the letters, the reading of letters, and the inputs that each base takes.
-/

namespace DiceDuel

/-- The stat that a buff or a charge moves. -/
inductive Focus where
  /-- The attack. -/
  | attack
  /-- The guard. -/
  | guard
  /-- The attack and the guard. -/
  | both
deriving DecidableEq, Repr

/-- The allies that a buff or a charge reaches. -/
inductive Reach where
  /-- The allies on the left. -/
  | left
  /-- The allies on the right. -/
  | right
  /-- The greater ones. -/
  | greater
  /-- The fewer ones. -/
  | fewer
  /-- All the others. -/
  | allOther
deriving DecidableEq, Repr

/-- Bases that take the same inputs. -/
inductive Family where
  /-- One amount. -/
  | amount
  /-- One duration. -/
  | duration
  /-- Marked slots and a damage. -/
  | confuse
  /-- An amount, a duration, a tier and a class. -/
  | buff
  /-- An amount, a tier and a class. -/
  | charge
  /-- No inputs. -/
  | diceTrigger
deriving DecidableEq, Repr

/-- One input of a base. -/
structure Slot where
  /-- The name under which a value is supplied. -/
  key : String
  /-- The letter of the input's group; the leading group has none. -/
  letter : Option Char
deriving DecidableEq, Repr

/-- A kind of spell. -/
inductive Base where
  /-- Attacks. -/
  | attack
  /-- Prepares an attack. -/
  | prepAttack
  /-- Guards. -/
  | guard
  /-- Heals. -/
  | heal
  /-- Stuns. -/
  | stun
  /-- Freezes. -/
  | freeze
  /-- Empowers. -/
  | empower
  /-- Marks slots. -/
  | confuse
  /-- Buffs a stat of some allies. -/
  | buff (focus : Focus) (reach : Reach)
  /-- Charges a stat of some allies. -/
  | charge (focus : Focus) (reach : Reach)
  /-- The spell of a rolled face. -/
  | dice (face : UInt8)
deriving DecidableEq, Repr

namespace Focus

/-- Every focus, in catalog order. -/
def all : List Focus := [.attack, .guard, .both]

/-- The name of a focus in labels. -/
def label : Focus → String
  | .attack => "Attack"
  | .guard => "Guard"
  | .both => "Attack/Guard"

/-- The second letter of a buff. -/
def buffLetter : Focus → Char
  | .attack => 'A'
  | .guard => 'G'
  | .both => 'F'

/-- The second letter of a charge. -/
def chargeLetter : Focus → Char
  | .attack => 'A'
  | .guard => 'G'
  | .both => 'H'

/-- The focus with a second letter in buffs. -/
def ofBuffLetter? : Char → Option Focus
  | 'A' => some .attack
  | 'G' => some .guard
  | 'F' => some .both
  | _ => none

/-- The focus with a second letter in charges. -/
def ofChargeLetter? : Char → Option Focus
  | 'A' => some .attack
  | 'G' => some .guard
  | 'H' => some .both
  | _ => none

end Focus

namespace Reach

/-- Every reach, in catalog order. -/
def all : List Reach := [.left, .right, .greater, .fewer, .allOther]

/-- The name of a reach in labels. -/
def label : Reach → String
  | .left => "Left"
  | .right => "Right"
  | .greater => "Greater"
  | .fewer => "Fewer"
  | .allOther => "All Other"

/-- The third letter of a buff or a charge. -/
def letter : Reach → Char
  | .left => 'L'
  | .right => 'R'
  | .greater => 'G'
  | .fewer => 'F'
  | .allOther => 'A'

/-- The reach with a third letter. -/
def ofLetter? : Char → Option Reach
  | 'L' => some .left
  | 'R' => some .right
  | 'G' => some .greater
  | 'F' => some .fewer
  | 'A' => some .allOther
  | _ => none

end Reach

/-- The inputs of a family, in the order in which they are written. -/
def Family.slots : Family → List Slot
  | .amount => [⟨"amount", none⟩]
  | .duration => [⟨"duration", none⟩]
  | .confuse => [⟨"marked_slots", none⟩, ⟨"damage_amount", some 'D'⟩]
  | .buff => [⟨"buff_amount", none⟩, ⟨"duration", some 'D'⟩, ⟨"target_tier", some 'T'⟩,
      ⟨"buff_class", some 'C'⟩]
  | .charge => [⟨"charge_amount", none⟩, ⟨"target_tier", some 'T'⟩, ⟨"charge_class", some 'C'⟩]
  | .diceTrigger => []

namespace Base

/-- The three letters of a base. A face outside the die is written as the nearest one. -/
def letters : Base → List Char
  | .attack => ['A', 'T', 'T']
  | .prepAttack => ['P', 'A', 'T']
  | .guard => ['G', 'U', 'A']
  | .heal => ['H', 'E', 'A']
  | .stun => ['S', 'T', 'U']
  | .freeze => ['F', 'R', 'Z']
  | .empower => ['E', 'M', 'P']
  | .confuse => ['C', 'O', 'N']
  | .buff focus reach => ['B', focus.buffLetter, reach.letter]
  | .charge focus reach => ['C', focus.chargeLetter, reach.letter]
  | .dice face => ['I', 'D', Nat.digitChar (Die.clamp face).toNat]

/-- The written form of a base. -/
def code (base : Base) : String := String.ofList base.letters

/-- The base without parts written with the given letters, if there is one. -/
def ofFixedLetters? : List Char → Option Base
  | ['A', 'T', 'T'] => some .attack
  | ['P', 'A', 'T'] => some .prepAttack
  | ['G', 'U', 'A'] => some .guard
  | ['H', 'E', 'A'] => some .heal
  | ['S', 'T', 'U'] => some .stun
  | ['F', 'R', 'Z'] => some .freeze
  | ['E', 'M', 'P'] => some .empower
  | ['C', 'O', 'N'] => some .confuse
  | _ => none

/-- The face with a third letter. -/
def faceOfLetter? : Char → Option UInt8
  | '1' => some 1
  | '2' => some 2
  | '3' => some 3
  | '4' => some 4
  | '5' => some 5
  | '6' => some 6
  | _ => none

/-- The base with a focus and a reach, or with a face, written with the given letters, if there is
one. -/
def ofComposedLetters? : List Char → Option Base
  | ['B', f, r] => do return .buff (← Focus.ofBuffLetter? f) (← Reach.ofLetter? r)
  | ['C', f, r] => do return .charge (← Focus.ofChargeLetter? f) (← Reach.ofLetter? r)
  | ['I', 'D', d] => do return .dice (← faceOfLetter? d)
  | _ => none

/-- The base written with the given letters, if there is one. A base without parts comes first, since
a confusion begins like a charge. -/
def ofLetters? (letters : List Char) : Option Base :=
  (ofFixedLetters? letters).or (ofComposedLetters? letters)

/-- The base with a written form, if there is one. -/
def ofCode? (text : String) : Option Base := ofLetters? text.toList

/-- The base of a rolled face; there is none outside the die. -/
def ofFace? (face : UInt8) : Option Base :=
  if 1 ≤ face ∧ face ≤ Die.faces then some (.dice face) else none

/-- What a text that names no base is refused with. -/
def unknownMessage (text : String) : String :=
  "no spell handler for base code " ++ Text.quote text

/-- The family of a base. -/
def family : Base → Family
  | .attack | .prepAttack | .guard | .heal => .amount
  | .stun | .freeze | .empower => .duration
  | .confuse => .confuse
  | .buff .. => .buff
  | .charge .. => .charge
  | .dice _ => .diceTrigger

/-- The inputs of a base, in the order in which they are written. -/
def slots (base : Base) : List Slot := base.family.slots

/-- The name of a base for people. -/
def label : Base → String
  | .attack => "Attack"
  | .prepAttack => "Prep Attack"
  | .guard => "Guard"
  | .heal => "Heal"
  | .stun => "Stun"
  | .freeze => "Freeze"
  | .empower => "Empower"
  | .confuse => "Confuse"
  | .buff focus reach => "Buff " ++ focus.label ++ " (" ++ reach.label ++ ")"
  | .charge focus reach => "Charge " ++ focus.label ++ " (" ++ reach.label ++ ")"
  | .dice face => "Dice Trigger " ++ toString face.toNat

/-- Every base of the catalog, in its order. -/
def all : List Base :=
  [.attack, .prepAttack, .guard]
    ++ Reach.all.flatMap (fun reach => Focus.all.map (.buff · reach))
    ++ [.stun, .freeze, .confuse, .heal, .empower]
    ++ Reach.all.flatMap (fun reach => Focus.all.map (.charge · reach))
    ++ [1, 2, 3, 4, 5, 6].map .dice

end Base

end DiceDuel
