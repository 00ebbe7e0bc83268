import DiceDuel.HashTable.Basic
import DiceDuel.Spell.Basic
import DiceDuel.Text.Blank
import DiceDuel.Text.Hash

/-!
# Drafts

A draft collects what a spell needs: a base, a value for each of its inputs, a scaling and the
roll-again mark. It is written as a code once everything is there, or refused with the first fault:
a key the base does not take, then the scaling, then the inputs in the order of the code. Of several
keys that the base does not take the one is named that comes first in the table of the values.
-/

namespace DiceDuel

/-- A spell in the making. -/
structure Draft where
  /-- The base to write. -/
  base : Base
  /-- The values supplied so far, by key. -/
  values : HashTable Text.hash String := ∅
  /-- Tier, level and progression rate. -/
  scaling : Option (UInt8 × UInt8 × UInt8) := none
  /-- Whether a die decides first if the spell goes ahead. -/
  rollAgain : Bool := false
deriving DecidableEq

namespace Draft

/-- Why a draft cannot be written. -/
inductive Fault where
  /-- A value was supplied for a key that the base does not take. -/
  | unknownKey (base : Base) (key : String)
  /-- There is no scaling. -/
  | missingScaling
  /-- A scaling value does not fit one digit. -/
  | notOneDigit (field : String) (value : UInt8)
  /-- An input has no value, or only white space. -/
  | missingValue (base : Base) (key : String)
  /-- A value holds the brace that would end its group. -/
  | closingBrace (key : String)
deriving DecidableEq

/-- The text of a fault. -/
def Fault.message : Fault → String
  | .unknownKey base key => base.code ++ " has no parameter " ++ Text.quote key
  | .missingScaling => "tier, level and progression rate are required"
  | .notOneDigit field value =>
    field ++ " must be a single digit, got " ++ toString value.toNat
  | .missingValue base key => base.code ++ " requires parameter " ++ Text.quote key
  | .closingBrace key => "value for " ++ Text.quote key ++ " cannot contain '\x7d'"

/-- A draft with a value for a key, in place of any other. -/
def withValue (draft : Draft) (key value : String) : Draft :=
  { draft with values := draft.values.insert key value }

/-- A draft with tier, level and progression rate. -/
def withScaling (draft : Draft) (tier level rate : UInt8) : Draft :=
  { draft with scaling := some (tier, level, rate) }

/-- A draft with the roll-again mark set or not. -/
def withRollAgain (draft : Draft) (enabled : Bool) : Draft := { draft with rollAgain := enabled }

/-- Whether a base takes a value with a key. -/
def takes (base : Base) (key : String) : Bool := base.slots.any fun slot => slot.key == key

/-- The first supplied key, in the order of the table, that the base does not take. -/
def unknownKey? (draft : Draft) : Option String :=
  (draft.values.entries.find? fun entry => !takes draft.base entry.1).map (·.1)

/-- The first scaling value that does not fit one digit, with its name. -/
def wideField? (tier level rate : UInt8) : Option (String × UInt8) :=
  [("tier", tier), ("level", level), ("progression_rate", rate)].find? fun field => 9 < field.2

/-- The characters of one input: its letter and its value, trimmed, in braces. -/
def slotChars (draft : Draft) (slot : Slot) : Except Fault (List Char) :=
  match Text.trimChars ((draft.values.get? slot.key).getD "").toList with
  | [] => .error (.missingValue draft.base slot.key)
  | value =>
    if value.contains '}' then .error (.closingBrace slot.key)
    else .ok (slot.letter.toList ++ Spell.group (String.ofList value))

/-- The characters of every input, in the order of the code. -/
def slotsChars (draft : Draft) : List Slot → Except Fault (List Char)
  | [] => .ok []
  | slot :: rest =>
    match slotChars draft slot with
    | .error fault => .error fault
    | .ok chars =>
      match slotsChars draft rest with
      | .error fault => .error fault
      | .ok more => .ok (chars ++ more)

/-- The code of a draft, or its first fault. -/
def write (draft : Draft) : Except Fault Code :=
  match draft.unknownKey?, draft.scaling with
  | some key, _ => .error (.unknownKey draft.base key)
  | none, none => .error .missingScaling
  | none, some (tier, level, rate) =>
    match wideField? tier level rate with
    | some (field, value) => .error (.notOneDigit field value)
    | none =>
      match draft.slotsChars draft.base.slots with
      | .error fault => .error fault
      | .ok inputs =>
        .ok ⟨String.ofList ((if draft.rollAgain then Spell.rollAgainMark else [])
          ++ draft.base.letters ++ inputs ++ Spell.scalingSuffix (.of tier level rate))⟩

/-- Whether a draft can be written. -/
def isComplete (draft : Draft) : Bool := draft.write.toBool

end Draft

end DiceDuel
