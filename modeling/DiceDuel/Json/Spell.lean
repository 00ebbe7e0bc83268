import DiceDuel.Json.Basic
import DiceDuel.Spell.Reader
import DiceDuel.Spell.Value

/-!
# Written forms of spells

Bases and codes are written as their text, values and faults as choices, and a spell as a record
whose lettered tokens are an object with a field for each letter.
-/

namespace DiceDuel

instance : JsonForm Base where
  toJson base := .text base.code
  ofJson?
    | .text s => Base.ofCode? s
    | _ => none

instance : JsonForm Code where
  toJson code := .text code.text
  ofJson?
    | .text s => some ⟨s⟩
    | _ => none

/-- The name of a family in records. -/
def Family.name : Family → String
  | .amount => "Amount"
  | .duration => "Duration"
  | .confuse => "Confuse"
  | .buff => "Buff"
  | .charge => "Charge"
  | .diceTrigger => "DiceTrigger"

instance : JsonForm Family where
  toJson family := .text family.name
  ofJson? j :=
    match j.choice? with
    | some ("Amount", .null) => some .amount
    | some ("Duration", .null) => some .duration
    | some ("Confuse", .null) => some .confuse
    | some ("Buff", .null) => some .buff
    | some ("Charge", .null) => some .charge
    | some ("DiceTrigger", .null) => some .diceTrigger
    | _ => none

instance : JsonForm Scaling where
  toJson s := .object
    [("tier", toJson s.tier), ("level", toJson s.level), ("progression_rate", toJson s.rate)]
  ofJson? j := do
    return ⟨← j.get? "tier", ← j.get? "level", ← j.get? "progression_rate"⟩

instance : JsonForm Band where
  toJson band := .object
    [("r_number", toJson band.number), ("min", toJson band.low), ("max", toJson band.high)]
  ofJson? j := do
    return ⟨← j.get? "r_number", ← j.get? "min", ← j.get? "max"⟩

instance : JsonForm Value where
  toJson
    | .integer n => .choice "Integer" (toJson n)
    | .sequence indices => .choice "Sequence" (toJson indices)
    | .literal s => .choice "Literal" (toJson s)
  ofJson? j :=
    match j.choice? with
    | some ("Integer", content) => (ofJson? content).map .integer
    | some ("Sequence", content) => (ofJson? content).map .sequence
    | some ("Literal", content) => (ofJson? content).map .literal
    | _ => none

instance : JsonForm TokenFault where
  toJson
    | .unknownBand number => .choice "UnknownRangedValue" (toJson number)
    | .tooManyIndices requested limit =>
      .choice "IndexRangeTooLarge"
        (.object [("requested", toJson requested), ("limit", toJson limit)])
  ofJson? j :=
    match j.choice? with
    | some ("UnknownRangedValue", content) => (ofJson? content).map .unknownBand
    | some ("IndexRangeTooLarge", content) => do
      return .tooManyIndices (← content.get? "requested") (← content.get? "limit")
    | _ => none

/-- The character that a text of one character holds. -/
def singleChar? (s : String) : Option Char :=
  match s.toList with
  | [c] => some c
  | _ => none

/-- The entry of a field whose name is a letter and whose content is a token. -/
def tokenOfField? (field : String × Json) : Option (Char × String) := do
  return (← singleChar? field.1, ← ofJson? field.2)

instance : JsonForm (SortedMap Char String) where
  toJson tokens := .object (tokens.entries.map fun e => (String.singleton e.1, toJson e.2))
  ofJson?
    | .object fields => (fields.mapM tokenOfField?).map .ofList
    | _ => none

instance : JsonForm Spell where
  toJson spell := .object
    [("base", toJson spell.base), ("first_value", toJson spell.first),
      ("token_values", toJson spell.tokens), ("scaling", toJson spell.scaling),
      ("roll_again", toJson spell.rollAgain)]
  ofJson? j := do
    return ⟨← j.get? "base", ← j.get? "first_value", ← j.get? "token_values", ← j.get? "scaling",
      ← j.get? "roll_again"⟩

end DiceDuel
