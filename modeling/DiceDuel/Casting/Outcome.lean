import DiceDuel.Casting.Gate
import DiceDuel.Casting.Journal
import DiceDuel.Spell.Reader

/-!
# Casting codes

Casting takes a code apart, draws a die if the code is gated, looks the base up, resolves the
arguments and hands the spell over. The gate comes first, so a gated code draws its die whether or
not its base is known. The outcome says how far it went; a spell is handed over only for a cast one.
-/

namespace DiceDuel

/-- How the casting of a code went. -/
inductive Outcome where
  /-- The spell was handed over; the face is that of a gate that was passed. -/
  | cast (base : Base) (arguments : Arguments) (gate : Option UInt8)
  /-- The gate showed an odd face. -/
  | fizzled (gate : UInt8)
  /-- The base is not in the catalog. -/
  | unknownBase (base : String)
  /-- A token had a fault and faults are not allowed. -/
  | rejected (base : Base) (fault : TokenFault)
deriving DecidableEq

namespace Outcome

/-- Whether the spell was handed over. -/
def isCast : Outcome → Bool
  | .cast .. => true
  | _ => false

/-- The face that the outcome reports of a gate. -/
def gateFace? : Outcome → Option UInt8
  | .cast _ _ gate => gate
  | .fizzled gate => some gate
  | .unknownBase _ => none
  | .rejected .. => none

end Outcome

namespace Casting

variable {δ η : Type} [DieSource δ] [SpellHandler η]

/-- Hands over a spell that passed its gate, if it had one. -/
def handOver (strictness : Strictness) (spell : Spell) (caller : Caller) (gate : Option UInt8)
    (handler : η) : Outcome × η :=
  match spell.knownBase? with
  | none => (.unknownBase spell.base, handler)
  | some base =>
    match Arguments.ofSpell strictness base spell with
    | .error fault => (.rejected base fault, handler)
    | .ok arguments =>
      (.cast base arguments gate, SpellHandler.carryOut handler ⟨base, arguments, caller⟩)

/-- Casts a code. -/
def castCode (strictness : Strictness) (code : Code) (caller : Caller) (dice : δ) (handler : η) :
    Outcome × δ × η :=
  let spell := Spell.ofCode code
  if spell.rollAgain then
    match Verdict.draw dice with
    | (.cancel face, dice) => (.fizzled face, dice, handler)
    | (.proceed face, dice) =>
      let (outcome, handler) := handOver strictness spell caller (some face) handler
      (outcome, dice, handler)
  else
    let (outcome, handler) := handOver strictness spell caller none handler
    (outcome, dice, handler)

end Casting

end DiceDuel
