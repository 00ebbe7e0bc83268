import DiceDuel.Spell.Basic
import DiceDuel.Spell.Value

/-!
# Arguments

Before a spell is carried out its tokens are resolved into the arguments that the family of its
base takes. A lenient resolution leaves an argument out when its token has a fault; a strict one
refuses the spell with the first fault. Only the tokens that the family takes are looked at.
-/

namespace DiceDuel

/-- The arguments of one family. -/
inductive Params where
  /-- How much. -/
  | amount (amount : Option Value)
  /-- How long. -/
  | duration (duration : Option Value)
  /-- Which slots are marked, and the damage. -/
  | confuse (markedSlots damageAmount : Option Value)
  /-- How much, how long, and on whom by tier and class; a class is a text and is not resolved. -/
  | buff (buffAmount duration targetTier : Option Value) (buffClass : Option String)
  /-- How much, and on whom by tier and class. -/
  | charge (chargeAmount targetTier : Option Value) (chargeClass : Option String)
  /-- Nothing. -/
  | diceTrigger
deriving DecidableEq

/-- Everything that a spell is carried out with besides its base. -/
structure Arguments where
  /-- The scaling, as read. -/
  scaling : Scaling
  /-- The arguments of the family. -/
  params : Params
deriving DecidableEq

/-- How a token with a fault is treated. -/
inductive Strictness where
  /-- Its argument is left out. -/
  | lenient
  /-- The spell is refused. -/
  | strict
deriving DecidableEq, Repr

namespace Arguments

/-- Resolves an optional token. -/
def resolve (strictness : Strictness) (scaling : Scaling) :
    Option String → Except TokenFault (Option Value)
  | none => .ok none
  | some raw =>
    match Value.ofToken scaling raw, strictness with
    | .ok value, _ => .ok (some value)
    | .error fault, .strict => .error fault
    | .error _, .lenient => .ok none

/-- The arguments that a family takes from a spell, or the first fault among its tokens. For a
confusion the marked slots are taken from the token M when the leading one gives none. -/
def ofFamily (strictness : Strictness) (spell : Spell) (family : Family) :
    Except TokenFault Params := do
  let value := resolve strictness spell.scaling
  match family with
  | .amount => return .amount (← value spell.first)
  | .duration => return .duration (← value spell.first)
  | .confuse =>
    let leading ← value spell.first
    let slots ← if leading.isSome then pure leading else value (spell.token? 'M')
    return .confuse slots (← value (spell.token? 'D'))
  | .buff =>
    return .buff (← value spell.first) (← value (spell.token? 'D')) (← value (spell.token? 'T'))
      (spell.token? 'C')
  | .charge =>
    return .charge (← value spell.first) (← value (spell.token? 'T')) (spell.token? 'C')
  | .diceTrigger => return .diceTrigger

/-- The arguments that a base takes from a spell, or the first fault among its tokens. -/
def ofSpell (strictness : Strictness) (base : Base) (spell : Spell) :
    Except TokenFault Arguments := do
  return ⟨spell.scaling, ← ofFamily strictness spell base.family⟩

end Arguments

end DiceDuel
