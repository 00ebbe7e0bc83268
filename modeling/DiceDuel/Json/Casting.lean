import DiceDuel.Casting.Outcome
import DiceDuel.Json.Spell

/-!
# Written forms of castings

Arguments, callers, castings, the journal, verdicts and outcomes.
-/

namespace DiceDuel

instance : JsonForm Side where
  toJson side := .text side.name
  ofJson? j :=
    match j.choice? with
    | some ("player", .null) => some .player
    | some ("enemy", .null) => some .enemy
    | _ => none

instance : JsonForm Params where
  toJson
    | .amount amount => .choice "Amount" (.object [("amount", toJson amount)])
    | .duration duration => .choice "Duration" (.object [("duration", toJson duration)])
    | .confuse slots damage =>
      .choice "Confuse" (.object [("marked_slots", toJson slots), ("damage_amount", toJson damage)])
    | .buff amount duration tier cls =>
      .choice "Buff" (.object
        [("buff_amount", toJson amount), ("duration", toJson duration),
          ("target_tier", toJson tier), ("buff_class", toJson cls)])
    | .charge amount tier cls =>
      .choice "Charge" (.object
        [("charge_amount", toJson amount), ("target_tier", toJson tier),
          ("charge_class", toJson cls)])
    | .diceTrigger => .text "DiceTrigger"
  ofJson? j :=
    match j.choice? with
    | some ("Amount", content) => do return .amount (← content.get? "amount")
    | some ("Duration", content) => do return .duration (← content.get? "duration")
    | some ("Confuse", content) => do
      return .confuse (← content.get? "marked_slots") (← content.get? "damage_amount")
    | some ("Buff", content) => do
      return .buff (← content.get? "buff_amount") (← content.get? "duration")
        (← content.get? "target_tier") (← content.get? "buff_class")
    | some ("Charge", content) => do
      return .charge (← content.get? "charge_amount") (← content.get? "target_tier")
        (← content.get? "charge_class")
    | some ("DiceTrigger", .null) => some .diceTrigger
    | _ => none

instance : JsonForm Arguments where
  toJson arguments := .object
    [("scaling", toJson arguments.scaling), ("params", toJson arguments.params)]
  ofJson? j := do
    return ⟨← j.get? "scaling", ← j.get? "params"⟩

instance : JsonForm Caller where
  toJson caller := .object [("turn_owner", toJson caller.side), ("roll", toJson caller.roll)]
  ofJson? j := do
    return ⟨← j.get? "turn_owner", ← j.get? "roll"⟩

instance : JsonForm Casting where
  toJson casting := .object
    [("base", toJson casting.base), ("params", toJson casting.arguments),
      ("context", toJson casting.caller)]
  ofJson? j := do
    return ⟨← j.get? "base", ← j.get? "params", ← j.get? "context"⟩

instance : JsonForm Journal where
  toJson journal := .object [("invocations", toJson journal.castings)]
  ofJson? j := do
    return ⟨← j.get? "invocations"⟩

instance : JsonForm Verdict where
  toJson
    | .proceed face => .choice "Proceed" (toJson face)
    | .cancel face => .choice "Cancel" (toJson face)
  ofJson? j :=
    match j.choice? with
    | some ("Proceed", content) => (ofJson? content).map .proceed
    | some ("Cancel", content) => (ofJson? content).map .cancel
    | _ => none

instance : JsonForm Outcome where
  toJson
    | .cast base arguments gate =>
      .choice "Dispatched" (.object
        [("base", toJson base), ("params", toJson arguments), ("roll_again", toJson gate)])
    | .fizzled gate => .choice "Fizzled" (.object [("roll_again", toJson gate)])
    | .unknownBase base => .choice "NoHandler" (.object [("base", toJson base)])
    | .rejected base fault =>
      .choice "Rejected" (.object [("base", toJson base), ("error", toJson fault)])
  ofJson? j :=
    match j.choice? with
    | some ("Dispatched", content) => do
      return .cast (← content.get? "base") (← content.get? "params") (← content.get? "roll_again")
    | some ("Fizzled", content) => do return .fizzled (← content.get? "roll_again")
    | some ("NoHandler", content) => do return .unknownBase (← content.get? "base")
    | some ("Rejected", content) => do
      return .rejected (← content.get? "base") (← content.get? "error")
    | _ => none

end DiceDuel
