import DiceDuel.Duel.Basic
import DiceDuel.Json.Casting

/-!
# Written forms of duels

Settings, rosters, snapshots, requests, the status, the clock, and the states of the dice.
-/

namespace DiceDuel

instance : JsonForm Phase where
  toJson phase := .text phase.name
  ofJson? j :=
    match j.choice? with
    | some ("startTurn", .null) => some .opening
    | some ("triggerSpell", .null) => some .casting
    | some ("animating", .null) => some .animating
    | some ("endTurn", .null) => some .closing
    | _ => none

instance : JsonForm Strictness where
  toJson
    | .lenient => .bool false
    | .strict => .bool true
  ofJson?
    | .bool false => some .lenient
    | .bool true => some .strict
    | _ => none

instance : JsonForm Settings where
  toJson s := .object
    [("roll_delay", toJson s.rollDelay), ("auto_trigger_delay", toJson s.castDelay),
      ("animation_delay", toJson s.animationDelay), ("first_owner", toJson s.opener),
      ("seed", toJson s.seed), ("strict_ranged_values", toJson s.strictness)]
  ofJson? j := do
    return ⟨← j.get? "roll_delay", ← j.get? "auto_trigger_delay", ← j.get? "animation_delay",
      ← j.get? "first_owner", ← j.get? "seed", ← j.get? "strict_ranged_values"⟩

instance : JsonForm Roster where
  toJson roster := .object
    [("player", toJson roster.player), ("enemies", toJson roster.enemies),
      ("biome", toJson roster.biome)]
  ofJson? j := do
    return ⟨← j.get? "player", ← j.get? "enemies", ← j.get? "biome"⟩

instance : JsonForm Snapshot where
  toJson s := .object
    [("phase", toJson s.phase), ("turn_owner", toJson s.side), ("roll", toJson s.roll),
      ("effect_code", toJson s.offered), ("animating_effect_code", toJson s.shown),
      ("is_rolling", toJson s.rolling), ("turn_number", toJson s.turn)]
  ofJson? j := do
    return ⟨← j.get? "phase", ← j.get? "turn_owner", ← j.get? "roll", ← j.get? "effect_code",
      ← j.get? "animating_effect_code", ← j.get? "is_rolling", ← j.get? "turn_number"⟩

instance : JsonForm Request where
  toJson
    | .roll side => .choice "RollRequested" (toJson side)
    | .cast code => .choice "EffectTriggered" (toJson code)
    | .close => .text "EndTurnConfirmed"
  ofJson? j :=
    match j.choice? with
    | some ("RollRequested", content) => (ofJson? content).map .roll
    | some ("EffectTriggered", content) => (ofJson? content).map .cast
    | some ("EndTurnConfirmed", .null) => some .close
    | _ => none

instance : JsonForm Ending where
  toJson ending := .text ending.name
  ofJson? j :=
    match j.choice? with
    | some ("DeathAfterSpell", .null) => some .afterSpell
    | some ("DeathAfterEndTurnEffects", .null) => some .afterTurnEffects
    | _ => none

instance : JsonForm Status where
  toJson
    | .notStarted => .text "NotStarted"
    | .awaitingRoll => .text "AwaitingRoll"
    | .awaitingCast => .text "AwaitingEffect"
    | .awaitingClose => .text "AwaitingConfirm"
    | .suspended remaining => .choice "Suspended" (.object [("remaining", toJson remaining)])
    | .ended ending => .choice "Ended" (toJson ending)
  ofJson? j :=
    match j.choice? with
    | some ("NotStarted", .null) => some .notStarted
    | some ("AwaitingRoll", .null) => some .awaitingRoll
    | some ("AwaitingEffect", .null) => some .awaitingCast
    | some ("AwaitingConfirm", .null) => some .awaitingClose
    | some ("Suspended", content) => do return .suspended (← content.get? "remaining")
    | some ("Ended", content) => (ofJson? content).map .ended
    | _ => none

instance : JsonForm Deferred where
  toJson
    | .reveal => .text "FinishRoll"
    | .cast code => .choice "AutoTrigger" (toJson code)
    | .settle => .text "FinishAnimation"
  ofJson? j :=
    match j.choice? with
    | some ("FinishRoll", .null) => some .reveal
    | some ("AutoTrigger", content) => (ofJson? content).map .cast
    | some ("FinishAnimation", .null) => some .settle
    | _ => none

instance : JsonForm Appointment where
  toJson appointment := .object
    [("due_at", toJson appointment.due), ("continuation", toJson appointment.step)]
  ofJson? j := do
    return ⟨← j.get? "due_at", ← j.get? "continuation"⟩

instance : JsonForm Clock where
  toJson clock := .object [("now", toJson clock.now), ("pending", toJson clock.pending)]
  ofJson? j := do
    return ⟨← j.get? "now", ← j.get? "pending"⟩

instance : JsonForm ScriptedDice where
  toJson dice := .object
    [("rolls", toJson dice.rolls), ("cursor", .int dice.cursor), ("draws", .int dice.draws)]
  ofJson? j := do
    return ⟨← j.get? "rolls", ← (← j.field? "cursor").natBelow? UInt64.size,
      ← (← j.field? "draws").natBelow? UInt64.size⟩

instance : JsonForm Checkpoint where
  toJson c := .object [("seed", toJson c.seed), ("word_pos", toJson c.position)]
  ofJson? j := do
    return ⟨← j.get? "seed", ← j.get? "word_pos"⟩

end DiceDuel
