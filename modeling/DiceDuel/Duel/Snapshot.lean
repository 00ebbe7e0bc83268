import DiceDuel.Side
import DiceDuel.Spell.Code

/-!
# Snapshots, requests and answers

What a host sees of a duel and says to it: the phases of a turn, the state that is recorded at each
change, the requests that a host makes, what the duel waits for, and why a request is refused.
-/

namespace DiceDuel

/-- The phases of a turn, in their order. -/
inductive Phase where
  /-- The die is to be rolled, or rolls. -/
  | opening
  /-- The face shows, and a spell is to be cast. -/
  | casting
  /-- The spell is cast and shown. -/
  | animating
  /-- The turn is to be closed. -/
  | closing
deriving DecidableEq, Repr, Inhabited

namespace Phase

/-- The phase that follows. -/
def next : Phase → Phase
  | .opening => .casting
  | .casting => .animating
  | .animating => .closing
  | .closing => .opening

/-- The name of a phase in messages and records. -/
def name : Phase → String
  | .opening => "startTurn"
  | .casting => "triggerSpell"
  | .animating => "animating"
  | .closing => "endTurn"

/-- The phases come round after four. -/
theorem next_next_next_next (phase : Phase) : phase.next.next.next.next = phase := by
  cases phase <;> rfl

end Phase

/-- The visible state of a duel. -/
structure Snapshot where
  /-- The phase of the turn. -/
  phase : Phase := .opening
  /-- The side whose turn it is. -/
  side : Side := .player
  /-- The face of the turn, once it shows. -/
  roll : Option UInt8 := none
  /-- The code that the roll offers, then the one that was cast. -/
  offered : Option Code := none
  /-- The code that is shown. -/
  shown : Option Code := none
  /-- Whether the die rolls. -/
  rolling : Bool := false
  /-- The number of the turn, from one on. -/
  turn : UInt32 := 0
deriving DecidableEq, Repr, Inhabited

namespace Snapshot

/-- The code to display: the one that is shown, else the one on offer. -/
def displayed? (s : Snapshot) : Option Code := s.shown.or s.offered

/-- The heading of the turn that comes next. -/
def nextTurnLabel (s : Snapshot) : String := s.side.opposite.turnLabel

end Snapshot

/-- What a host asks for. -/
inductive Request where
  /-- A side rolls the die. -/
  | roll (side : Side)
  /-- A code is cast. -/
  | cast (code : Code)
  /-- The turn is closed. -/
  | close
deriving DecidableEq, Repr

namespace Request

/-- The name of a request in messages. -/
def name : Request → String
  | .roll _ => "roll requested"
  | .cast _ => "effect triggered"
  | .close => "end turn confirmed"

/-- The phase in which a request is made. -/
def phase : Request → Phase
  | .roll _ => .opening
  | .cast _ => .casting
  | .close => .closing

end Request

/-- At which of the two checks of a turn a duel ended. -/
inductive Ending where
  /-- After the spell. -/
  | afterSpell
  /-- After the effects of the turn's end. -/
  | afterTurnEffects
deriving DecidableEq, Repr

/-- The name of an ending in messages and records. -/
def Ending.name : Ending → String
  | .afterSpell => "DeathAfterSpell"
  | .afterTurnEffects => "DeathAfterEndTurnEffects"

/-- What a duel waits for. -/
inductive Status where
  /-- For its start. -/
  | notStarted
  /-- For a roll. -/
  | awaitingRoll
  /-- For a code. -/
  | awaitingCast
  /-- For the turn to be closed. -/
  | awaitingClose
  /-- For time to pass. -/
  | suspended (remaining : UInt64)
  /-- For nothing more. -/
  | ended (ending : Ending)
deriving DecidableEq, Repr

/-- Whether a duel waits for a request. -/
def Status.awaitsRequest : Status → Bool
  | .awaitingRoll | .awaitingCast | .awaitingClose => true
  | .notStarted | .suspended _ | .ended _ => false

/-- Why a call is refused. -/
inductive Refusal where
  /-- The duel has not started. -/
  | notStarted
  /-- The duel has started before. -/
  | alreadyStarted
  /-- The duel is over. -/
  | ended (ending : Ending)
  /-- A step is still on the clock. -/
  | busy (request : Request) (remaining : UInt64)
  /-- The request belongs to another phase. -/
  | wrongPhase (request : Request) (phase : Phase)
  /-- It is the other side's turn. -/
  | notYourTurn (requested current : Side)
  /-- The turn runs by itself. -/
  | automatedTurn (request : Request) (side : Side)
deriving DecidableEq, Repr

/-- The text of a refusal. -/
def Refusal.message : Refusal → String
  | .notStarted => "battle has not started"
  | .alreadyStarted => "battle already started"
  | .ended ending => "battle has ended (" ++ ending.name ++ ")"
  | .busy request remaining =>
    request.name ++ " rejected: continuation pending for " ++ toString remaining.toNat
      ++ " more units"
  | .wrongPhase request phase => request.name ++ " not accepted during " ++ phase.name
  | .notYourTurn requested current =>
    requested.name ++ " cannot act during the " ++ current.name ++ " turn"
  | .automatedTurn request side =>
    request.name ++ " not accepted: " ++ side.name ++ " turns run automatically"

end DiceDuel
