import DiceDuel.Casting.Outcome
import DiceDuel.Duel.Clock
import DiceDuel.Duel.Hooks
import DiceDuel.Duel.Settings
import DiceDuel.Random.Generator

/-!
# Duels

A duel drives two sides through their turns: a roll, a spell, its animation, the end of the turn. The
host makes requests and moves the clock; whatever takes time is a step on the clock, which fires when
the clock reaches it. The bookkeeper, the handler of spells and the dice are values of the host.
Every change of the visible state is recorded.
-/

namespace DiceDuel

/-- A duel with its bookkeeper, its handler of spells and its dice. -/
structure Duel (χ η δ : Type) where
  /-- What the host decided before. -/
  settings : Settings
  /-- The bookkeeper. -/
  hooks : χ
  /-- What carries spells out. -/
  handler : η
  /-- The dice. -/
  dice : δ
  /-- The visible state. -/
  current : Snapshot
  /-- The clock. -/
  clock : Clock
  /-- The recorded states, oldest first. -/
  history : List Snapshot
  /-- How each code went, oldest first. -/
  outcomes : List Outcome
  /-- Whether the duel has started. -/
  started : Bool
  /-- How the duel ended, if it has. -/
  ending : Option Ending
deriving DecidableEq

namespace Duel

variable {χ η δ : Type}

/-- A duel that has not started. -/
def new (settings : Settings) (hooks : χ) (handler : η) (dice : δ) : Duel χ η δ where
  settings
  hooks
  handler
  dice
  current := { side := settings.opener }
  clock := {}
  history := []
  outcomes := []
  started := false
  ending := none

/-- A duel that keeps only a journal, with the dice of its settings' seed. -/
def ofSettings (settings : Settings) : Duel Silent Journal Generator :=
  new settings {} .empty ((Generator.ofSeed settings.seed).named "turn-dice")

/-- What the duel waits for. -/
def status (duel : Duel χ η δ) : Status :=
  if !duel.started then .notStarted
  else
    match duel.ending, duel.clock.remaining?, duel.current.phase with
    | some ending, _, _ => .ended ending
    | none, some remaining, _ => .suspended remaining
    | none, none, .opening => .awaitingRoll
    | none, none, .casting => .awaitingCast
    | none, none, .closing => .awaitingClose
    | none, none, .animating => .suspended 0

variable [Hooks χ]

/-- Makes a state the visible one, tells the bookkeeper and records it. -/
def commit (duel : Duel χ η δ) (snapshot : Snapshot) : Duel χ η δ :=
  { duel with
    current := snapshot
    hooks := Hooks.onTransition duel.hooks snapshot
    history := duel.history ++ [snapshot] }

/-- Lets the die roll. -/
def startRoll (duel : Duel χ η δ) : Duel χ η δ :=
  let duel := duel.commit { duel.current with rolling := true, roll := none }
  { duel with clock := duel.clock.schedule duel.settings.rollDelay .reveal }

/-- Opens the turn of a side. An automated side rolls at once. -/
def openTurn (duel : Duel χ η δ) (side : Side) : Duel χ η δ :=
  let duel := duel.commit { side, turn := duel.current.turn + 1 }
  let duel := { duel with hooks := Hooks.startTurn duel.hooks side }
  if side.isAutomated then duel.startRoll else duel

/-- Draws the face of the turn and offers its code. An automated side will cast it. -/
def reveal [DieSource δ] (duel : Duel χ η δ) : Duel χ η δ :=
  let side := duel.current.side
  let (roll, dice) := DieSource.roll duel.dice
  let face := Die.clamp roll
  let code := Code.ofFace face
  let duel := { duel with dice, hooks := Hooks.rollEffects duel.hooks side face }
  let duel := duel.commit
    { duel.current with
      phase := .casting
      roll := some face
      rolling := false
      offered := some code }
  if side.isAutomated then
    { duel with clock := duel.clock.schedule duel.settings.castDelay (.cast code) }
  else duel

/-- Casts a code and starts its animation. -/
def cast [SpellHandler η] [DieSource δ] (duel : Duel χ η δ) (code : Code) : Duel χ η δ :=
  let caller : Caller := ⟨duel.current.side, duel.current.roll⟩
  let (outcome, dice, handler) :=
    Casting.castCode duel.settings.strictness code caller duel.dice duel.handler
  let duel := { duel with dice, handler, outcomes := duel.outcomes ++ [outcome] }
  let duel := duel.commit
    { duel.current with phase := .animating, offered := some code, shown := some code }
  { duel with clock := duel.clock.schedule duel.settings.animationDelay .settle }

/-- Asks the bookkeeper whether somebody has died. -/
def checkDeath (duel : Duel χ η δ) : Bool × Duel χ η δ :=
  let (dead, hooks) := Hooks.deathCheck duel.hooks
  (dead, { duel with hooks })

/-- Ends the animation: a check, the effects of the turn's end, and a second check. If both find
nobody dead the turn can be closed. -/
def settle (duel : Duel χ η δ) : Duel χ η δ :=
  match duel.checkDeath with
  | (true, duel) => { duel with ending := some .afterSpell }
  | (false, duel) =>
    let duel := { duel with hooks := Hooks.endTurnEffects duel.hooks duel.current.side }
    match duel.checkDeath with
    | (true, duel) => { duel with ending := some .afterTurnEffects }
    | (false, duel) => duel.commit { duel.current with phase := .closing }

/-- Why a request is refused, if it is. -/
def refusal? (duel : Duel χ η δ) (request : Request) : Option Refusal :=
  let current := duel.current
  if !duel.started then some .notStarted
  else
    match duel.ending with
    | some ending => some (.ended ending)
    | none =>
      if current.phase ≠ request.phase then some (.wrongPhase request current.phase)
      else
        let busy := duel.clock.remaining?.map (.busy request)
        match request with
        | .roll side =>
          if side ≠ current.side then some (.notYourTurn side current.side)
          else if side.isAutomated then some (.automatedTurn request side)
          else busy
        | .cast _ =>
          if current.side.isAutomated then some (.automatedTurn request current.side) else busy
        | .close => busy

variable [SpellHandler η] [DieSource δ]

/-- Carries out a step that was on the clock. -/
def fire (duel : Duel χ η δ) : Deferred → Duel χ η δ
  | .reveal => duel.reveal
  | .cast code => duel.cast code
  | .settle => duel.settle

/-- Starts the duel, unless it has started before: the answer and the duel afterwards. -/
def start (duel : Duel χ η δ) (roster : Roster) : Except Refusal Status × Duel χ η δ :=
  if duel.started then (.error .alreadyStarted, duel)
  else
    let duel := { duel with started := true, hooks := Hooks.startBattle duel.hooks roster }
    let duel := duel.openTurn duel.settings.opener
    (.ok duel.status, duel)

/-- Carries out a request, unless it is refused: the answer and the duel afterwards. -/
def handle (duel : Duel χ η δ) (request : Request) : Except Refusal Status × Duel χ η δ :=
  match duel.refusal? request with
  | some refusal => (.error refusal, duel)
  | none =>
    let duel :=
      match request with
      | .roll _ => duel.startRoll
      | .cast code => duel.cast code
      | .close => duel.openTurn duel.current.side.opposite
    (.ok duel.status, duel)

/-- How many steps can follow one another from a pending step on: a reveal may put off a cast, a cast
puts off the settling, and after that nothing is put off. -/
def stepsAhead (clock : Clock) : Nat :=
  match clock.pending.map Appointment.step with
  | none => 0
  | some .settle => 1
  | some (.cast _) => 2
  | some .reveal => 3

/-- Fires at most a number of steps, each one that is due by a deadline. -/
def fireDue (deadline : UInt64) : Nat → Duel χ η δ → Duel χ η δ
  | 0, duel => duel
  | n + 1, duel =>
    match duel.clock.takeDue? deadline with
    | none => duel
    | some (step, clock) => fireDue deadline n ({ duel with clock }.fire step)

/-- Lets time pass, firing every step that falls due. -/
def advance (duel : Duel χ η δ) (elapsed : UInt64) : Duel χ η δ :=
  let deadline := later duel.clock.now elapsed
  let duel := fireDue deadline (stepsAhead duel.clock) duel
  { duel with clock := duel.clock.moveTo deadline }

/-- Fires the pending step at once. -/
def fastForward (duel : Duel χ η δ) : Duel χ η δ :=
  match duel.clock.takeNow? with
  | none => duel
  | some (step, clock) => { duel with clock }.fire step

/-- Fires the pending step at once, a number of times. -/
def fastForwardBy : Nat → Duel χ η δ → Duel χ η δ
  | 0, duel => duel
  | n + 1, duel => fastForwardBy n duel.fastForward

/-- Fires steps until none is pending. -/
def runUntilIdle (duel : Duel χ η δ) : Duel χ η δ :=
  fastForwardBy (stepsAhead duel.clock) duel

end Duel

/-- One call of the host. -/
inductive HostCall where
  /-- Starts the duel. -/
  | start (roster : Roster)
  /-- Makes a request. -/
  | request (request : Request)
  /-- Lets time pass. -/
  | advance (elapsed : UInt64)
  /-- Fires the pending step at once. -/
  | fastForward
  /-- Fires steps until none is pending. -/
  | runUntilIdle
deriving DecidableEq, Repr

namespace Duel

variable {χ η δ : Type} [Hooks χ] [SpellHandler η] [DieSource δ]

/-- Makes one call: its answer and the duel afterwards. The calls that move the clock are never
refused. -/
def call (duel : Duel χ η δ) : HostCall → Except Refusal Status × Duel χ η δ
  | .start roster => duel.start roster
  | .request request => duel.handle request
  | .advance elapsed => (.ok (duel.advance elapsed).status, duel.advance elapsed)
  | .fastForward => (.ok duel.fastForward.status, duel.fastForward)
  | .runUntilIdle => (.ok duel.runUntilIdle.status, duel.runUntilIdle)

/-- Makes calls one after another: the answers and the duel afterwards. -/
def run (duel : Duel χ η δ) : List HostCall → List (Except Refusal Status) × Duel χ η δ
  | [] => ([], duel)
  | call :: rest =>
    let (answer, duel) := duel.call call
    let (answers, duel) := duel.run rest
    (answer :: answers, duel)

end Duel

end DiceDuel
