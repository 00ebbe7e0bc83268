import DiceDuel.Duel.Snapshot

/-!
# Hooks

A duel tells the host's bookkeeping what happens and asks it whether somebody has died. The recorder
writes every call down and answers the checks from a script, so that a run can be looked at as a
whole; the silent bookkeeper does nothing and finds nobody dead.
-/

namespace DiceDuel

/-- Who takes part in a duel, and where. -/
structure Roster where
  /-- The name of the player. -/
  player : Option String := none
  /-- The names of the enemies. -/
  enemies : List String := []
  /-- The place. -/
  biome : String := "none"
deriving DecidableEq, Repr

namespace Roster

/-- A roster with a player. -/
def withPlayer (roster : Roster) (name : String) : Roster := { roster with player := some name }

/-- A roster with one more enemy. -/
def withEnemy (roster : Roster) (name : String) : Roster :=
  { roster with enemies := roster.enemies ++ [name] }

/-- A roster with a place. -/
def withBiome (roster : Roster) (name : String) : Roster := { roster with biome := name }

end Roster

/-- A type of bookkeepers. -/
class Hooks (χ : Type) where
  /-- Told once, when the duel starts. -/
  startBattle : χ → Roster → χ
  /-- Told when a turn has started. -/
  startTurn : χ → Side → χ
  /-- Told when the face of the turn is known. -/
  rollEffects : χ → Side → UInt8 → χ
  /-- Told at the end of a turn. -/
  endTurnEffects : χ → Side → χ
  /-- Asked whether somebody has died. -/
  deathCheck : χ → Bool × χ
  /-- Told of every state that is recorded. -/
  onTransition : χ → Snapshot → χ

/-- One call of a bookkeeper, with its answer. -/
inductive HookCall where
  /-- The duel starts. -/
  | startBattle (roster : Roster)
  /-- A turn has started. -/
  | startTurn (side : Side)
  /-- The face of the turn is known. -/
  | rollEffects (side : Side) (face : UInt8)
  /-- A turn comes to its end. -/
  | endTurnEffects (side : Side)
  /-- A check, with the answer that was given. -/
  | deathCheck (answer : Bool)
  /-- A state is recorded. -/
  | transition (snapshot : Snapshot)
deriving DecidableEq, Repr

/-- A bookkeeper that writes every call down. -/
structure Recorder where
  /-- The answers still to be given; nobody dies after the last. -/
  answers : List Bool := []
  /-- The calls, oldest first. -/
  calls : List HookCall := []
deriving DecidableEq, Repr

namespace Recorder

/-- The recorder with one more call. -/
def note (recorder : Recorder) (call : HookCall) : Recorder :=
  { recorder with calls := recorder.calls ++ [call] }

/-- Gives the next answer and writes it down. -/
def answer (recorder : Recorder) : Bool × Recorder :=
  let dead := recorder.answers.headD false
  (dead, { recorder with answers := recorder.answers.tail }.note (.deathCheck dead))

instance : Hooks Recorder where
  startBattle recorder roster := recorder.note (.startBattle roster)
  startTurn recorder side := recorder.note (.startTurn side)
  rollEffects recorder side face := recorder.note (.rollEffects side face)
  endTurnEffects recorder side := recorder.note (.endTurnEffects side)
  deathCheck := answer
  onTransition recorder snapshot := recorder.note (.transition snapshot)

end Recorder

/-- The bookkeeper that does nothing. -/
structure Silent where
deriving DecidableEq, Repr

instance : Hooks Silent where
  startBattle hooks _ := hooks
  startTurn hooks _ := hooks
  rollEffects hooks _ _ := hooks
  endTurnEffects hooks _ := hooks
  deathCheck hooks := (false, hooks)
  onTransition hooks _ := hooks

end DiceDuel
