import DiceDuel.Proofs.Duel.Requests
import Mathlib.Logic.Relation

/-!
# Moves of a duel

A call of the host is a sequence of moves: the start, a granted request, the firing of the pending
step, and the passing of time. Whatever every move keeps is therefore kept by every list of calls,
in whatever order the host makes them and however it cuts the time. Nothing is said here about
which moves are possible when; that depends on where a duel stands.
-/

namespace DiceDuel.Duel

variable {χ η δ : Type} [Hooks χ] [SpellHandler η] [DieSource δ]

/-- The duel after a list of calls. -/
def after (duel : Duel χ η δ) (calls : List HostCall) : Duel χ η δ := (duel.run calls).2

/-- No call leaves a duel as it is. -/
@[simp] theorem after_nil (duel : Duel χ η δ) : duel.after [] = duel := rfl

/-- The first call comes before the others. -/
@[simp] theorem after_cons (duel : Duel χ η δ) (call : HostCall) (calls : List HostCall) :
    duel.after (call :: calls) = (duel.call call).2.after calls := rfl

/-- Calls made in two parts are made one part after the other. -/
theorem after_append (duel : Duel χ η δ) (calls more : List HostCall) :
    duel.after (calls ++ more) = (duel.after calls).after more := by
  induction calls generalizing duel with
  | nil => rfl
  | cons call calls ih =>
    rw [List.cons_append, after_cons, after_cons]
    exact ih _

/-- One elementary change of a duel. -/
inductive Move (duel : Duel χ η δ) : Duel χ η δ → Prop
  /-- The duel starts. -/
  | start (fresh : duel.started = false) (roster : Roster) : Move duel (duel.begun roster)
  /-- A request is granted. -/
  | request {request : Request} (granted : duel.refusal? request = none) :
      Move duel (duel.grant request)
  /-- The pending step fires. -/
  | fire {step : Deferred} {clock : Clock} (taken : duel.clock.takeNow? = some (step, clock)) :
      Move duel ({ duel with clock }.fire step)
  /-- Time passes. -/
  | wait (time : UInt64) : Move duel { duel with clock := duel.clock.moveTo time }

/-- A duel that some moves lead to. -/
abbrev Moves : Duel χ η δ → Duel χ η δ → Prop := Relation.ReflTransGen Move

end Duel

/-- A step that is taken by a deadline is the pending one, taken as it would be at once. -/
theorem Clock.takeNow?_of_takeDue? {clock : Clock} {deadline : UInt64} {taken : Deferred × Clock}
    (h : clock.takeDue? deadline = some taken) : clock.takeNow? = some taken := by
  unfold Clock.takeDue? at h
  split at h
  · cases h
  · split at h
    · exact h
    · cases h

namespace Duel

variable {χ η δ : Type} [Hooks χ] [SpellHandler η] [DieSource δ]

/-- Firing what is due by a deadline is a sequence of moves. -/
theorem moves_fireDue (deadline : UInt64) (n : Nat) (duel : Duel χ η δ) :
    Moves duel (fireDue deadline n duel) := by
  induction n generalizing duel with
  | zero => exact .refl
  | succ n ih =>
    rw [fireDue]
    split
    · exact .refl
    · rename_i step clock hdue
      exact .head (.fire (Clock.takeNow?_of_takeDue? hdue)) (ih _)

/-- Letting time pass is a sequence of moves, whatever falls due. -/
theorem moves_advance (duel : Duel χ η δ) (elapsed : UInt64) : Moves duel (duel.advance elapsed) :=
  (moves_fireDue _ _ duel).tail (.wait _)

/-- Firing the pending step at once is at most one move. -/
theorem moves_fastForward (duel : Duel χ η δ) : Moves duel duel.fastForward := by
  unfold fastForward
  split
  · exact .refl
  · rename_i step clock htaken
    exact .single (.fire htaken)

/-- Firing steps until none is pending is a sequence of moves. -/
theorem moves_fastForwardBy (n : Nat) (duel : Duel χ η δ) : Moves duel (fastForwardBy n duel) := by
  induction n generalizing duel with
  | zero => exact .refl
  | succ n ih => exact (moves_fastForward duel).trans (ih _)

/-- A call is a sequence of moves; a refused one has none. -/
theorem moves_call (duel : Duel χ η δ) (call : HostCall) : Moves duel (duel.call call).2 := by
  cases call with
  | start roster =>
    cases hstarted : duel.started with
    | false =>
      rw [call_start_of_fresh hstarted]
      exact .single (.start hstarted roster)
    | true =>
      rw [call_start_of_started hstarted]
  | request request =>
    cases hrefusal : duel.refusal? request with
    | none =>
      rw [call_request_of_granted hrefusal]
      exact .single (.request hrefusal)
    | some refusal =>
      rw [call_request_of_refused hrefusal]
  | advance elapsed => exact moves_advance duel elapsed
  | fastForward => exact moves_fastForward duel
  | runUntilIdle => exact moves_fastForwardBy _ duel

/-- A list of calls is a sequence of moves. -/
theorem moves_after (duel : Duel χ η δ) (calls : List HostCall) :
    Moves duel (duel.after calls) := by
  induction calls generalizing duel with
  | nil => exact .refl
  | cons call calls ih => exact (moves_call duel call).trans (ih _)

/-- What each move keeps is kept by any number of moves. -/
theorem Moves.preserve {P : Duel χ η δ → Prop}
    (hstep : ∀ {duel next : Duel χ η δ}, P duel → Move duel next → P next)
    {duel next : Duel χ η δ} (hmoves : Moves duel next) (h : P duel) : P next := by
  induction hmoves with
  | refl => exact h
  | tail _ hmove ih => exact hstep ih hmove

end Duel

end DiceDuel
