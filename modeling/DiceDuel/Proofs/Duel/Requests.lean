import DiceDuel.Duel.Basic

/-!
# Which requests are granted

A duel says what it waits for and, apart from that, decides on each request. The two look at
different things: what it waits for never depends on whose turn it is, the decision does. This file
says when they agree, for every duel, reachable or not, and that a refused call changes nothing.
-/

namespace DiceDuel

/-- What a duel says while it waits for a request. -/
def Request.awaited : Request → Status
  | .roll _ => .awaitingRoll
  | .cast _ => .awaitingCast
  | .close => .awaitingClose

/-- Whether a request suits the side whose turn it is. Only the player's die rolls and only the
player's spells are cast on request, and a side can roll for itself alone; either side's turn is
closed on request. -/
def Request.Suits (side : Side) : Request → Prop
  | .roll roller => roller = side ∧ side = .player
  | .cast _ => side = .player
  | .close => True

/-- A duel awaits a request exactly when its status is that of some request. -/
theorem Status.awaitsRequest_iff (status : Status) :
    status.awaitsRequest = true ↔ ∃ request : Request, status = request.awaited := by
  constructor
  · intro h
    cases status with
    | awaitingRoll => exact ⟨.roll .player, rfl⟩
    | awaitingCast => exact ⟨.cast default, rfl⟩
    | awaitingClose => exact ⟨.close, rfl⟩
    | notStarted => cases h
    | suspended remaining => cases h
    | ended ending => cases h
  · rintro ⟨request, rfl⟩
    cases request <;> rfl

namespace Side

/-- The enemy's turns are those that run by themselves. -/
theorem isAutomated_iff (side : Side) : side.isAutomated = true ↔ side = .enemy := by
  cases side <;> decide

/-- A side that is not the enemy is the player. -/
theorem eq_player_iff (side : Side) : side = .player ↔ side ≠ .enemy := by
  cases side <;> decide

end Side

namespace Clock

/-- Time remains exactly while a step is pending. -/
@[simp] theorem remaining?_eq_none_iff (clock : Clock) :
    clock.remaining? = none ↔ clock.pending = none := by
  rw [remaining?, Option.map_eq_none_iff]

end Clock

namespace Duel

variable {χ η δ : Type}

/-- A duel says that it waits for a request exactly when it runs, nothing is pending, and its phase
is that of the request. -/
theorem status_eq_awaited_iff (duel : Duel χ η δ) (request : Request) :
    duel.status = request.awaited ↔
      duel.started = true ∧ duel.ending = none ∧ duel.clock.pending = none ∧
        duel.current.phase = request.phase := by
  rw [← Clock.remaining?_eq_none_iff]
  unfold status
  cases hs : duel.started with
  | false => cases request <;> simp [Request.awaited]
  | true =>
    cases he : duel.ending with
    | some ending => cases request <;> simp [Request.awaited]
    | none =>
      cases hr : duel.clock.remaining? with
      | some remaining => cases request <;> simp [Request.awaited]
      | none =>
        cases hp : duel.current.phase <;> cases request <;> simp [Request.awaited, Request.phase]

/-- A request is not refused exactly when the duel says that it waits for it and it suits the side
whose turn it is. -/
theorem refusal?_eq_none_iff (duel : Duel χ η δ) (request : Request) :
    duel.refusal? request = none ↔
      duel.status = request.awaited ∧ request.Suits duel.current.side := by
  rw [status_eq_awaited_iff, ← Clock.remaining?_eq_none_iff]
  unfold refusal?
  cases hs : duel.started with
  | false => simp
  | true =>
    cases he : duel.ending with
    | some ending => simp
    | none =>
      by_cases hp : duel.current.phase = request.phase
      · cases request with
        | roll roller =>
          by_cases hroller : roller = duel.current.side
          · subst hroller
            by_cases henemy : duel.current.side = .enemy <;>
              simp [hp, henemy, Side.isAutomated_iff, Side.eq_player_iff, Request.Suits]
          · simp [hp, hroller, Request.Suits]
        | cast code =>
          by_cases henemy : duel.current.side = .enemy <;>
            simp [hp, henemy, Side.isAutomated_iff, Side.eq_player_iff, Request.Suits]
        | close => simp [hp, Request.Suits]
      · simp [hp]

variable [Hooks χ]

/-- The duel that a start leads to. -/
def begun (duel : Duel χ η δ) (roster : Roster) : Duel χ η δ :=
  { duel with started := true, hooks := Hooks.startBattle duel.hooks roster }.openTurn
    duel.settings.opener

variable [SpellHandler η] [DieSource δ]

/-- What a granted request does to a duel. -/
def grant (duel : Duel χ η δ) : Request → Duel χ η δ
  | .roll _ => duel.startRoll
  | .cast code => duel.cast code
  | .close => duel.openTurn duel.current.side.opposite

variable {duel : Duel χ η δ} {request : Request}

/-- The first start is granted and has its effect. -/
theorem call_start_of_fresh (hfresh : duel.started = false) (roster : Roster) :
    duel.call (.start roster) = (.ok (duel.begun roster).status, duel.begun roster) := by
  rw [call, start, hfresh]
  rfl

/-- Another start is refused. -/
theorem call_start_of_started (hstarted : duel.started = true) (roster : Roster) :
    duel.call (.start roster) = (.error .alreadyStarted, duel) := by
  rw [call, start, hstarted]
  rfl

/-- A request that is not refused is granted and has its effect. -/
theorem call_request_of_granted (hgranted : duel.refusal? request = none) :
    duel.call (.request request) = (.ok (duel.grant request).status, duel.grant request) := by
  simp only [call, handle, hgranted]
  cases request <;> rfl

/-- A request that is refused is answered with the reason. -/
theorem call_request_of_refused {refusal : Refusal}
    (hrefused : duel.refusal? request = some refusal) :
    duel.call (.request request) = (.error refusal, duel) := by
  simp only [call, handle, hrefused]

/-- A refused call leaves the duel as it was, whatever the call and whatever the reason. -/
theorem call_snd_of_refused {call : HostCall} {refusal : Refusal}
    (h : (duel.call call).1 = .error refusal) : (duel.call call).2 = duel := by
  cases call with
  | start roster =>
    cases hstarted : duel.started with
    | true => rw [call_start_of_started hstarted]
    | false =>
      rw [call_start_of_fresh hstarted] at h
      cases h
  | request request =>
    cases hrefusal : duel.refusal? request with
    | some reason => rw [call_request_of_refused hrefusal]
    | none =>
      rw [call_request_of_granted hrefusal] at h
      cases h
  | advance _ | fastForward | runUntilIdle => cases h

/-- A start is answered with a status exactly when there was none before. -/
theorem call_start_granted_iff (duel : Duel χ η δ) (roster : Roster) :
    (∃ status, (duel.call (.start roster)).1 = .ok status) ↔ duel.started = false := by
  cases hstarted : duel.started with
  | true => simp [call_start_of_started hstarted]
  | false => simp [call_start_of_fresh hstarted]

/-- A request is answered with a status exactly when the duel said that it waits for it and it
suits the side whose turn it is. -/
theorem call_request_granted_iff (duel : Duel χ η δ) (request : Request) :
    (∃ status, (duel.call (.request request)).1 = .ok status) ↔
      duel.status = request.awaited ∧ request.Suits duel.current.side := by
  rw [← refusal?_eq_none_iff]
  cases hrefusal : duel.refusal? request with
  | some refusal => simp [call_request_of_refused hrefusal]
  | none => simp [call_request_of_granted hrefusal]

end Duel

end DiceDuel
