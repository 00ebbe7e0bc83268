import DiceDuel.Proofs.Duel.Stages
import Mathlib.Logic.ExistsUnique
import Mathlib.Tactic.ByContra

/-!
# Runs from the beginning

What holds of a new duel after any list of calls. Until it is started a duel only waits; from its
start on it stands at exactly one stage of a turn. What a duel says that it waits for is what it
grants: it has to be reachable for this, since the two are decided from different fields. A call
that is refused has no effect.
-/

namespace DiceDuel.Duel

variable {χ η δ : Type}

/-- A duel that has only waited since it was made. -/
def waited (settings : Settings) (hooks : χ) (handler : η) (dice : δ) (now : UInt64) :
    Duel χ η δ :=
  { new settings hooks handler dice with clock := { now } }

variable [Hooks χ] {settings : Settings} {hooks : χ} {handler : η} {dice : δ}

/-- A duel that has only waited opens its first turn when it is started. -/
theorem isAt_begun (now : UInt64) (roster : Roster) :
    ((waited settings hooks handler dice now).begun roster).IsAt (.opening settings.opener) :=
  isAt_openTurn _ rfl rfl rfl

variable [SpellHandler η] [DieSource δ]

/-- A duel that has only waited can wait on or be started, and nothing else. -/
theorem Move.of_waited {now : UInt64} {next : Duel χ η δ}
    (hmove : Move (waited settings hooks handler dice now) next) :
    (∃ time, next = waited settings hooks handler dice time) ∨
      ∃ roster, next = (waited settings hooks handler dice now).begun roster := by
  cases hmove with
  | start fresh roster => exact .inr ⟨roster, rfl⟩
  | request granted => cases granted
  | fire taken => cases taken
  | wait time => exact .inl ⟨max now time, rfl⟩

/-- What holds while a duel waits for its start, holds at its start, and is kept whenever a turn is
carried on, holds after any calls. -/
theorem after_induction {P : Duel χ η δ → Prop}
    (hwaited : ∀ now, P (waited settings hooks handler dice now))
    (hbegun : ∀ now roster, P ((waited settings hooks handler dice now).begun roster))
    (hcontinues : ∀ {duel next : Duel χ η δ} {stage : Stage},
      duel.IsAt stage → P duel → Continues duel stage next → P next)
    (calls : List HostCall) : P ((new settings hooks handler dice).after calls) := by
  let Q : Duel χ η δ → Prop := fun duel =>
    (∃ now, duel = waited settings hooks handler dice now) ∨ (∃ stage, duel.IsAt stage) ∧ P duel
  have hstep : ∀ {duel next : Duel χ η δ}, Q duel → Move duel next → Q next := by
    rintro duel next (⟨now, rfl⟩ | ⟨⟨stage, hat⟩, hP⟩) hmove
    · rcases hmove.of_waited with ⟨time, rfl⟩ | ⟨roster, rfl⟩
      · exact .inl ⟨time, rfl⟩
      · exact .inr ⟨⟨_, isAt_begun now roster⟩, hbegun now roster⟩
    · have hnext := hat.continues hmove
      exact .inr ⟨hnext.isAt hat, hcontinues hat hP hnext⟩
  have hnew : Q (new settings hooks handler dice) := .inl ⟨0, rfl⟩
  rcases Moves.preserve hstep (moves_after _ calls) hnew with ⟨now, hnow⟩ | ⟨-, hP⟩
  · rw [hnow]
    exact hwaited now
  · exact hP

variable (settings hooks handler dice)

/-- After any calls a duel has only waited, or it stands at a stage. -/
theorem waited_or_isAt (calls : List HostCall) :
    (∃ now, (new settings hooks handler dice).after calls =
        waited settings hooks handler dice now) ∨
      ∃ stage, ((new settings hooks handler dice).after calls).IsAt stage :=
  after_induction (P := fun duel => (∃ now, duel = waited settings hooks handler dice now) ∨
      ∃ stage, duel.IsAt stage)
    (fun now => .inl ⟨now, rfl⟩)
    (fun now roster => .inr ⟨_, isAt_begun now roster⟩)
    (fun hat _ hnext => .inr (hnext.isAt hat)) calls

/-- A started duel stands at a stage. -/
theorem exists_isAt {calls : List HostCall}
    (hstarted : ((new settings hooks handler dice).after calls).started = true) :
    ∃ stage, ((new settings hooks handler dice).after calls).IsAt stage := by
  rcases waited_or_isAt settings hooks handler dice calls with ⟨now, hnow⟩ | hat
  · rw [hnow] at hstarted
    cases hstarted
  · exact hat

/-- A duel that has not started has only waited. -/
theorem exists_waited {calls : List HostCall}
    (hfresh : ((new settings hooks handler dice).after calls).started = false) :
    ∃ now, (new settings hooks handler dice).after calls =
      waited settings hooks handler dice now := by
  rcases waited_or_isAt settings hooks handler dice calls with hnow | ⟨stage, hat⟩
  · exact hnow
  · rw [hat.started] at hfresh
    cases hfresh

/-- Without a start a call lets a duel at most wait on. -/
theorem call_waited (now : UInt64) {call : HostCall} (hcall : ∀ roster, call ≠ .start roster) :
    ∃ time, ((waited settings hooks handler dice now).call call).2 =
      waited settings hooks handler dice time := by
  cases call with
  | start roster => exact absurd rfl (hcall roster)
  | request request => exact ⟨now, rfl⟩
  | advance elapsed => exact ⟨_, rfl⟩
  | fastForward => exact ⟨now, rfl⟩
  | runUntilIdle => exact ⟨now, rfl⟩

/-- Without a start calls let a duel at most wait on. -/
theorem after_waited (now : UInt64) {calls : List HostCall}
    (hcalls : ∀ roster, HostCall.start roster ∉ calls) :
    ∃ time, (waited settings hooks handler dice now).after calls =
      waited settings hooks handler dice time := by
  induction calls generalizing now with
  | nil => exact ⟨now, rfl⟩
  | cons call calls ih =>
    have hcall : ∀ roster, call ≠ .start roster := by
      rintro roster rfl
      exact hcalls roster List.mem_cons_self
    obtain ⟨time, htime⟩ := call_waited settings hooks handler dice now hcall
    rw [after_cons, htime]
    exact ih time fun roster hmem => hcalls roster (List.mem_cons_of_mem _ hmem)

/-- A call to start leaves every duel started, whether it is granted or comes too late. -/
theorem started_call_start (duel : Duel χ η δ) (roster : Roster) :
    (duel.call (.start roster)).2.started = true := by
  cases hstarted : duel.started with
  | true =>
    rw [call_start_of_started hstarted]
    exact hstarted
  | false =>
    rw [call_start_of_fresh hstarted, begun]
    cases duel.settings.opener <;> rfl

/-- A duel has started exactly when a start is among the calls. -/
theorem started_after_iff (calls : List HostCall) :
    ((new settings hooks handler dice).after calls).started = true ↔
      ∃ roster, HostCall.start roster ∈ calls := by
  constructor
  · intro hstarted
    by_contra hnone
    have hcalls : ∀ roster, HostCall.start roster ∉ calls := fun roster hmem =>
      hnone ⟨roster, hmem⟩
    obtain ⟨time, htime⟩ := after_waited settings hooks handler dice 0 hcalls
    rw [show new settings hooks handler dice = waited settings hooks handler dice 0 from rfl,
      htime] at hstarted
    cases hstarted
  · rintro ⟨roster, hmem⟩
    obtain ⟨earlier, later, rfl⟩ := List.append_of_mem hmem
    -- the calls up to and with the start are a run of their own
    have hbegun : ((new settings hooks handler dice).after
        (earlier ++ [.start roster])).started = true := by
      rw [after_append]
      exact started_call_start _ roster
    obtain ⟨stage, hat⟩ := exists_isAt settings hooks handler dice hbegun
    rw [List.append_cons, after_append]
    obtain ⟨following, hfollowing⟩ :=
      Moves.preserve (P := fun duel => ∃ stage, duel.IsAt stage)
        (fun ⟨_, h⟩ hmove => (h.continues hmove).isAt h) (moves_after _ later) ⟨stage, hat⟩
    exact hfollowing.started

/-- The stages are all that a run can reach. A duel has started exactly when a start is among the
calls; before that nothing is recorded, pending or ended and no turn is counted, and from then on
the duel stands at one stage and no other. -/
theorem stage_after_calls (calls : List HostCall) :
    let duel := (new settings hooks handler dice).after calls
    (duel.started = true ↔ ∃ roster, HostCall.start roster ∈ calls) ∧
      (duel.started = false →
        duel.history = [] ∧ duel.outcomes = [] ∧ duel.clock.pending = none ∧
          duel.ending = none ∧ duel.current.turn = 0) ∧
      (duel.started = true → ∃! stage, duel.IsAt stage) := by
  refine ⟨started_after_iff settings hooks handler dice calls, ?_, ?_⟩
  · intro hfresh
    obtain ⟨now, hnow⟩ := exists_waited settings hooks handler dice hfresh
    rw [hnow]
    exact ⟨rfl, rfl, rfl, rfl, rfl⟩
  · intro hstarted
    obtain ⟨stage, hat⟩ := exists_isAt settings hooks handler dice hstarted
    exact ⟨stage, hat, fun other hother => hother.unique hat⟩

/-- Whenever a roll or a code is waited for, it is the player's turn. -/
theorem side_of_awaited {calls : List HostCall} (request : Request)
    (hstatus : ((new settings hooks handler dice).after calls).status = request.awaited)
    (hrequest : request ≠ .close) :
    ((new settings hooks handler dice).after calls).current.side = .player := by
  obtain ⟨hstarted, -⟩ := (status_eq_awaited_iff _ request).mp hstatus
  obtain ⟨stage, hat⟩ := exists_isAt settings hooks handler dice hstarted
  cases request with
  | roll roller =>
    obtain rfl := hat.eq_ready hstatus
    exact hat.fits
  | cast code => exact (hat.eq_offered hstatus).2
  | close => exact absurd rfl hrequest

/-- A request is granted when the duel says that it waits for it, and a roll only to the player. -/
theorem request_granted_iff (calls : List HostCall) (request : Request) :
    let duel := (new settings hooks handler dice).after calls
    (∃ status, (duel.call (.request request)).1 = .ok status) ↔
      (duel.status = .awaitingRoll ∧ request = .roll .player) ∨
        (duel.status = .awaitingCast ∧ ∃ code, request = .cast code) ∨
          (duel.status = .awaitingClose ∧ request = .close) := by
  intro duel
  rw [call_request_granted_iff]
  cases request with
  | roll roller =>
    constructor
    · rintro ⟨hstatus, hroller, hside⟩
      exact .inl ⟨hstatus, by rw [hroller, hside]⟩
    · rintro (⟨hstatus, ⟨⟩⟩ | ⟨-, code, ⟨⟩⟩ | ⟨-, ⟨⟩⟩)
      have hside : duel.current.side = .player :=
        side_of_awaited settings hooks handler dice (.roll .player) hstatus nofun
      exact ⟨hstatus, hside.symm, hside⟩
  | cast code =>
    constructor
    · rintro ⟨hstatus, -⟩
      exact .inr (.inl ⟨hstatus, code, rfl⟩)
    · rintro (⟨-, ⟨⟩⟩ | ⟨hstatus, -⟩ | ⟨-, ⟨⟩⟩)
      have hside : duel.current.side = .player :=
        side_of_awaited settings hooks handler dice (.cast code) hstatus nofun
      exact ⟨hstatus, hside⟩
  | close =>
    constructor
    · rintro ⟨hstatus, -⟩
      exact .inr (.inr ⟨hstatus, rfl⟩)
    · rintro (⟨-, ⟨⟩⟩ | ⟨-, code, ⟨⟩⟩ | ⟨hstatus, -⟩)
      exact ⟨hstatus, trivial⟩

/-- A duel says that it awaits a request exactly when there is one that it grants. -/
theorem awaitsRequest_iff_granted (calls : List HostCall) :
    let duel := (new settings hooks handler dice).after calls
    duel.status.awaitsRequest = true ↔
      ∃ request status, (duel.call (.request request)).1 = .ok status := by
  intro duel
  have hgranted := request_granted_iff settings hooks handler dice calls
  rw [Status.awaitsRequest_iff]
  constructor
  · rintro ⟨request, hstatus⟩
    cases request with
    | roll roller => exact ⟨.roll .player, (hgranted _).mpr (.inl ⟨hstatus, rfl⟩)⟩
    | cast code => exact ⟨.cast code, (hgranted _).mpr (.inr (.inl ⟨hstatus, code, rfl⟩))⟩
    | close => exact ⟨.close, (hgranted _).mpr (.inr (.inr ⟨hstatus, rfl⟩))⟩
  · rintro ⟨request, hrequest⟩
    exact ⟨request, ((call_request_granted_iff duel request).mp hrequest).1⟩

/-- A duel grants what it says that it waits for, and nothing else: the player's roll, any code of
the player, or the close of a turn. A start is granted exactly once. What is refused, request or
start, leaves the whole duel as it was. -/
theorem granted_after_calls (calls : List HostCall) :
    let duel := (new settings hooks handler dice).after calls
    (∀ request : Request, (∃ status, (duel.call (.request request)).1 = .ok status) ↔
        (duel.status = .awaitingRoll ∧ request = .roll .player) ∨
          (duel.status = .awaitingCast ∧ ∃ code, request = .cast code) ∨
            (duel.status = .awaitingClose ∧ request = .close)) ∧
      (duel.status.awaitsRequest = true ↔
        ∃ request status, (duel.call (.request request)).1 = .ok status) ∧
      (∀ roster, (∃ status, (duel.call (.start roster)).1 = .ok status) ↔
        duel.started = false) ∧
      ∀ call refusal, (duel.call call).1 = .error refusal → (duel.call call).2 = duel :=
  ⟨request_granted_iff settings hooks handler dice calls,
    awaitsRequest_iff_granted settings hooks handler dice calls,
    fun roster => call_start_granted_iff _ roster,
    fun _ _ hrefused => call_snd_of_refused hrefused⟩

end DiceDuel.Duel
