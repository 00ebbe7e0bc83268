import DiceDuel.Proofs.Duel.Runs
import DiceDuel.Proofs.Duel.Waiting

/-!
# Running until nothing is pending

A host that does not care for time fires the pending steps one after the other until none is left;
another lets time pass. Both end in the same duel once enough time has passed, and enough is what
the clock jumped over in the first case. This holds for every duel. That the duel then waits for the
host, and not for time, holds for the duels that a run can reach.
-/

namespace DiceDuel

/-- The delay between two moments leads from the one to the other. -/
theorem later_sub_of_le {time deadline : UInt64} (hle : time ≤ deadline) :
    later time (deadline - time) = deadline := by
  have hnat : time.toNat ≤ deadline.toNat := UInt64.le_iff_toNat_le.mp hle
  have hsub : (deadline - time).toNat = deadline.toNat - time.toNat :=
    UInt64.toNat_sub_of_le _ _ hle
  have hlt : deadline.toNat < UInt64.size := deadline.toNat_lt
  rw [← UInt64.toNat_inj, toNat_later, hsub]
  omega

/-- A longer delay leads to no earlier moment. -/
theorem later_le_later (time : UInt64) {delay longer : UInt64} (hle : delay ≤ longer) :
    later time delay ≤ later time longer := by
  have hnat : delay.toNat ≤ longer.toNat := UInt64.le_iff_toNat_le.mp hle
  rw [UInt64.le_iff_toNat_le, toNat_later, toNat_later]
  omega

namespace Clock

/-- A step that is taken at once is due by every moment that the clock does not jump over. -/
theorem takeDue?_of_now_le {clock next : Clock} {step : Deferred} {deadline : UInt64}
    (htaken : clock.takeNow? = some (step, next)) (hle : next.now ≤ deadline) :
    clock.takeDue? deadline = some (step, next) := by
  obtain ⟨due, hpending, rfl⟩ := takeNow?_eq_some_iff.mp htaken
  have hnow : (clock.moveTo due).now.toNat ≤ deadline.toNat := UInt64.le_iff_toNat_le.mp hle
  have hmax := clock.toNat_now_moveTo due
  have hdue : due ≤ deadline := by
    rw [UInt64.le_iff_toNat_le]
    omega
  exact takeDue?_eq_some_iff.mpr ⟨due, hpending, hdue, rfl⟩

/-- A clock that is not past a moment is moved to it, whatever is pending. -/
theorem moveTo_of_le {clock : Clock} {time : UInt64} (hle : clock.now ≤ time) :
    clock.moveTo time = { clock with now := time } := by
  have hnow := now_moveTo_of_le hle
  exact congrArg (fun now => { clock with now }) hnow

end Clock

namespace Duel

variable {χ η δ : Type}

/-- What an idle duel waits for does not depend on the moment. -/
theorem status_of_idle {duel : Duel χ η δ} (hidle : duel.clock.pending = none) (now : UInt64) :
    { duel with clock := { duel.clock with now } }.status = duel.status := by
  unfold status Clock.remaining?
  dsimp only
  rw [hidle]
  rfl

/-- A running duel with a pending step that is not overdue waits for it. -/
theorem status_of_pending {duel : Duel χ η δ} {due : UInt64} {step : Deferred}
    (hstarted : duel.started = true) (hending : duel.ending = none)
    (hpending : duel.clock.pending = some ⟨due, step⟩) (hle : duel.clock.now ≤ due) :
    duel.status = .suspended (due - duel.clock.now) := by
  have hremaining : duel.clock.remaining? = some (due - duel.clock.now) := by
    rw [Clock.remaining?, hpending]
    exact congrArg some (if_pos hle)
  unfold status
  rw [hstarted, hending, hremaining]
  rfl

/-- A duel at a stage that has nothing on its clock does not wait for time. -/
theorem IsAt.status_ne_suspended {duel : Duel χ η δ} {stage : Stage} (h : duel.IsAt stage)
    (hidle : duel.clock.pending = none) (remaining : UInt64) :
    duel.status ≠ .suspended remaining := by
  have hstarted := h.started
  have hphase := congrArg Snapshot.phase h.current
  have hending := h.ending
  have hstep := h.pending
  have hremaining : duel.clock.remaining? = none := by
    rw [Clock.remaining?, hidle, Option.map_none]
  rw [hidle, Option.map_none] at hstep
  unfold status
  rw [hstarted, hremaining, hending, hphase]
  intro hsuspended
  cases stage with
  | ready => cases hsuspended
  | rolling => cases hstep
  | offered face => cases hsuspended
  | showing face code ending =>
    cases ending with
    | none => cases hstep
    | some ending => cases hsuspended
  | closing face code => cases hsuspended

variable [Hooks χ] [SpellHandler η] [DieSource δ]

/-- What holds of idle duels, and holds before the pending step fires if it holds after it, always
holds. -/
theorem idle_induction {P : Duel χ η δ → Prop}
    (hidle : ∀ {duel : Duel χ η δ}, duel.clock.pending = none → P duel)
    (hfire : ∀ {duel : Duel χ η δ} {step : Deferred} {clock : Clock},
      duel.clock.takeNow? = some (step, clock) → P ({ duel with clock }.fire step) → P duel)
    (duel : Duel χ η δ) : P duel := by
  refine due_induction lastMoment ?_ ?_ duel
  · intro duel hnone
    rw [Clock.takeDue?_lastMoment, Clock.takeNow?, Option.map_eq_none_iff] at hnone
    exact hidle hnone
  · intro duel step clock htaken hafter
    rw [Clock.takeDue?_lastMoment] at htaken
    exact hfire htaken hafter

/-- Nothing is pending in the end. -/
theorem pending_runUntilIdle (duel : Duel χ η δ) : duel.runUntilIdle.clock.pending = none := by
  refine idle_induction (P := fun duel => duel.runUntilIdle.clock.pending = none) ?_ ?_ duel
  · intro duel hidle
    rw [runUntilIdle_of_none duel hidle]
    exact hidle
  · intro duel step clock htaken hafter
    rw [runUntilIdle_of_some duel htaken]
    exact hafter

/-- The clock does not go back on the way. -/
theorem le_now_runUntilIdle (duel : Duel χ η δ) :
    duel.clock.now ≤ duel.runUntilIdle.clock.now :=
  (moves_fastForwardBy _ duel).le_now

/-- By the moment at which a duel is idle every step has fallen due. -/
theorem caughtUp_of_now_le {time : UInt64} (duel : Duel χ η δ) :
    duel.runUntilIdle.clock.now ≤ time → duel.caughtUp time = duel.runUntilIdle := by
  refine idle_induction (P := fun duel =>
    duel.runUntilIdle.clock.now ≤ time → duel.caughtUp time = duel.runUntilIdle) ?_ ?_ duel
  · intro duel hidle _
    rw [runUntilIdle_of_none duel hidle]
    exact caughtUp_of_none duel (Clock.takeDue?_of_idle hidle)
  · intro duel step clock htaken hafter hle
    rw [runUntilIdle_of_some duel htaken] at hle ⊢
    -- the clock stands at the due moment now, and it will not go back behind it
    have hfired := le_now_runUntilIdle ({ duel with clock }.fire step)
    rw [now_fire] at hfired
    have hdue := Clock.takeDue?_of_now_le htaken (UInt64.le_trans hfired hle)
    rw [caughtUp_of_some duel hdue]
    exact hafter hle

/-- A wait for at least as long as the steps take leaves the duel that has run until it is idle,
except that its clock shows the end of the wait. -/
theorem advance_of_le {duel : Duel χ η δ} {elapsed : UInt64}
    (hle : duel.runUntilIdle.clock.now - duel.clock.now ≤ elapsed) :
    duel.advance elapsed = { duel.runUntilIdle with
      clock := { duel.runUntilIdle.clock with now := later duel.clock.now elapsed } } := by
  have hend : duel.runUntilIdle.clock.now ≤ later duel.clock.now elapsed := by
    have hlater := later_le_later duel.clock.now hle
    rwa [later_sub_of_le (le_now_runUntilIdle duel)] at hlater
  rw [advance_eq_advancedTo, advancedTo, caughtUp_of_now_le duel hend, Clock.moveTo_of_le hend]

variable (settings : Settings) (hooks : χ) (handler : η) (dice : δ)

/-- Run until it is idle, a duel that a run has reached does not wait for time. -/
theorem status_runUntilIdle_ne_suspended (calls : List HostCall) (remaining : UInt64) :
    ((new settings hooks handler dice).after calls).runUntilIdle.status ≠ .suspended remaining := by
  have hidle := pending_runUntilIdle ((new settings hooks handler dice).after calls)
  -- the run with this call at its end is a run as well
  have hrun : (new settings hooks handler dice).after (calls ++ [.runUntilIdle]) =
      ((new settings hooks handler dice).after calls).runUntilIdle := after_append _ calls _
  rw [← hrun] at hidle ⊢
  rcases waited_or_isAt settings hooks handler dice (calls ++ [.runUntilIdle]) with
    ⟨now, hnow⟩ | ⟨stage, hat⟩
  · rw [hnow]
    exact nofun
  · exact hat.status_ne_suspended hidle remaining

/-- Running until nothing is pending and waiting long enough are the same. Exactly the time that
the clock jumps over leads to the same duel in all its parts and to the same answer; with more time
only the clock stands later. Nothing is pending then, and the duel does not wait for time. -/
theorem advance_after_calls (calls : List HostCall) :
    let duel := (new settings hooks handler dice).after calls
    let idle := (duel.call .runUntilIdle).2
    let needed := idle.clock.now - duel.clock.now
    duel.clock.now ≤ idle.clock.now ∧
      duel.call (.advance needed) = duel.call .runUntilIdle ∧
      (∀ elapsed, needed ≤ elapsed →
        duel.call (.advance elapsed) = ((duel.call .runUntilIdle).1, { idle with
          clock := { idle.clock with now := later duel.clock.now elapsed } })) ∧
      idle.clock.pending = none ∧
      (duel.call .runUntilIdle).1 = .ok idle.status ∧
      ∀ remaining, idle.status ≠ .suspended remaining := by
  intro duel idle needed
  have hidle : idle.clock.pending = none := pending_runUntilIdle duel
  have hback : duel.clock.now ≤ idle.clock.now := le_now_runUntilIdle duel
  have hlonger : ∀ elapsed, needed ≤ elapsed →
      duel.call (.advance elapsed) = ((duel.call .runUntilIdle).1, { idle with
        clock := { idle.clock with now := later duel.clock.now elapsed } }) := by
    intro elapsed hle
    have hadvance := advance_of_le hle
    have hstatus := status_of_idle hidle (later duel.clock.now elapsed)
    rw [call, hadvance]
    exact congrArg (fun status => (Except.ok status, _)) hstatus
  have hneeded : duel.call (.advance needed) = duel.call .runUntilIdle := by
    rw [hlonger needed (UInt64.le_refl needed), later_sub_of_le hback]
  exact ⟨hback, hneeded, hlonger, hidle, rfl,
    status_runUntilIdle_ne_suspended settings hooks handler dice calls⟩

end Duel

end DiceDuel
