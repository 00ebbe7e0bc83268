import DiceDuel.Proofs.Duel.EnemyPace

/-!
# Suspended duels

A suspended duel announces how long it waits for its pending step. The announcement is kept to the
unit: a shorter wait does nothing but move the clock, and with the announced time the step is taken
off the clock and fires at the moment at which it was due, once, and before anything else. A longer
wait goes on from there. What carries this is that a pending step is never overdue between the calls
of a host, so that the time announced and the present moment add up to the due moment, without
reaching beyond the last one.
-/

namespace DiceDuel

namespace Clock

/-- The step that is put off is not overdue. -/
def Timely (clock : Clock) : Prop := ∀ appointment ∈ clock.pending, clock.now ≤ appointment.due

/-- On an idle clock nothing is overdue. -/
theorem timely_of_idle {clock : Clock} (hidle : clock.pending = none) : clock.Timely := by
  intro appointment hmem
  rw [hidle] at hmem
  cases hmem

/-- A step that is put off now is not overdue. -/
theorem PutsOff.timely {clock next : Clock} (h : clock.PutsOff next) (hclock : clock.Timely) :
    next.Timely := by
  obtain rfl | ⟨delay, step, rfl⟩ := h
  · exact hclock
  · intro appointment hmem
    cases hmem
    exact le_later _ _

end Clock

namespace Duel

section Runs

variable {χ η δ : Type} [Hooks χ] [SpellHandler η] [DieSource δ]

/-! ## The clock between calls -/

/-- When the pending step has fired, nothing is overdue. -/
theorem timely_fire {duel : Duel χ η δ} {step : Deferred} {clock : Clock}
    (htaken : duel.clock.takeNow? = some (step, clock)) :
    ({ duel with clock }.fire step).clock.Timely :=
  (putsOff_fire { duel with clock } step).timely
    (Clock.timely_of_idle (Clock.pending_of_takeNow? htaken))

/-- When time has passed up to a moment, nothing is overdue. -/
theorem timely_advancedTo {time : UInt64} (duel : Duel χ η δ) :
    duel.clock.now ≤ time → (duel.advancedTo time).clock.Timely := by
  refine due_induction time
    (P := fun duel => duel.clock.now ≤ time → (duel.advancedTo time).clock.Timely) ?_ ?_ duel
  · intro duel hnone hle appointment hmem
    rw [now_advancedTo duel hle]
    rw [advancedTo_of_none duel hnone] at hmem
    exact UInt64.le_of_lt (Clock.takeDue?_eq_none_iff.mp hnone appointment hmem)
  · intro duel step clock htaken ih hle
    rw [advancedTo_of_some duel htaken]
    refine ih ?_
    rw [now_fire]
    exact Clock.now_le_of_takeDue? htaken hle

/-- Between the calls of a host no step is overdue. A move alone does not keep this, since time may
pass without a look at what is due. -/
theorem timely_call {duel : Duel χ η δ} (h : duel.clock.Timely) (call : HostCall) :
    (duel.call call).2.clock.Timely := by
  cases call with
  | start roster =>
    cases hstarted : duel.started with
    | true =>
      rw [call_start_of_started hstarted]
      exact h
    | false =>
      rw [call_start_of_fresh hstarted]
      exact (putsOff_begun duel roster).timely h
  | request request =>
    cases hrefusal : duel.refusal? request with
    | some refusal =>
      rw [call_request_of_refused hrefusal]
      exact h
    | none =>
      rw [call_request_of_granted hrefusal]
      exact (putsOff_grant duel request).timely h
  | advance elapsed => exact timely_advancedTo duel (le_later _ _)
  | fastForward =>
    change duel.fastForward.clock.Timely
    rw [fastForward]
    split
    · exact h
    · rename_i step clock htaken
      exact timely_fire htaken
  | runUntilIdle => exact Clock.timely_of_idle (pending_runUntilIdle duel)

/-- After any calls no step is overdue. -/
theorem timely_after {duel : Duel χ η δ} (h : duel.clock.Timely) (calls : List HostCall) :
    (duel.after calls).clock.Timely := by
  induction calls generalizing duel with
  | nil => exact h
  | cons call calls ih => exact ih (timely_call h call)

/-! ## The steps of a wait -/

/-- The loop that fires whatever is due by a deadline: from a duel, through steps at their moments,
to the duel at which nothing more is due. -/
inductive Fires (deadline : UInt64) : Duel χ η δ → List Appointment → Duel χ η δ → Prop
  /-- Nothing is due. -/
  | done {duel : Duel χ η δ} (hnone : duel.clock.takeDue? deadline = none) :
      Fires deadline duel [] duel
  /-- The step that is due fires at the moment to which it moves the clock. -/
  | fire {duel last : Duel χ η δ} {step : Deferred} {clock : Clock} {others : List Appointment}
      (htaken : duel.clock.takeDue? deadline = some (step, clock))
      (hothers : Fires deadline ({ duel with clock }.fire step) others last) :
      Fires deadline duel (⟨clock.now, step⟩ :: others) last

/-- The loop comes to its end, and there the duel has caught up. -/
theorem exists_fires (deadline : UInt64) (duel : Duel χ η δ) :
    ∃ steps, Fires deadline duel steps (duel.caughtUp deadline) := by
  refine due_induction deadline
    (P := fun duel => ∃ steps, Fires deadline duel steps (duel.caughtUp deadline)) ?_ ?_ duel
  · intro duel hnone
    rw [caughtUp_of_none duel hnone]
    exact ⟨[], .done hnone⟩
  · intro duel step clock htaken ih
    obtain ⟨others, hothers⟩ := ih
    rw [caughtUp_of_some duel htaken]
    exact ⟨_, .fire htaken hothers⟩

namespace Fires

variable {deadline : UInt64} {duel last : Duel χ η δ} {steps : List Appointment}

/-- From a step that fires no more steps follow than are ahead at the beginning. -/
theorem stepsFrom_le (h : Fires deadline duel steps last) :
    ∀ appointment ∈ steps, appointment.step.stepsFrom ≤ stepsAhead duel.clock := by
  induction h with
  | done => exact nofun
  | fire htaken _ ih =>
    have hnow := Clock.takeNow?_of_takeDue? htaken
    have hfewer := stepsAhead_fire_lt hnow
    obtain ⟨due, hpending, -⟩ := Clock.takeNow?_eq_some_iff.mp hnow
    rw [List.forall_mem_cons]
    refine ⟨Nat.le_of_eq (stepsAhead_of_pending hpending).symm, fun other hother => ?_⟩
    exact Nat.le_trans (ih other hother) (Nat.le_of_lt hfewer)

end Fires

end Runs

/-! ## What a suspended duel announces -/

section Suspended

variable {χ η δ : Type} {duel : Duel χ η δ} {step : Deferred} {rest elapsed : UInt64}

/-- A running duel whose pending step is due in some time, at a moment that the clock has. -/
structure Suspends (duel : Duel χ η δ) (step : Deferred) (rest : UInt64) : Prop where
  /-- The duel has started. -/
  started : duel.started = true
  /-- The duel has not ended. -/
  ending : duel.ending = none
  /-- The step is due when the rest of the time has passed. -/
  pending : duel.clock.pending = some ⟨duel.clock.now + rest, step⟩
  /-- The due moment is not beyond the last one. -/
  fits : duel.clock.now.toNat + rest.toNat < UInt64.size

/-- A duel that says that it is suspended is, if it stands at a stage and nothing is overdue. -/
theorem IsAt.suspends {stage : Stage} (h : duel.IsAt stage) (htimely : duel.clock.Timely)
    (hstatus : duel.status = .suspended rest) : ∃ step, duel.Suspends step rest := by
  cases hp : duel.clock.pending with
  | none => exact absurd hstatus (h.status_ne_suspended hp rest)
  | some appointment =>
    obtain ⟨due, step⟩ := appointment
    have hle : duel.clock.now ≤ due := htimely _ hp
    have hstep : stage.step? duel.current.side = some step := by
      rw [← h.pending, hp]
      rfl
    have hending : duel.ending = none := by
      rw [h.ending]
      exact Stage.ending?_of_step? hstep
    have hannounced := status_of_pending h.started hending hp hle
    rw [hstatus] at hannounced
    cases hannounced
    -- the time announced was not cut off at zero, so it leads to the due moment
    have hsub : (due - duel.clock.now).toNat = due.toNat - duel.clock.now.toNat :=
      UInt64.toNat_sub_of_le _ _ hle
    have hnat : duel.clock.now.toNat ≤ due.toNat := UInt64.le_iff_toNat_le.mp hle
    have hlt : due.toNat < UInt64.size := due.toNat_lt
    have hfits : duel.clock.now.toNat + (due - duel.clock.now).toNat < UInt64.size := by omega
    have hdue : duel.clock.now + (due - duel.clock.now) = due := by
      rw [← later_eq_add hfits, later_sub_of_le hle]
    refine ⟨step, h.started, hending, ?_, hfits⟩
    rw [hdue, hp]

/-- The duel once a step has fired that was due at a moment. -/
def firedAt [Hooks χ] [SpellHandler η] [DieSource δ] (duel : Duel χ η δ) (moment : UInt64)
    (step : Deferred) : Duel χ η δ :=
  (duel.onClock ⟨moment, none⟩).fire step

namespace Suspends

/-- No part of the announced time leads beyond the last moment. -/
theorem fits_of_le (h : duel.Suspends step rest) (hle : elapsed ≤ rest) :
    duel.clock.now.toNat + elapsed.toNat < UInt64.size :=
  Nat.lt_of_le_of_lt (Nat.add_le_add_left (UInt64.le_iff_toNat_le.mp hle) _) h.fits

/-- Any part of the announced time is added to the present moment. -/
theorem later_eq (h : duel.Suspends step rest) (hle : elapsed ≤ rest) :
    later duel.clock.now elapsed = duel.clock.now + elapsed :=
  later_eq_add (h.fits_of_le hle)

/-- The moment after a part of the announced time, as a number. -/
theorem toNat_now_add (h : duel.Suspends step rest) (hle : elapsed ≤ rest) :
    (duel.clock.now + elapsed).toNat = duel.clock.now.toNat + elapsed.toNat := by
  rw [← h.later_eq hle, toNat_later_of_lt (h.fits_of_le hle)]

/-- A part of the announced time does not lead back. -/
theorem now_le_now_add (h : duel.Suspends step rest) (hle : elapsed ≤ rest) :
    duel.clock.now ≤ duel.clock.now + elapsed := by
  rw [← h.later_eq hle]
  exact le_later _ _

/-- The step is taken when at least the announced time has passed, and the clock then stands at the
moment at which it was due. -/
theorem takeDue?_eq (h : duel.Suspends step rest) (hle : rest ≤ elapsed) :
    duel.clock.takeDue? (later duel.clock.now elapsed) =
      some (step, ⟨duel.clock.now + rest, none⟩) := by
  have hdue : duel.clock.now + rest ≤ later duel.clock.now elapsed := by
    rw [← h.later_eq (UInt64.le_refl rest)]
    exact later_le_later _ hle
  refine Clock.takeDue?_eq_some_iff.mpr ⟨_, h.pending, hdue, ?_⟩
  rw [Clock.moveTo_of_le (h.now_le_now_add (UInt64.le_refl rest))]

/-- Waiting on from the due moment ends where the whole wait ends. -/
theorem later_due (h : duel.Suspends step rest) (hle : rest ≤ elapsed) :
    later (duel.clock.now + rest) (elapsed - rest) = later duel.clock.now elapsed := by
  rw [← h.later_eq (UInt64.le_refl rest), later_later, later_sub_of_le hle]

variable [Hooks χ] [SpellHandler η] [DieSource δ]

/-- A wait that is shorter than announced moves the clock and does nothing else. -/
theorem call_advance_of_lt (h : duel.Suspends step rest) (hlt : elapsed < rest) :
    duel.call (.advance elapsed) = (.ok (.suspended (rest - elapsed)),
      { duel with clock := { duel.clock with now := duel.clock.now + elapsed } }) := by
  have hle : elapsed ≤ rest := UInt64.le_of_lt hlt
  have hnat : elapsed.toNat < rest.toNat := UInt64.lt_iff_toNat_lt.mp hlt
  have hdue := h.toNat_now_add (UInt64.le_refl rest)
  have hend := h.toNat_now_add hle
  have hbefore : duel.clock.now + elapsed < duel.clock.now + rest := by
    rw [UInt64.lt_iff_toNat_lt]
    omega
  have hnone : duel.clock.takeDue? (duel.clock.now + elapsed) = none := by
    refine Clock.takeDue?_eq_none_iff.mpr fun appointment hmem => ?_
    rw [h.pending] at hmem
    cases hmem
    exact hbefore
  have hadvance : duel.advance elapsed =
      { duel with clock := { duel.clock with now := duel.clock.now + elapsed } } := by
    rw [advance_eq_advancedTo, h.later_eq hle, advancedTo_of_none duel hnone,
      Clock.moveTo_of_le (h.now_le_now_add hle)]
  have hleft : duel.clock.now + rest - (duel.clock.now + elapsed) = rest - elapsed := by
    rw [← UInt64.toNat_inj, UInt64.toNat_sub_of_le _ _ (UInt64.le_of_lt hbefore),
      UInt64.toNat_sub_of_le _ _ hle]
    omega
  have hstatus : (duel.advance elapsed).status = .suspended (rest - elapsed) := by
    rw [hadvance, ← hleft]
    exact status_of_pending h.started h.ending h.pending (UInt64.le_of_lt hbefore)
  rw [call, hstatus, hadvance]

/-- A wait of at least the announced time fires the step when it is due, and is from there on a wait
for what is left of the time. -/
theorem call_advance_of_le (h : duel.Suspends step rest) (hle : rest ≤ elapsed) :
    duel.call (.advance elapsed) =
      (duel.firedAt (duel.clock.now + rest) step).call (.advance (elapsed - rest)) := by
  have hnow : (duel.firedAt (duel.clock.now + rest) step).clock.now = duel.clock.now + rest :=
    now_fire _ step
  have hadvance : duel.advance elapsed =
      (duel.firedAt (duel.clock.now + rest) step).advance (elapsed - rest) := by
    rw [advance_eq_advancedTo, advancedTo_of_some duel (h.takeDue?_eq hle), ← h.later_due hle,
      advance_eq_advancedTo, hnow]
    rfl
  rw [call, call, hadvance]

/-- In a wait of at least the announced time the step fires first, and not again. -/
theorem fires (h : duel.Suspends step rest) (hle : rest ≤ elapsed) :
    ∃ others last, Fires (later duel.clock.now elapsed) duel
        (⟨duel.clock.now + rest, step⟩ :: others) last ∧
      (∀ other ∈ others, other.step ≠ step) ∧
      (duel.call (.advance elapsed)).2 =
        { last with clock := last.clock.moveTo (later duel.clock.now elapsed) } := by
  have htaken := h.takeDue?_eq hle
  obtain ⟨others, hothers⟩ :=
    exists_fires (later duel.clock.now elapsed) (duel.firedAt (duel.clock.now + rest) step)
  have hfewer := stepsAhead_fire_lt (Clock.takeNow?_of_takeDue? htaken)
  rw [stepsAhead_of_pending h.pending] at hfewer
  refine ⟨others, duel.caughtUp (later duel.clock.now elapsed), ?_, ?_, rfl⟩
  · rw [caughtUp_of_some duel htaken]
    exact .fire htaken hothers
  · rintro other hother rfl
    exact Nat.not_lt.mpr (hothers.stepsFrom_le other hother) hfewer

end Suspends

end Suspended

variable {χ η δ : Type} [Hooks χ] [SpellHandler η] [DieSource δ]
variable (settings : Settings) (hooks : χ) (handler : η) (dice : δ)

/-- A suspended duel keeps to what it announces. A shorter wait leaves it as it is in all its parts,
except that the clock stands later and less time is announced. With the announced time, or any
longer one, the pending step is taken and fires at the moment that was announced, first of all and
once, and whatever is left of the time is waited for from there. The moments add up without reaching
beyond the last one, and no calls take the clock back. -/
theorem suspended_after_calls (calls : List HostCall) :
    let duel := (new settings hooks handler dice).after calls
    (∀ more, duel.clock.now ≤ (duel.after more).clock.now) ∧
      ∀ rest, duel.status = .suspended rest →
        duel.clock.now.toNat + rest.toNat < UInt64.size ∧
        (∀ elapsed, elapsed < rest →
          duel.call (.advance elapsed) = (.ok (.suspended (rest - elapsed)),
            { duel with clock := { duel.clock with now := duel.clock.now + elapsed } })) ∧
        ∃ step, duel.clock.pending = some ⟨duel.clock.now + rest, step⟩ ∧
          ∀ elapsed, rest ≤ elapsed →
            duel.call (.advance elapsed) =
              (duel.firedAt (duel.clock.now + rest) step).call (.advance (elapsed - rest)) ∧
            ∃ others last, Fires (later duel.clock.now elapsed) duel
                (⟨duel.clock.now + rest, step⟩ :: others) last ∧
              (∀ other ∈ others, other.step ≠ step) ∧
              (duel.call (.advance elapsed)).2 =
                { last with clock := last.clock.moveTo (later duel.clock.now elapsed) } := by
  intro duel
  refine ⟨fun more => (moves_after duel more).le_now, fun rest hstatus => ?_⟩
  have htimely : duel.clock.Timely := timely_after (Clock.timely_of_idle rfl) calls
  have hsuspends : ∃ step, duel.Suspends step rest := by
    rcases waited_or_isAt settings hooks handler dice calls with ⟨now, hnow⟩ | ⟨stage, hat⟩
    · have hfresh : duel.status = .notStarted := congrArg status hnow
      rw [hstatus] at hfresh
      cases hfresh
    · exact hat.suspends htimely hstatus
  obtain ⟨step, hstep⟩ := hsuspends
  exact ⟨hstep.fits, fun elapsed hlt => hstep.call_advance_of_lt hlt, step, hstep.pending,
    fun elapsed hle => ⟨hstep.call_advance_of_le hle, hstep.fires hle⟩⟩

/-- The enemy's die has rolled for all of its time but one unit, or for longer. -/
theorem suspended_after_calls_enemy :
    let duel := (new { opener := .enemy } ({} : Recorder) Journal.empty
      (ScriptedDice.ofRolls [4])).after [.start {}]
    duel.status = .suspended 1000 ∧
      duel.call (.advance 999) = (.ok (.suspended (1000 - 999)),
        { duel with clock := { duel.clock with now := duel.clock.now + 999 } }) ∧
      ∃ step, duel.clock.pending = some ⟨duel.clock.now + 1000, step⟩ ∧
        duel.call (.advance 2500) =
          (duel.firedAt (duel.clock.now + 1000) step).call (.advance (2500 - 1000)) := by
  obtain ⟨-, hannounced⟩ := suspended_after_calls { opener := .enemy } ({} : Recorder) Journal.empty
    (ScriptedDice.ofRolls [4]) [.start {}]
  obtain ⟨-, hshorter, step, hpending, hlonger⟩ := hannounced 1000 rfl
  exact ⟨rfl, hshorter 999 (by decide), step, hpending, (hlonger 2500 (by decide)).1⟩

end Duel

end DiceDuel
