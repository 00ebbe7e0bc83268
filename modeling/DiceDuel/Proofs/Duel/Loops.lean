import DiceDuel.Proofs.Duel.Suspension

/-!
# The loops of a duel come to an end

Time passes for a duel in a loop that fires whatever is due, and a duel runs until it is idle in a
loop that fires whatever is pending. Neither loop can be bounded by the time, since a step may be
due at the moment at which it is put off: with no delay, or at the last moment of the clock. What
bounds them is the kind of the step. A reveal may put off a cast, a cast puts off the settling, and
the settling puts off nothing. So each loop fires at most three steps, for every value that a duel
can have, whether or not calls of a host lead to it.
-/

namespace DiceDuel

namespace Duel

variable {χ η δ : Type} [Hooks χ] [SpellHandler η] [DieSource δ]

/-- No more than three steps are ever ahead. -/
theorem stepsAhead_le_three (clock : Clock) : stepsAhead clock ≤ 3 := by
  cases hp : clock.pending with
  | none => simp [stepsAhead_of_idle hp]
  | some appointment =>
    obtain ⟨due, step⟩ := appointment
    rw [stepsAhead_of_pending hp]
    cases step <;> simp [Deferred.stepsFrom]

/-! ## What a firing leaves pending -/

section Firing

/-- A step that is taken fires on an idle clock at the moment to which it moves the clock. -/
theorem fire_eq_firedAt {duel : Duel χ η δ} {step : Deferred} {clock : Clock}
    (htaken : duel.clock.takeNow? = some (step, clock)) :
    { duel with clock }.fire step = duel.firedAt clock.now step := by
  obtain ⟨due, -, rfl⟩ := Clock.takeNow?_eq_some_iff.mp htaken
  rfl

variable (duel : Duel χ η δ) (moment : UInt64)

/-- A reveal leaves nothing pending in the player's turn, and the enemy's cast in the enemy's. -/
theorem clock_firedAt_reveal : (duel.firedAt moment .reveal).clock =
    ⟨moment, match duel.current.side with
      | .player => none
      | .enemy => some ⟨later moment duel.settings.castDelay, .cast (.ofFace duel.nextFace)⟩⟩ := by
  rw [firedAt, fire]
  cases hside : duel.current.side with
  | player =>
    rw [reveal_of_player (duel.onClock ⟨moment, none⟩) hside]
    rfl
  | enemy =>
    rw [reveal_of_enemy (duel.onClock ⟨moment, none⟩) hside]
    rfl

/-- A cast leaves the end of its animation pending. -/
theorem clock_firedAt_cast (code : Code) : (duel.firedAt moment (.cast code)).clock =
    ⟨moment, some ⟨later moment duel.settings.animationDelay, .settle⟩⟩ := rfl

/-- The end of an animation leaves nothing pending. -/
theorem clock_firedAt_settle : (duel.firedAt moment .settle).clock = ⟨moment, none⟩ := by
  rcases clock_fire (duel.onClock ⟨moment, none⟩) .settle with
    hkept | ⟨delay, following, -, hfewer⟩
  · exact hkept
  · have hpos := following.stepsFrom_pos
    rw [Deferred.stepsFrom] at hfewer
    omega

end Firing

/-! ## The loop of a wait -/

namespace Fires

variable {deadline : UInt64} {duel last final : Duel χ η δ} {steps others : List Appointment}

/-- The loop is determined by where it starts. -/
theorem unique (h : Fires deadline duel steps last) (h' : Fires deadline duel others final) :
    others = steps ∧ final = last := by
  induction h generalizing others final with
  | done hnone =>
    cases h' with
    | done _ => exact ⟨rfl, rfl⟩
    | fire htaken _ =>
      rw [hnone] at htaken
      cases htaken
  | fire htaken _ ih =>
    cases h' with
    | done hnone =>
      rw [hnone] at htaken
      cases htaken
    | fire htaken' hothers =>
      rw [htaken] at htaken'
      cases htaken'
      obtain ⟨hsteps, hlast⟩ := ih hothers
      exact ⟨by rw [hsteps], hlast⟩

/-- The loop fires no more steps than are ahead where it starts. -/
theorem length_le (h : Fires deadline duel steps last) :
    steps.length ≤ stepsAhead duel.clock := by
  induction h with
  | done => exact Nat.zero_le _
  | fire htaken _ ih =>
    have hfewer := stepsAhead_fire_lt (Clock.takeNow?_of_takeDue? htaken)
    rw [List.length_cons]
    omega

/-- Nothing is due where the loop ends. -/
theorem takeDue?_last (h : Fires deadline duel steps last) :
    last.clock.takeDue? deadline = none := by
  induction h with
  | done hnone => exact hnone
  | fire _ _ ih => exact ih

end Fires

/-- There is one way through the loop of a wait, it ends where the duel has caught up, and it fires
at most three steps. -/
theorem exists_fires_iff (deadline : UInt64) (duel : Duel χ η δ) :
    ∃ steps, steps.length ≤ 3 ∧ ∀ others final,
      Fires deadline duel others final ↔ others = steps ∧ final = duel.caughtUp deadline := by
  obtain ⟨steps, hfires⟩ := exists_fires deadline duel
  refine ⟨steps, Nat.le_trans hfires.length_le (stepsAhead_le_three _), fun others final => ?_⟩
  constructor
  · intro hother
    exact hfires.unique hother
  · rintro ⟨rfl, rfl⟩
    exact hfires

/-! ## The loop of a run until nothing is pending -/

/-- The loop that fires the pending step at once until none is left: from a duel, through steps at
their moments, to the duel that is idle. -/
inductive Empties : Duel χ η δ → List Appointment → Duel χ η δ → Prop
  /-- Nothing is pending. -/
  | done {duel : Duel χ η δ} (hidle : duel.clock.isIdle = true) : Empties duel [] duel
  /-- The pending step fires at the moment to which it moves the clock. -/
  | fire {duel last : Duel χ η δ} {step : Deferred} {clock : Clock} {others : List Appointment}
      (htaken : duel.clock.takeNow? = some (step, clock))
      (hothers : Empties duel.fastForward others last) :
      Empties duel (⟨clock.now, step⟩ :: others) last

/-- A duel that fires its pending step at once. -/
theorem fastForward_of_some {duel : Duel χ η δ} {step : Deferred} {clock : Clock}
    (htaken : duel.clock.takeNow? = some (step, clock)) :
    duel.fastForward = { duel with clock }.fire step := by
  rw [fastForward, htaken]

/-- Firing whatever is pending is firing whatever is due by the last moment. -/
theorem empties_iff_fires {duel last : Duel χ η δ} {steps : List Appointment} :
    Empties duel steps last ↔ Fires lastMoment duel steps last := by
  constructor
  · intro h
    induction h with
    | done hidle => exact .done (Clock.takeDue?_of_idle (Option.isNone_iff_eq_none.mp hidle))
    | fire htaken _ ih =>
      rw [fastForward_of_some htaken] at ih
      exact .fire ((Clock.takeDue?_lastMoment _).trans htaken) ih
  · intro h
    induction h with
    | done hnone =>
      rw [Clock.takeDue?_lastMoment, Clock.takeNow?, Option.map_eq_none_iff] at hnone
      exact .done (Option.isNone_iff_eq_none.mpr hnone)
    | fire htaken _ ih =>
      rw [Clock.takeDue?_lastMoment] at htaken
      refine .fire htaken ?_
      rw [fastForward_of_some htaken]
      exact ih

/-- The loops of a duel come to an end, whatever value the duel has and however long a wait is.
There is one way through each loop, and it fires at most three steps. A wait ends, with its clock
moved to the deadline, where the loop does, and what is pending then is due after the deadline; a
run until nothing is pending ends where its loop does, and nothing is pending. A step that is taken
fires on an idle clock, so that a reveal leaves nothing pending or the enemy's cast, a cast leaves
the end of its animation, and the end of an animation leaves nothing. -/
theorem loops_end (duel : Duel χ η δ) (elapsed : UInt64) :
    let deadline := later duel.clock.now elapsed
    (∃ steps last, steps.length ≤ 3 ∧
      (∀ others final, Fires deadline duel others final ↔ others = steps ∧ final = last) ∧
      duel.advance elapsed = { last with clock := last.clock.moveTo deadline } ∧
      ∀ appointment ∈ (duel.advance elapsed).clock.pending, deadline < appointment.due) ∧
    (∃ steps last, steps.length ≤ 3 ∧
      (∀ others final, Empties duel others final ↔ others = steps ∧ final = last) ∧
      duel.runUntilIdle = last ∧ last.clock.pending = none) ∧
    (∀ step clock, duel.clock.takeNow? = some (step, clock) →
      { duel with clock }.fire step = duel.firedAt clock.now step) ∧
    ∀ moment,
      (duel.firedAt moment .reveal).clock = ⟨moment, match duel.current.side with
        | .player => none
        | .enemy =>
          some ⟨later moment duel.settings.castDelay, .cast (.ofFace duel.nextFace)⟩⟩ ∧
      (∀ code, (duel.firedAt moment (.cast code)).clock =
        ⟨moment, some ⟨later moment duel.settings.animationDelay, .settle⟩⟩) ∧
      (duel.firedAt moment .settle).clock = ⟨moment, none⟩ := by
  intro deadline
  refine ⟨?_, ?_, fun step clock => fire_eq_firedAt, fun moment =>
    ⟨duel.clock_firedAt_reveal moment, duel.clock_firedAt_cast moment,
      duel.clock_firedAt_settle moment⟩⟩
  · obtain ⟨steps, hthree, hfires⟩ := exists_fires_iff deadline duel
    have hlast := ((hfires steps _).mpr ⟨rfl, rfl⟩).takeDue?_last
    -- the clock is moved on, and what is pending stays as the loop has left it
    exact ⟨steps, duel.caughtUp deadline, hthree, hfires, rfl, fun appointment hpending =>
      Clock.takeDue?_eq_none_iff.mp hlast appointment hpending⟩
  · obtain ⟨steps, hthree, hfires⟩ := exists_fires_iff lastMoment duel
    have hrun := duel.runUntilIdle_eq_caughtUp
    refine ⟨steps, duel.runUntilIdle, hthree, fun others final => ?_, rfl,
      pending_runUntilIdle duel⟩
    rw [empties_iff_fires, hfires, hrun]

/-- With no delays a wait of no time fires all three steps of the enemy's turn. -/
example :
    let duel := (new { Settings.instant with opener := .enemy }
      ({} : Recorder) Journal.empty (ScriptedDice.ofRolls [4])).after [.start {}]
    (duel.advance 0).history.map Snapshot.phase =
      [.opening, .opening, .casting, .animating, .closing] := by
  decide

end Duel

end DiceDuel
