import DiceDuel.Proofs.Duel.Stages

/-!
# Waiting

The loops that fire pending steps are bounded by a number that is read off the clock. A firing
keeps the clock or puts off one step that has fewer steps behind it, so the bound is never what ends
a loop, and both loops obey the equations of a loop without a bound. From these equations it
follows, for every duel and all delays, that a wait may be cut into two at any moment. No change of a
duel takes its clock back.
-/

namespace DiceDuel

/-- How many steps follow from a step on, with the step itself. -/
def Deferred.stepsFrom : Deferred → Nat
  | .settle => 1
  | .cast _ => 2
  | .reveal => 3

/-- At least the step itself follows from it on. -/
theorem Deferred.stepsFrom_pos (step : Deferred) : 0 < step.stepsFrom := by
  cases step <;> exact Nat.succ_pos _

/-- The last moment of a clock. -/
def lastMoment : UInt64 := UInt64.ofNat (UInt64.size - 1)

/-- No moment is after the last one. -/
theorem le_lastMoment (time : UInt64) : time ≤ lastMoment := by
  have hlast : lastMoment.toNat = UInt64.size - 1 := UInt64.toNat_ofNat_of_lt' (by decide)
  have hlt : time.toNat < UInt64.size := time.toNat_lt
  rw [UInt64.le_iff_toNat_le, hlast]
  omega

/-- Two delays one after the other are one delay of both. -/
theorem later_later (time first second : UInt64) :
    later (later time first) second = later time (later first second) := by
  rw [← UInt64.toNat_inj]
  simp only [toNat_later]
  omega

/-- A delay leads to no earlier moment. -/
theorem le_later (time delay : UInt64) : time ≤ later time delay := by
  have hlt : time.toNat < UInt64.size := time.toNat_lt
  rw [UInt64.le_iff_toNat_le, toNat_later]
  omega

/-- Delays that fit the clock together are added. -/
theorem later_eq_add {first second : UInt64} (hfits : first.toNat + second.toNat < UInt64.size) :
    later first second = first + second := by
  have hsum : (first + second).toNat = first.toNat + second.toNat := by
    rw [UInt64.toNat_add]
    exact Nat.mod_eq_of_lt hfits
  rw [← UInt64.toNat_inj, toNat_later, hsum]
  omega

namespace Clock

/-- A clock moves to the later of its moment and the other. -/
theorem toNat_now_moveTo (clock : Clock) (time : UInt64) :
    (clock.moveTo time).now.toNat = max clock.now.toNat time.toNat := by
  change (if clock.now ≤ time then time else clock.now).toNat = _
  split
  · rename_i hle
    rw [Nat.max_eq_right (UInt64.le_iff_toNat_le.mp hle)]
  · rename_i hgt
    have hlt : time.toNat < clock.now.toNat := Nat.lt_of_not_le (mt UInt64.le_iff_toNat_le.mpr hgt)
    rw [Nat.max_eq_left (Nat.le_of_lt hlt)]

/-- Clocks with the same moment and the same pending step are equal. -/
theorem eq_of_toNat_now_eq {clock other : Clock} (hnow : clock.now.toNat = other.now.toNat)
    (hpending : clock.pending = other.pending) : clock = other := by
  obtain ⟨now, pending⟩ := clock
  obtain ⟨otherNow, otherPending⟩ := other
  obtain rfl : now = otherNow := UInt64.toNat_inj.mp hnow
  obtain rfl : pending = otherPending := hpending
  rfl

/-- On the way to a moment a clock may be moved to an earlier one. -/
theorem moveTo_moveTo (clock : Clock) {time deadline : UInt64} (hle : time ≤ deadline) :
    (clock.moveTo time).moveTo deadline = clock.moveTo deadline := by
  refine eq_of_toNat_now_eq ?_ rfl
  have hnat : time.toNat ≤ deadline.toNat := UInt64.le_iff_toNat_le.mp hle
  simp only [toNat_now_moveTo]
  omega

/-- A clock that is not past a moment moves exactly to it. -/
theorem now_moveTo_of_le {clock : Clock} {time : UInt64} (hle : clock.now ≤ time) :
    (clock.moveTo time).now = time := by
  have hnat : clock.now.toNat ≤ time.toNat := UInt64.le_iff_toNat_le.mp hle
  rw [← UInt64.toNat_inj, toNat_now_moveTo]
  omega

/-- A clock from which a step is taken does not go back. -/
theorem le_now_of_takeNow? {clock next : Clock} {step : Deferred}
    (htaken : clock.takeNow? = some (step, next)) : clock.now ≤ next.now := by
  obtain ⟨due, -, rfl⟩ := takeNow?_eq_some_iff.mp htaken
  exact clock.le_moveTo due

/-- What is taken by a deadline is the pending step, if it is due by then. -/
theorem takeDue?_eq_some_iff {clock next : Clock} {deadline : UInt64} {step : Deferred} :
    clock.takeDue? deadline = some (step, next) ↔
      ∃ due, clock.pending = some ⟨due, step⟩ ∧ due ≤ deadline ∧
        next = { clock.moveTo due with pending := none } := by
  unfold takeDue?
  cases hp : clock.pending with
  | none => simp
  | some appointment =>
    obtain ⟨due, planned⟩ := appointment
    dsimp only
    by_cases hdue : due ≤ deadline
    · rw [if_pos hdue, takeNow?_eq_some_iff, hp]
      constructor
      · rintro ⟨moment, ⟨⟩, hnext⟩
        exact ⟨due, rfl, hdue, hnext⟩
      · rintro ⟨moment, ⟨⟩, -, hnext⟩
        exact ⟨due, rfl, hnext⟩
    · rw [if_neg hdue]
      constructor
      · rintro ⟨⟩
      · rintro ⟨moment, ⟨⟩, hmoment, -⟩
        exact absurd hmoment hdue

/-- Nothing is taken by a deadline if what is pending is due after it. -/
theorem takeDue?_eq_none_iff {clock : Clock} {deadline : UInt64} :
    clock.takeDue? deadline = none ↔
      ∀ appointment ∈ clock.pending, deadline < appointment.due := by
  unfold takeDue?
  cases hp : clock.pending with
  | none => simp
  | some appointment =>
    dsimp only
    by_cases hdue : appointment.due ≤ deadline
    · have htaken : clock.takeNow? ≠ none := by
        rw [takeNow?, hp]
        exact nofun
      rw [if_pos hdue]
      exact iff_of_false htaken fun hlate =>
        absurd hdue (UInt64.not_le.mpr (hlate appointment rfl))
    · rw [if_neg hdue]
      refine iff_of_true rfl fun other hother => ?_
      cases hother
      exact UInt64.not_le.mp hdue

/-- A clock that is not past a deadline is not moved past it by a step that is due. -/
theorem now_le_of_takeDue? {clock next : Clock} {deadline : UInt64} {step : Deferred}
    (htaken : clock.takeDue? deadline = some (step, next)) (hle : clock.now ≤ deadline) :
    next.now ≤ deadline := by
  obtain ⟨due, -, hdue, rfl⟩ := takeDue?_eq_some_iff.mp htaken
  change (clock.moveTo due).now ≤ deadline
  rw [UInt64.le_iff_toNat_le, toNat_now_moveTo]
  exact Nat.max_le.mpr ⟨UInt64.le_iff_toNat_le.mp hle, UInt64.le_iff_toNat_le.mp hdue⟩

/-- An idle clock has nothing that is due. -/
theorem takeDue?_of_idle {clock : Clock} {deadline : UInt64} (hidle : clock.pending = none) :
    clock.takeDue? deadline = none := by
  rw [takeDue?, hidle]

/-- By the last moment every step is due. -/
theorem takeDue?_lastMoment (clock : Clock) : clock.takeDue? lastMoment = clock.takeNow? := by
  unfold takeDue?
  cases hp : clock.pending with
  | none => rw [takeNow?, hp, Option.map_none]
  | some appointment => exact if_pos (le_lastMoment _)

/-- What is due by a deadline is due by every later one. -/
theorem takeDue?_of_le {clock : Clock} {time deadline : UInt64} (hle : time ≤ deadline)
    {taken : Deferred × Clock} (htaken : clock.takeDue? time = some taken) :
    clock.takeDue? deadline = some taken := by
  obtain ⟨step, next⟩ := taken
  obtain ⟨due, hpending, hdue, hnext⟩ := takeDue?_eq_some_iff.mp htaken
  exact takeDue?_eq_some_iff.mpr ⟨due, hpending, UInt64.le_trans hdue hle, hnext⟩

/-- A step that is not due by a moment is taken later as if the clock had not moved there first. -/
theorem takeDue?_moveTo {clock : Clock} {time : UInt64} (hnone : clock.takeDue? time = none)
    (deadline : UInt64) : (clock.moveTo time).takeDue? deadline = clock.takeDue? deadline := by
  refine Option.ext fun taken => ?_
  obtain ⟨step, next⟩ := taken
  rw [takeDue?_eq_some_iff, takeDue?_eq_some_iff]
  refine exists_congr fun due => ?_
  change clock.pending = _ ∧ _ ↔ _
  refine and_congr_right fun hpending => and_congr_right fun _ => ?_
  have hlate : time < due := takeDue?_eq_none_iff.mp hnone ⟨due, step⟩ hpending
  rw [moveTo_moveTo clock (UInt64.le_of_lt hlate)]

/-- A clock is as it was, or a step has been put off on it. -/
def PutsOff (clock next : Clock) : Prop :=
  next = clock ∨ ∃ delay step, next = clock.schedule delay step

/-- To put a step off takes no time. -/
theorem PutsOff.now_eq {clock next : Clock} (h : clock.PutsOff next) : next.now = clock.now := by
  obtain rfl | ⟨delay, step, rfl⟩ := h
  · rfl
  · rfl

end Clock

namespace Duel

variable {χ η δ : Type}

/-- As many steps are ahead as follow from the pending one. -/
theorem stepsAhead_of_pending {clock : Clock} {due : UInt64} {step : Deferred}
    (hpending : clock.pending = some ⟨due, step⟩) : stepsAhead clock = step.stepsFrom := by
  unfold stepsAhead
  rw [hpending, Option.map_some]
  cases step <;> rfl

/-- No steps are ahead when none is pending. -/
theorem stepsAhead_of_idle {clock : Clock} (hidle : clock.pending = none) :
    stepsAhead clock = 0 := by
  unfold stepsAhead
  rw [hidle, Option.map_none]

/-- Nothing is pending when no steps are ahead. -/
theorem idle_of_stepsAhead {clock : Clock} (hahead : stepsAhead clock = 0) :
    clock.pending = none := by
  cases hp : clock.pending with
  | none => rfl
  | some appointment =>
    obtain ⟨due, step⟩ := appointment
    rw [stepsAhead_of_pending hp] at hahead
    cases step <;> cases hahead

variable [Hooks χ]

/-- A turn that opens puts off the reveal, if it is the enemy's. -/
theorem putsOff_openTurn (duel : Duel χ η δ) (side : Side) :
    duel.clock.PutsOff (duel.openTurn side).clock := by
  cases side with
  | player => exact .inl rfl
  | enemy => exact .inr ⟨_, _, rfl⟩

/-- A start puts off the first reveal, if the enemy opens. -/
theorem putsOff_begun (duel : Duel χ η δ) (roster : Roster) :
    duel.clock.PutsOff (duel.begun roster).clock :=
  putsOff_openTurn { duel with started := true, hooks := Hooks.startBattle duel.hooks roster }
    duel.settings.opener

variable [SpellHandler η] [DieSource δ]

/-- A granted request puts off at most one step. -/
theorem putsOff_grant (duel : Duel χ η δ) (request : Request) :
    duel.clock.PutsOff (duel.grant request).clock := by
  cases request with
  | roll side => exact .inr ⟨_, _, rfl⟩
  | cast code => exact .inr ⟨_, _, rfl⟩
  | close => exact putsOff_openTurn duel _

/-- A firing keeps the clock as it is, or puts off one step from which fewer steps follow. -/
theorem clock_fire (duel : Duel χ η δ) (step : Deferred) :
    (duel.fire step).clock = duel.clock ∨
      ∃ delay following, (duel.fire step).clock = duel.clock.schedule delay following ∧
        following.stepsFrom < step.stepsFrom := by
  cases step with
  | reveal =>
    cases hside : duel.current.side with
    | player =>
      refine .inl ?_
      rw [fire, reveal_of_player duel hside]
      rfl
    | enemy =>
      refine .inr ⟨duel.settings.castDelay, .cast (.ofFace duel.nextFace), ?_, Nat.lt_succ_self 2⟩
      rw [fire, reveal_of_enemy duel hside]
  | cast code => exact .inr ⟨duel.settings.animationDelay, .settle, rfl, Nat.lt_succ_self 1⟩
  | settle =>
    refine .inl ?_
    have hsettles := settles_settle duel
    rw [fire]
    generalize duel.settle = next at hsettles
    cases hsettles with
    | death dead => rfl
    | lateDeath alive dead => rfl
    | noDeath alive still => rfl

/-- A step that fires puts off at most one other. -/
theorem putsOff_fire (duel : Duel χ η δ) (step : Deferred) :
    duel.clock.PutsOff (duel.fire step).clock :=
  (clock_fire duel step).imp id fun ⟨delay, following, hput, _⟩ => ⟨delay, following, hput⟩

/-- A firing takes no time. -/
theorem now_fire (duel : Duel χ η δ) (step : Deferred) :
    (duel.fire step).clock.now = duel.clock.now :=
  (putsOff_fire duel step).now_eq

/-- No move takes the clock back. -/
theorem Move.le_now {duel next : Duel χ η δ} (hmove : Move duel next) :
    duel.clock.now ≤ next.clock.now := by
  cases hmove with
  | start fresh roster => exact UInt64.le_of_eq (putsOff_begun duel roster).now_eq.symm
  | request granted => exact UInt64.le_of_eq (putsOff_grant duel _).now_eq.symm
  | fire taken =>
    rw [now_fire]
    exact Clock.le_now_of_takeNow? taken
  | wait time => exact duel.clock.le_moveTo time

/-- No moves take the clock back. -/
theorem Moves.le_now {duel next : Duel χ η δ} (hmoves : Moves duel next) :
    duel.clock.now ≤ next.clock.now :=
  hmoves.preserve (P := fun next => duel.clock.now ≤ next.clock.now)
    (fun hle hmove => UInt64.le_trans hle hmove.le_now) (UInt64.le_refl _)

/-- When the pending step has fired, fewer steps are ahead. -/
theorem stepsAhead_fire_lt {duel : Duel χ η δ} {step : Deferred} {clock : Clock}
    (htaken : duel.clock.takeNow? = some (step, clock)) :
    stepsAhead ({ duel with clock }.fire step).clock < stepsAhead duel.clock := by
  obtain ⟨due, hpending, -⟩ := Clock.takeNow?_eq_some_iff.mp htaken
  rw [stepsAhead_of_pending hpending]
  rcases clock_fire { duel with clock } step with hkept | ⟨delay, following, hput, hfewer⟩
  · rw [hkept, stepsAhead_of_idle (Clock.pending_of_takeNow? htaken)]
    exact step.stepsFrom_pos
  · rw [hput, stepsAhead_of_pending rfl]
    exact hfewer

/-- A loop fires nothing when nothing is due. -/
theorem fireDue_of_none {deadline : UInt64} (n : Nat) {duel : Duel χ η δ}
    (hnone : duel.clock.takeDue? deadline = none) : fireDue deadline n duel = duel := by
  cases n with
  | zero => rfl
  | succ n => rw [fireDue, hnone]

/-- A loop that may fire at least all the steps that are ahead does not depend on its bound. -/
theorem fireDue_eq_of_le {deadline : UInt64} {m n : Nat} {duel : Duel χ η δ}
    (hm : stepsAhead duel.clock ≤ m) (hn : stepsAhead duel.clock ≤ n) :
    fireDue deadline m duel = fireDue deadline n duel := by
  induction m generalizing n duel with
  | zero =>
    have hidle : duel.clock.pending = none := idle_of_stepsAhead (Nat.le_zero.mp hm)
    rw [fireDue, fireDue_of_none n (Clock.takeDue?_of_idle hidle)]
  | succ m ih =>
    cases n with
    | zero =>
      have hidle : duel.clock.pending = none := idle_of_stepsAhead (Nat.le_zero.mp hn)
      rw [fireDue_of_none _ (Clock.takeDue?_of_idle hidle), fireDue]
    | succ n =>
      rw [fireDue, fireDue]
      cases htaken : duel.clock.takeDue? deadline with
      | none => rfl
      | some taken =>
        obtain ⟨step, clock⟩ := taken
        have hfewer := stepsAhead_fire_lt (Clock.takeNow?_of_takeDue? htaken)
        exact ih (by omega) (by omega)

/-- A duel once every step that falls due by a deadline has fired. -/
def caughtUp (deadline : UInt64) (duel : Duel χ η δ) : Duel χ η δ :=
  fireDue deadline (stepsAhead duel.clock) duel

/-- When nothing is due, nothing fires. -/
theorem caughtUp_of_none {deadline : UInt64} (duel : Duel χ η δ)
    (hnone : duel.clock.takeDue? deadline = none) : duel.caughtUp deadline = duel :=
  fireDue_of_none _ hnone

/-- A step that is due fires, and then whatever is due after it. -/
theorem caughtUp_of_some {deadline : UInt64} (duel : Duel χ η δ) {step : Deferred} {clock : Clock}
    (htaken : duel.clock.takeDue? deadline = some (step, clock)) :
    duel.caughtUp deadline = ({ duel with clock }.fire step).caughtUp deadline := by
  have hfewer := stepsAhead_fire_lt (Clock.takeNow?_of_takeDue? htaken)
  -- with one more firing allowed the loop can be opened once
  have hmore : duel.caughtUp deadline = fireDue deadline (stepsAhead duel.clock + 1) duel :=
    fireDue_eq_of_le (Nat.le_refl _) (Nat.le_succ _)
  rw [hmore, fireDue, htaken]
  exact fireDue_eq_of_le (Nat.le_of_lt hfewer) (Nat.le_refl _)

/-- What holds when nothing is due, and holds before a firing if it holds after it, always holds. -/
theorem due_induction (deadline : UInt64) {P : Duel χ η δ → Prop}
    (hnone : ∀ {duel : Duel χ η δ}, duel.clock.takeDue? deadline = none → P duel)
    (hsome : ∀ {duel : Duel χ η δ} {step : Deferred} {clock : Clock},
      duel.clock.takeDue? deadline = some (step, clock) → P ({ duel with clock }.fire step) →
        P duel)
    (duel : Duel χ η δ) : P duel := by
  induction hahead : stepsAhead duel.clock using Nat.strongRecOn generalizing duel with
  | ind ahead ih =>
    cases htaken : duel.clock.takeDue? deadline with
    | none => exact hnone htaken
    | some taken =>
      obtain ⟨step, clock⟩ := taken
      have hfewer := stepsAhead_fire_lt (Clock.takeNow?_of_takeDue? htaken)
      exact hsome htaken (ih _ (hahead ▸ hfewer) _ rfl)

/-- Firing the pending step a number of times is firing what is due by the last moment. -/
theorem fastForwardBy_eq_fireDue (n : Nat) (duel : Duel χ η δ) :
    fastForwardBy n duel = fireDue lastMoment n duel := by
  induction n generalizing duel with
  | zero => rfl
  | succ n ih =>
    rw [fastForwardBy, ih, fireDue, Clock.takeDue?_lastMoment, fastForward]
    cases htaken : duel.clock.takeNow? with
    | none => exact fireDue_of_none n ((Clock.takeDue?_lastMoment _).trans htaken)
    | some taken => rfl

/-- Running until nothing is pending is firing what is due by the last moment. -/
theorem runUntilIdle_eq_caughtUp (duel : Duel χ η δ) :
    duel.runUntilIdle = duel.caughtUp lastMoment :=
  fastForwardBy_eq_fireDue _ duel

/-- A duel that is idle stays as it is when it is run until it is idle. -/
theorem runUntilIdle_of_none (duel : Duel χ η δ) (hidle : duel.clock.pending = none) :
    duel.runUntilIdle = duel := by
  rw [runUntilIdle_eq_caughtUp]
  exact caughtUp_of_none duel (Clock.takeDue?_of_idle hidle)

/-- A pending step that has fired makes no difference to a run until nothing is pending. -/
theorem runUntilIdle_of_some (duel : Duel χ η δ) {step : Deferred} {clock : Clock}
    (htaken : duel.clock.takeNow? = some (step, clock)) :
    duel.runUntilIdle = ({ duel with clock }.fire step).runUntilIdle := by
  rw [runUntilIdle_eq_caughtUp, runUntilIdle_eq_caughtUp]
  exact caughtUp_of_some duel ((Clock.takeDue?_lastMoment _).trans htaken)

/-- A duel once time has passed up to a moment. -/
def advancedTo (time : UInt64) (duel : Duel χ η δ) : Duel χ η δ :=
  { duel.caughtUp time with clock := (duel.caughtUp time).clock.moveTo time }

/-- Letting time pass is waiting up to a moment. -/
theorem advance_eq_advancedTo (duel : Duel χ η δ) (elapsed : UInt64) :
    duel.advance elapsed = duel.advancedTo (later duel.clock.now elapsed) := rfl

/-- A firing on the way to a moment makes no difference to the wait. -/
theorem advancedTo_of_some {time : UInt64} (duel : Duel χ η δ) {step : Deferred} {clock : Clock}
    (htaken : duel.clock.takeDue? time = some (step, clock)) :
    duel.advancedTo time = ({ duel with clock }.fire step).advancedTo time := by
  unfold advancedTo
  rw [caughtUp_of_some duel htaken]

/-- If nothing is due by a moment, a wait up to it only moves the clock. -/
theorem advancedTo_of_none {time : UInt64} (duel : Duel χ η δ)
    (hnone : duel.clock.takeDue? time = none) :
    duel.advancedTo time = { duel with clock := duel.clock.moveTo time } := by
  unfold advancedTo
  rw [caughtUp_of_none duel hnone]

/-- A wait up to a moment that is not in the past ends at that moment. -/
theorem now_advancedTo {time : UInt64} (duel : Duel χ η δ) :
    duel.clock.now ≤ time → (duel.advancedTo time).clock.now = time := by
  refine due_induction time
    (P := fun duel => duel.clock.now ≤ time → (duel.advancedTo time).clock.now = time) ?_ ?_ duel
  · intro duel hnone hle
    rw [advancedTo_of_none duel hnone]
    exact Clock.now_moveTo_of_le hle
  · intro duel step clock htaken ih hle
    rw [advancedTo_of_some duel htaken]
    refine ih ?_
    rw [now_fire]
    exact Clock.now_le_of_takeDue? htaken hle

/-- On the way to a moment a wait may be cut at any earlier one. -/
theorem advancedTo_advancedTo {time deadline : UInt64} (hle : time ≤ deadline)
    (duel : Duel χ η δ) :
    (duel.advancedTo time).advancedTo deadline = duel.advancedTo deadline := by
  refine due_induction time
    (P := fun duel => (duel.advancedTo time).advancedTo deadline = duel.advancedTo deadline)
    ?_ ?_ duel
  · intro duel hnone
    rw [advancedTo_of_none duel hnone]
    -- the step that is still pending is taken by the deadline as if nobody had waited
    have hsame := Clock.takeDue?_moveTo hnone deadline
    cases htaken : duel.clock.takeDue? deadline with
    | none =>
      rw [htaken] at hsame
      rw [advancedTo_of_none duel htaken,
        advancedTo_of_none { duel with clock := duel.clock.moveTo time } hsame]
      exact congrArg (fun clock => { duel with clock }) (duel.clock.moveTo_moveTo hle)
    | some taken =>
      obtain ⟨step, clock⟩ := taken
      rw [htaken] at hsame
      rw [advancedTo_of_some duel htaken]
      exact advancedTo_of_some { duel with clock := duel.clock.moveTo time } hsame
  · intro duel step clock htaken ih
    rw [advancedTo_of_some duel htaken, ih,
      advancedTo_of_some duel (Clock.takeDue?_of_le hle htaken)]

/-- Two waits one after the other are one wait, for as long as the clock has moments. -/
theorem advance_advance (duel : Duel χ η δ) (first second : UInt64) :
    (duel.advance first).advance second = duel.advance (later first second) := by
  rw [advance_eq_advancedTo (duel.advance first), advance_eq_advancedTo, advance_eq_advancedTo,
    now_advancedTo duel (le_later _ _), advancedTo_advancedTo (le_later _ _), later_later]

/-- Cutting a wait into two makes no difference: the second call is answered as the whole wait is,
and leaves the same duel in all its parts. -/
theorem call_advance_add (duel : Duel χ η δ) (first second : UInt64)
    (hfits : first.toNat + second.toNat < UInt64.size) :
    (duel.call (.advance first)).2.call (.advance second) =
      duel.call (.advance (first + second)) := by
  have hsplit : (duel.advance first).advance second = duel.advance (first + second) := by
    rw [advance_advance, later_eq_add hfits]
  simp only [call, hsplit]

/-- An enemy's turn that is waited for in two parts, cut while its cast is on the clock. -/
theorem call_advance_add_enemy :
    let duel := (new { opener := .enemy } ({} : Recorder) Journal.empty
      (ScriptedDice.ofRolls [4])).after [.start {}]
    (1100 : UInt64).toNat + (2300 : UInt64).toNat < UInt64.size ∧
      (duel.call (.advance 1100)).2.call (.advance 2300) = duel.call (.advance (1100 + 2300)) ∧
      (duel.call (.advance 1100)).1 = .ok (.suspended 200) ∧
      (duel.call (.advance (1100 + 2300))).1 = .ok .awaitingClose :=
  ⟨by decide, call_advance_add _ 1100 2300 (by decide), rfl, rfl⟩

end Duel

end DiceDuel
