import DiceDuel.Proofs.Duel.Moves

/-!
# The stages of a turn

Of all the values a duel could hold, a duel that is played from its beginning holds few. A started
one stands at exactly one stage of a turn, and the stage with the side and the number of the turn
fixes the visible state, the step on the clock and the ending. An unstarted one has only waited.
This holds for all settings, hooks, handlers and dice, also for dice that give any byte, and after
any calls in any order. When a pending step is due is not part of a stage.
-/

namespace DiceDuel

namespace Die

/-- A byte that is a face of the die. -/
def IsFace (face : UInt8) : Prop := 1 ≤ face ∧ face ≤ faces

/-- One is a face of the die. -/
theorem isFace_one : IsFace 1 := ⟨by decide, by decide⟩

/-- Whatever byte is drawn, the face that is used is one of the die's. -/
theorem isFace_clamp (roll : UInt8) : IsFace (clamp roll) :=
  ⟨one_le_clamp roll, clamp_le_faces roll⟩

end Die

/-- Where a started duel stands in its turn. -/
inductive Stage where
  /-- The player may let the die roll. -/
  | ready
  /-- The die rolls. -/
  | rolling
  /-- The face shows, and its code is on offer. -/
  | offered (face : UInt8)
  /-- A code was cast and is shown; the duel goes on, or it has come to its end here. -/
  | showing (face : UInt8) (code : Code) (ending : Option Ending)
  /-- The turn is to be closed. -/
  | closing (face : UInt8) (code : Code)
deriving DecidableEq

namespace Stage

/-- The visible state at a stage of a side's turn. -/
def snapshot (side : Side) (turn : UInt32) : Stage → Snapshot
  | .ready => { phase := .opening, side, turn }
  | .rolling => { phase := .opening, side, rolling := true, turn }
  | .offered face =>
    { phase := .casting, side, roll := some face, offered := some (.ofFace face), turn }
  | .showing face code _ =>
    { phase := .animating, side, roll := some face, offered := some code, shown := some code, turn }
  | .closing face code =>
    { phase := .closing, side, roll := some face, offered := some code, shown := some code, turn }

/-- The step on the clock at a stage of a side's turn. -/
def step? (side : Side) : Stage → Option Deferred
  | .ready => none
  | .rolling => some .reveal
  | .offered face =>
    match side with
    | .player => none
    | .enemy => some (.cast (.ofFace face))
  | .showing _ _ none => some .settle
  | .showing _ _ (some _) => none
  | .closing _ _ => none

/-- How the duel has ended at a stage, if it has. -/
def ending? : Stage → Option Ending
  | .showing _ _ ending => ending
  | .ready | .rolling | .offered _ | .closing _ _ => none

/-- What a stage can be in a side's turn: only the player is waited for at the opening, faces are
those of the die, and the enemy casts no code but the one on offer. -/
def Fits (side : Side) : Stage → Prop
  | .ready => side = .player
  | .rolling => True
  | .offered face => Die.IsFace face
  | .showing face code _ | .closing face code =>
    Die.IsFace face ∧ (side = .enemy → code = .ofFace face)

/-- The stage at which a side's turn comes to rest when it is opened. -/
def opening : Side → Stage
  | .player => .ready
  | .enemy => .rolling

/-- A stage can be told from the visible state and the ending. -/
theorem eq_of_snapshot_eq {side : Side} {turn : UInt32} {stage other : Stage}
    (hsnapshot : stage.snapshot side turn = other.snapshot side turn)
    (hending : stage.ending? = other.ending?) : stage = other := by
  cases stage <;> cases other <;> simp_all [snapshot, ending?]

end Stage

namespace Clock

/-- What is taken is the pending step, and the clock then stands at its moment or stays. -/
theorem takeNow?_eq_some_iff {clock next : Clock} {step : Deferred} :
    clock.takeNow? = some (step, next) ↔
      ∃ due, clock.pending = some ⟨due, step⟩ ∧
        next = { clock.moveTo due with pending := none } := by
  unfold takeNow?
  cases hp : clock.pending with
  | none => simp
  | some appointment =>
    obtain ⟨due, planned⟩ := appointment
    constructor
    · rintro ⟨⟩
      exact ⟨due, rfl, rfl⟩
    · rintro ⟨moment, ⟨⟩, rfl⟩
      rfl

/-- The step that is taken was pending. -/
theorem step_of_takeNow? {clock next : Clock} {step : Deferred}
    (h : clock.takeNow? = some (step, next)) :
    clock.pending.map Appointment.step = some step := by
  obtain ⟨due, hpending, -⟩ := takeNow?_eq_some_iff.mp h
  rw [hpending, Option.map_some]

/-- Once a step is taken nothing is pending. -/
theorem pending_of_takeNow? {clock next : Clock} {step : Deferred}
    (h : clock.takeNow? = some (step, next)) : next.pending = none := by
  obtain ⟨due, -, rfl⟩ := takeNow?_eq_some_iff.mp h
  rfl

end Clock

namespace Duel

variable {χ η δ : Type}

/-- A started duel that stands at a stage. -/
structure IsAt (duel : Duel χ η δ) (stage : Stage) : Prop where
  /-- The duel has started. -/
  started : duel.started = true
  /-- The visible state is that of the stage. -/
  current : duel.current = stage.snapshot duel.current.side duel.current.turn
  /-- The step on the clock is that of the stage. -/
  pending : duel.clock.pending.map Appointment.step = stage.step? duel.current.side
  /-- The duel has ended exactly if the stage says so, and in the same way. -/
  ending : duel.ending = stage.ending?
  /-- The stage fits the side whose turn it is. -/
  fits : stage.Fits duel.current.side

/-- A duel stands at no two stages. -/
theorem IsAt.unique {duel : Duel χ η δ} {stage other : Stage} (h : duel.IsAt stage)
    (h' : duel.IsAt other) : stage = other :=
  Stage.eq_of_snapshot_eq (h.current.symm.trans h'.current) (h.ending.symm.trans h'.ending)

/-- At a stage without a step the clock is idle. -/
theorem IsAt.idle {duel : Duel χ η δ} {stage : Stage} (h : duel.IsAt stage)
    (hstep : stage.step? duel.current.side = none) : duel.clock.pending = none := by
  have hpending := h.pending
  rw [hstep, Option.map_eq_none_iff] at hpending
  exact hpending

/-- The face that the dice of a duel give next. -/
def nextFace [DieSource δ] (duel : Duel χ η δ) : UInt8 := Die.clamp (DieSource.roll duel.dice).1

section Transitions

variable [Hooks χ]

/-- A duel once the next face shows, before anything is put on the clock. -/
def revealed [DieSource δ] (duel : Duel χ η δ) : Duel χ η δ :=
  { duel with
    dice := (DieSource.roll duel.dice).2
    hooks := Hooks.rollEffects duel.hooks duel.current.side duel.nextFace }.commit
    { duel.current with
      phase := .casting
      roll := some duel.nextFace
      rolling := false
      offered := some (.ofFace duel.nextFace) }

/-- A reveal leaves the cast to the player. -/
theorem reveal_of_player [DieSource δ] (duel : Duel χ η δ) (hside : duel.current.side = .player) :
    duel.reveal = duel.revealed := by
  have hmanual : ¬duel.current.side.isAutomated = true := by rw [hside]; decide
  change (if duel.current.side.isAutomated = true then _ else duel.revealed) = _
  rw [if_neg hmanual]

/-- A reveal puts the enemy's cast on the clock. -/
theorem reveal_of_enemy [DieSource δ] (duel : Duel χ η δ) (hside : duel.current.side = .enemy) :
    duel.reveal = { duel.revealed with
      clock := duel.clock.schedule duel.settings.castDelay (.cast (.ofFace duel.nextFace)) } := by
  have hautomated : duel.current.side.isAutomated = true := by rw [hside]; rfl
  exact if_pos (c := duel.current.side.isAutomated = true) hautomated

/-- Either way a reveal shows the same state. -/
theorem current_reveal [DieSource δ] (duel : Duel χ η δ) :
    duel.reveal.current = duel.revealed.current := by
  cases hside : duel.current.side with
  | player => rw [reveal_of_player duel hside]
  | enemy => rw [reveal_of_enemy duel hside]

/-- Either way a reveal records the state that it shows. -/
theorem history_reveal [DieSource δ] (duel : Duel χ η δ) :
    duel.reveal.history = duel.revealed.history := by
  cases hside : duel.current.side with
  | player => rw [reveal_of_player duel hside]
  | enemy => rw [reveal_of_enemy duel hside]

/-- A duel once a code is shown, when casting it had a result. -/
def castWith (duel : Duel χ η δ) (code : Code) (result : Outcome × δ × η) : Duel χ η δ :=
  { { duel with
      dice := result.2.1
      handler := result.2.2
      outcomes := duel.outcomes ++ [result.1] }.commit
      { duel.current with phase := .animating, offered := some code, shown := some code } with
    clock := duel.clock.schedule duel.settings.animationDelay .settle }

/-- A cast shows its code, with the result of casting it. -/
theorem cast_eq_castWith [SpellHandler η] [DieSource δ] (duel : Duel χ η δ) (code : Code) :
    duel.cast code = duel.castWith code (Casting.castCode duel.settings.strictness code
      ⟨duel.current.side, duel.current.roll⟩ duel.dice duel.handler) := by
  unfold cast
  dsimp only
  generalize Casting.castCode duel.settings.strictness code
    ⟨duel.current.side, duel.current.roll⟩ duel.dice duel.handler = result
  obtain ⟨outcome, dice, handler⟩ := result
  rfl

/-- The hooks once the first check is made and the effects of the turn's end are over. -/
def wornHooks (duel : Duel χ η δ) : χ :=
  Hooks.endTurnEffects (Hooks.deathCheck duel.hooks).2 duel.current.side

/-- The three ways in which an animation ends. -/
inductive Settles (duel : Duel χ η δ) : Duel χ η δ → Prop
  /-- A death at the first check ends the duel at once. -/
  | death (dead : (Hooks.deathCheck duel.hooks).1 = true) :
      Settles duel { duel with
        hooks := (Hooks.deathCheck duel.hooks).2
        ending := some .afterSpell }
  /-- A death at the second check ends the duel after the effects of the turn's end. -/
  | lateDeath (alive : (Hooks.deathCheck duel.hooks).1 = false)
      (dead : (Hooks.deathCheck duel.wornHooks).1 = true) :
      Settles duel { duel with
        hooks := (Hooks.deathCheck duel.wornHooks).2
        ending := some .afterTurnEffects }
  /-- Without a death the turn can be closed. -/
  | noDeath (alive : (Hooks.deathCheck duel.hooks).1 = false)
      (still : (Hooks.deathCheck duel.wornHooks).1 = false) :
      Settles duel ({ duel with hooks := (Hooks.deathCheck duel.wornHooks).2 }.commit
        { duel.current with phase := .closing })

/-- An animation ends in one of the three ways, as the two checks decide. -/
theorem settles_settle (duel : Duel χ η δ) : Settles duel duel.settle := by
  unfold settle checkDeath
  dsimp only
  cases hfirst : (Hooks.deathCheck duel.hooks).1 with
  | true => exact .death hfirst
  | false =>
    cases hsecond : (Hooks.deathCheck duel.wornHooks).1 with
    | true =>
      unfold wornHooks at hsecond
      dsimp only
      rw [hsecond]
      exact .lateDeath hfirst hsecond
    | false =>
      unfold wornHooks at hsecond
      dsimp only
      rw [hsecond]
      exact .noDeath hfirst hsecond

variable {duel : Duel χ η δ}

/-- From a freshly opened turn the die starts to roll. -/
theorem isAt_startRoll (hstarted : duel.started = true)
    (hcurrent : duel.current = Stage.ready.snapshot duel.current.side duel.current.turn)
    (hending : duel.ending = none) : duel.startRoll.IsAt .rolling where
  started := hstarted
  current := congrArg (fun s : Snapshot => { s with rolling := true, roll := none }) hcurrent
  pending := rfl
  ending := hending
  fits := trivial

/-- A turn opens at rest for the player and with a rolling die for the enemy. -/
theorem isAt_openTurn (side : Side) (hstarted : duel.started = true)
    (hpending : duel.clock.pending = none) (hending : duel.ending = none) :
    (duel.openTurn side).IsAt (.opening side) := by
  cases side with
  | player =>
    refine ⟨hstarted, rfl, ?_, hending, rfl⟩
    exact congrArg (Option.map Appointment.step) hpending
  | enemy => exact isAt_startRoll hstarted rfl hending

/-- The rolling die comes to rest in the state that shows its face. -/
theorem IsAt.current_revealed [DieSource δ] (h : duel.IsAt .rolling) :
    duel.revealed.current =
      (Stage.offered duel.nextFace).snapshot duel.current.side duel.current.turn :=
  congrArg (fun s : Snapshot => { s with
    phase := .casting
    roll := some duel.nextFace
    rolling := false
    offered := some (.ofFace duel.nextFace) }) h.current

/-- The rolling die shows its face, whatever byte was drawn. -/
theorem isAt_reveal [DieSource δ] (h : duel.IsAt .rolling) {clock : Clock}
    (hclock : clock.pending = none) :
    ({ duel with clock }.reveal).IsAt (.offered duel.nextFace) := by
  have hface : Die.IsFace duel.nextFace := Die.isFace_clamp _
  have hcurrent := h.current_revealed
  cases hside : duel.current.side with
  | player =>
    rw [reveal_of_player { duel with clock } hside]
    refine ⟨h.started, hcurrent, ?_, h.ending, hface⟩
    change clock.pending.map Appointment.step = Stage.step? duel.current.side (.offered _)
    rw [hclock, hside]
    rfl
  | enemy =>
    rw [reveal_of_enemy { duel with clock } hside]
    refine ⟨h.started, hcurrent, ?_, h.ending, hface⟩
    change _ = Stage.step? duel.current.side (.offered _)
    rw [hside]
    rfl

/-- A code that is cast on an offer is shown; the enemy's is the one on offer. -/
theorem isAt_cast [SpellHandler η] [DieSource δ] {face : UInt8} (h : duel.IsAt (.offered face))
    (clock : Clock) {code : Code} (hcode : duel.current.side = .enemy → code = .ofFace face) :
    ({ duel with clock }.cast code).IsAt (.showing face code none) where
  started := h.started
  current := congrArg (fun s : Snapshot =>
    { s with phase := .animating, offered := some code, shown := some code }) h.current
  pending := rfl
  ending := h.ending
  fits := ⟨h.fits, hcode⟩

/-- The end of an animation closes the turn or ends the duel. -/
theorem Settles.isAt {next : Duel χ η δ} {clock : Clock}
    (hsettles : Settles { duel with clock } next) (hclock : clock.pending = none) {face : UInt8}
    {code : Code} (h : duel.IsAt (.showing face code none)) :
    next.IsAt (.closing face code) ∨ ∃ ending, next.IsAt (.showing face code (some ending)) := by
  have hpending : clock.pending.map Appointment.step = none := by rw [hclock, Option.map_none]
  cases hsettles with
  | death dead => exact .inr ⟨.afterSpell, h.started, h.current, hpending, rfl, h.fits⟩
  | lateDeath alive dead =>
    exact .inr ⟨.afterTurnEffects, h.started, h.current, hpending, rfl, h.fits⟩
  | noDeath alive still =>
    have hcurrent := congrArg (fun s : Snapshot => { s with phase := .closing }) h.current
    exact .inl ⟨h.started, hcurrent, hpending, h.ending, h.fits⟩

end Transitions

section Waiting

variable {duel : Duel χ η δ} {stage : Stage}

/-- Whoever waits for a roll waits for the player's. -/
theorem IsAt.eq_ready (h : duel.IsAt stage) (hstatus : duel.status = .awaitingRoll) :
    stage = .ready := by
  obtain ⟨-, -, hpending, hphase⟩ := (status_eq_awaited_iff duel (.roll .player)).mp hstatus
  have hstep := h.pending
  rw [hpending, Option.map_none] at hstep
  rw [h.current] at hphase
  cases stage with
  | ready => rfl
  | rolling => cases hstep
  | offered face => cases hphase
  | showing face code ending => cases hphase
  | closing face code => cases hphase

/-- Whoever waits for a code waits for the player's. -/
theorem IsAt.eq_offered (h : duel.IsAt stage) (hstatus : duel.status = .awaitingCast) :
    (∃ face, stage = .offered face) ∧ duel.current.side = .player := by
  obtain ⟨-, -, hpending, hphase⟩ := (status_eq_awaited_iff duel (.cast default)).mp hstatus
  have hstep := h.pending
  rw [hpending, Option.map_none] at hstep
  rw [h.current] at hphase
  cases stage with
  | ready => cases hphase
  | rolling => cases hphase
  | offered face =>
    cases hside : duel.current.side with
    | player => exact ⟨⟨face, rfl⟩, rfl⟩
    | enemy =>
      rw [hside] at hstep
      cases hstep
  | showing face code ending => cases hphase
  | closing face code => cases hphase

/-- Whoever waits for the close of a turn has settled it. -/
theorem IsAt.eq_closing (h : duel.IsAt stage) (hstatus : duel.status = .awaitingClose) :
    ∃ face code, stage = .closing face code := by
  obtain ⟨-, -, -, hphase⟩ := (status_eq_awaited_iff duel .close).mp hstatus
  rw [h.current] at hphase
  cases stage with
  | ready => cases hphase
  | rolling => cases hphase
  | offered face => cases hphase
  | showing face code ending => cases hphase
  | closing face code => exact ⟨face, code, rfl⟩

end Waiting

variable [Hooks χ] [SpellHandler η] [DieSource δ]

/-- What one move makes of a duel at a stage. -/
inductive Continues (duel : Duel χ η δ) : Stage → Duel χ η δ → Prop
  /-- Time passes. -/
  | wait {stage : Stage} (time : UInt64) :
      Continues duel stage { duel with clock := duel.clock.moveTo time }
  /-- The player lets the die roll. -/
  | roll : Continues duel .ready duel.startRoll
  /-- The die comes to rest. -/
  | reveal {clock : Clock} (taken : duel.clock.takeNow? = some (.reveal, clock)) :
      Continues duel .rolling { duel with clock }.reveal
  /-- The player casts a code. -/
  | cast {face : UInt8} (side : duel.current.side = .player) (code : Code) :
      Continues duel (.offered face) (duel.cast code)
  /-- The enemy casts the code on offer. -/
  | castOffer {face : UInt8} {clock : Clock} (side : duel.current.side = .enemy)
      (taken : duel.clock.takeNow? = some (.cast (.ofFace face), clock)) :
      Continues duel (.offered face) ({ duel with clock }.cast (.ofFace face))
  /-- The animation ends. -/
  | settle {face : UInt8} {code : Code} {clock : Clock} {next : Duel χ η δ}
      (taken : duel.clock.takeNow? = some (.settle, clock))
      (settles : Settles { duel with clock } next) :
      Continues duel (.showing face code none) next
  /-- The turn is closed. -/
  | close {face : UInt8} {code : Code} :
      Continues duel (.closing face code) (duel.openTurn duel.current.side.opposite)

variable {duel next : Duel χ η δ} {stage : Stage}

/-- A granted request carries a turn on from the stage that waits for it. -/
theorem IsAt.continues_grant (h : duel.IsAt stage) {request : Request}
    (hgranted : duel.refusal? request = none) : Continues duel stage (duel.grant request) := by
  obtain ⟨hstatus, -⟩ := (refusal?_eq_none_iff duel request).mp hgranted
  cases request with
  | roll roller =>
    obtain rfl := h.eq_ready hstatus
    exact .roll
  | cast code =>
    obtain ⟨⟨face, rfl⟩, hside⟩ := h.eq_offered hstatus
    exact .cast hside code
  | close =>
    obtain ⟨face, code, rfl⟩ := h.eq_closing hstatus
    exact .close

/-- A step that fires carries a turn on from the stage that put it off. -/
theorem IsAt.continues_fire (h : duel.IsAt stage) {step : Deferred} {clock : Clock}
    (htaken : duel.clock.takeNow? = some (step, clock)) :
    Continues duel stage ({ duel with clock }.fire step) := by
  have hstep : stage.step? duel.current.side = some step :=
    h.pending.symm.trans (Clock.step_of_takeNow? htaken)
  cases stage with
  | ready => cases hstep
  | rolling =>
    cases hstep
    exact .reveal htaken
  | offered face =>
    cases hside : duel.current.side with
    | player =>
      rw [hside] at hstep
      cases hstep
    | enemy =>
      rw [hside] at hstep
      cases hstep
      exact .castOffer hside htaken
  | showing face code ending =>
    cases ending with
    | none =>
      cases hstep
      exact .settle htaken (settles_settle _)
    | some ending => cases hstep
  | closing face code => cases hstep

/-- A duel at a stage has no other moves than those that carry its turn on. -/
theorem IsAt.continues (h : duel.IsAt stage) (hmove : Move duel next) :
    Continues duel stage next := by
  cases hmove with
  | start fresh roster =>
    rw [h.started] at fresh
    cases fresh
  | request granted => exact h.continues_grant granted
  | fire taken => exact h.continues_fire taken
  | wait time => exact .wait time

/-- Carried on, a duel at a stage stands at a stage again. -/
theorem Continues.isAt (hcontinues : Continues duel stage next) (h : duel.IsAt stage) :
    ∃ following, next.IsAt following := by
  cases hcontinues with
  | wait time => exact ⟨stage, h.started, h.current, h.pending, h.ending, h.fits⟩
  | roll => exact ⟨_, isAt_startRoll h.started h.current h.ending⟩
  | reveal taken => exact ⟨_, isAt_reveal h (Clock.pending_of_takeNow? taken)⟩
  | cast side code =>
    refine ⟨_, isAt_cast h duel.clock fun henemy => ?_⟩
    rw [side] at henemy
    cases henemy
  | castOffer side taken => exact ⟨_, isAt_cast h _ fun _ => rfl⟩
  | settle taken settles =>
    rcases settles.isAt (Clock.pending_of_takeNow? taken) h with hclosing | ⟨ending, hended⟩
    · exact ⟨_, hclosing⟩
    · exact ⟨_, hended⟩
  | close => exact ⟨_, isAt_openTurn _ h.started (h.idle rfl) h.ending⟩

end Duel

end DiceDuel
