import DiceDuel.Proofs.Duel.Idle

/-!
# The pace of the enemy's turn

The enemy's turn runs by itself: the die rolls, the code of its face is cast, and the animation
ends, each after a delay of its own. A step is put off at the moment at which the one before it was
due, not at the moment at which the host looked at the clock again. The three delays therefore add
up, and how the time in between is cut into waits makes no difference.
-/

namespace DiceDuel

/-- The time that a call lets pass. -/
def HostCall.elapsed : HostCall → Nat
  | .advance elapsed => elapsed.toNat
  | .start _ | .request _ | .fastForward | .runUntilIdle => 0

/-- The time that some calls let pass. -/
def elapsedIn : List HostCall → Nat
  | [] => 0
  | call :: calls => call.elapsed + elapsedIn calls

/-- The time of the first call and that of the others are added. -/
theorem elapsedIn_cons (call : HostCall) (calls : List HostCall) :
    elapsedIn (call :: calls) = call.elapsed + elapsedIn calls := rfl

/-- A delay that fits the clock is added. -/
theorem toNat_later_of_lt {time delay : UInt64}
    (hfits : time.toNat + delay.toNat < UInt64.size) :
    (later time delay).toNat = time.toNat + delay.toNat := by
  rw [toNat_later]
  omega

/-- The time between two moments is that between their numbers. -/
theorem sub_eq_ofNat {due time : UInt64} {rest : Nat} (h : due.toNat = time.toNat + rest) :
    due - time = UInt64.ofNat rest := by
  have hle : time ≤ due := UInt64.le_iff_toNat_le.mpr (by omega)
  have hsub : (due - time).toNat = due.toNat - time.toNat := UInt64.toNat_sub_of_le _ _ hle
  have hlt : due.toNat < UInt64.size := due.toNat_lt
  have hrest : (UInt64.ofNat rest).toNat = rest := UInt64.toNat_ofNat_of_lt' (by omega)
  rw [← UInt64.toNat_inj, hsub, hrest]
  omega

/-- While a step is pending a duel has not ended. -/
theorem Stage.ending?_of_step? {stage : Stage} {side : Side} {step : Deferred}
    (hstep : stage.step? side = some step) : stage.ending? = none := by
  cases stage with
  | ready => rfl
  | rolling => rfl
  | offered face => rfl
  | showing face code ending =>
    cases ending with
    | none => rfl
    | some ending => cases hstep
  | closing face code => rfl

namespace Duel

variable {χ η δ : Type}

/-- A duel with another clock. -/
def onClock (duel : Duel χ η δ) (clock : Clock) : Duel χ η δ := { duel with clock }

/-! ## Waits in pieces -/

section Waits

variable [Hooks χ] [SpellHandler η] [DieSource δ]

/-- Calls that are waits or are refused. -/
def OnlyWaits (duel : Duel χ η δ) : List HostCall → Prop
  | [] => True
  | call :: calls =>
    ((∃ elapsed, call = .advance elapsed) ∨ ∃ refusal, (duel.call call).1 = .error refusal) ∧
      (duel.call call).2.OnlyWaits calls

/-- A call that is refused lets no time pass. -/
theorem elapsed_of_refused {duel : Duel χ η δ} {call : HostCall} {refusal : Refusal}
    (hrefused : (duel.call call).1 = .error refusal) : call.elapsed = 0 := by
  cases call with
  | advance elapsed => cases hrefused
  | start roster => rfl
  | request request => rfl
  | fastForward => rfl
  | runUntilIdle => rfl

/-- Waits that follow a wait lengthen it. -/
theorem after_advance {duel : Duel χ η δ} {first : UInt64} {calls : List HostCall}
    (hwaits : (duel.advance first).OnlyWaits calls)
    (hfits : first.toNat + elapsedIn calls < UInt64.size) :
    (duel.advance first).after calls =
      duel.advance (UInt64.ofNat (first.toNat + elapsedIn calls)) := by
  induction calls generalizing first with
  | nil => exact congrArg duel.advance UInt64.ofNat_toNat.symm
  | cons call calls ih =>
    obtain ⟨⟨second, rfl⟩ | ⟨refusal, hrefused⟩, hrest⟩ := hwaits
    · have hcons : elapsedIn (.advance second :: calls) = second.toNat + elapsedIn calls := rfl
      have hboth : first.toNat + second.toNat < UInt64.size := by omega
      have hsum : (first + second).toNat = first.toNat + second.toNat := by
        rw [← later_eq_add hboth, toNat_later_of_lt hboth]
      have hjoined : ((duel.advance first).call (.advance second)).2 =
          duel.advance (first + second) := by
        rw [← later_eq_add hboth, ← advance_advance]
        rfl
      rw [hjoined] at hrest
      rw [after_cons, hjoined, ih hrest (by omega), hsum, hcons, Nat.add_assoc]
    · have hnone := elapsed_of_refused hrefused
      have hsame := call_snd_of_refused hrefused
      rw [hsame] at hrest
      rw [elapsedIn_cons, hnone, Nat.zero_add] at hfits ⊢
      rw [after_cons, hsame, ih hrest hfits]

/-- Waits are one wait for the sum of their times, wherever they are cut and whatever is refused in
between. -/
theorem after_onlyWaits {duel : Duel χ η δ} {calls : List HostCall}
    (hwaits : duel.OnlyWaits calls) (hsome : ∃ elapsed, HostCall.advance elapsed ∈ calls)
    (hfits : elapsedIn calls < UInt64.size) :
    duel.after calls = duel.advance (UInt64.ofNat (elapsedIn calls)) := by
  induction calls with
  | nil =>
    obtain ⟨elapsed, hmem⟩ := hsome
    cases hmem
  | cons call calls ih =>
    obtain ⟨⟨first, rfl⟩ | ⟨refusal, hrefused⟩, hrest⟩ := hwaits
    · exact after_advance hrest hfits
    · have hnone := elapsed_of_refused hrefused
      have hsame := call_snd_of_refused hrefused
      obtain ⟨elapsed, hmem⟩ := hsome
      have hlater : HostCall.advance elapsed ∈ calls := by
        rcases List.mem_cons.mp hmem with rfl | hlater
        · cases hrefused
        · exact hlater
      rw [hsame] at hrest
      rw [elapsedIn_cons, hnone, Nat.zero_add] at hfits ⊢
      rw [after_cons, hsame, ih hrest ⟨elapsed, hlater⟩ hfits]

end Waits

/-! ## Steps on a clock -/

section Steps

variable {now due time : UInt64} {step : Deferred}

/-- A running duel with a step on its clock waits for the rest of the time. -/
theorem status_onClock {duel : Duel χ η δ} (hstarted : duel.started = true)
    (hending : duel.ending = none) (hle : now ≤ due) :
    (duel.onClock ⟨now, some ⟨due, step⟩⟩).status = .suspended (due - now) :=
  status_of_pending hstarted hending rfl hle

variable [Hooks χ]

/-- What an enemy's face shows does not depend on the clock, and its cast is put off from there. -/
theorem reveal_onClock [DieSource δ] (duel : Duel χ η δ) (hside : duel.current.side = .enemy)
    (clock : Clock) :
    (duel.onClock clock).reveal = duel.reveal.onClock
      (clock.schedule duel.settings.castDelay (.cast (.ofFace duel.nextFace))) := by
  rw [reveal_of_enemy duel hside, reveal_of_enemy (duel.onClock clock) hside]
  rfl

/-- What is cast does not depend on the clock, and the animation's end is put off from there. -/
theorem cast_onClock [SpellHandler η] [DieSource δ] (duel : Duel χ η δ) (code : Code)
    (clock : Clock) :
    (duel.onClock clock).cast code = (duel.cast code).onClock
      (clock.schedule duel.settings.animationDelay .settle) := by
  rw [cast_eq_castWith, cast_eq_castWith]
  rfl

/-- How an animation ends does not depend on the clock, and nothing is put off. -/
theorem settle_onClock (duel : Duel χ η δ) (clock : Clock) :
    (duel.onClock clock).settle = duel.settle.onClock clock := by
  unfold settle checkDeath onClock
  dsimp only
  cases (Hooks.deathCheck duel.hooks).1 with
  | true => rfl
  | false =>
    dsimp only
    cases (Hooks.deathCheck (Hooks.endTurnEffects (Hooks.deathCheck duel.hooks).2
      duel.current.side)).1 with
    | true => rfl
    | false => rfl

variable [SpellHandler η] [DieSource δ]

/-- A step that is not due yet stays on the clock. -/
theorem advancedTo_of_lt (duel : Duel χ η δ) (hnow : now ≤ time) (hbefore : time < due) :
    (duel.onClock ⟨now, some ⟨due, step⟩⟩).advancedTo time =
      duel.onClock ⟨time, some ⟨due, step⟩⟩ := by
  have hnone : Clock.takeDue? ⟨now, some ⟨due, step⟩⟩ time = none :=
    if_neg (UInt64.not_le.mpr hbefore)
  have hmoved : Clock.moveTo ⟨now, some ⟨due, step⟩⟩ time = ⟨time, some ⟨due, step⟩⟩ :=
    Clock.moveTo_of_le hnow
  rw [advancedTo_of_none (duel.onClock ⟨now, some ⟨due, step⟩⟩) hnone]
  exact congrArg duel.onClock hmoved

/-- A step that is due fires at its moment. -/
theorem advancedTo_of_due (duel : Duel χ η δ) (hnow : now ≤ due) (hdue : due ≤ time) :
    (duel.onClock ⟨now, some ⟨due, step⟩⟩).advancedTo time =
      ((duel.onClock ⟨due, none⟩).fire step).advancedTo time := by
  have htaken : Clock.takeDue? ⟨now, some ⟨due, step⟩⟩ time = some (step, ⟨due, none⟩) := by
    refine Clock.takeDue?_eq_some_iff.mpr ⟨due, rfl, hdue, ?_⟩
    rw [Clock.moveTo_of_le hnow]
  exact advancedTo_of_some (duel.onClock ⟨now, some ⟨due, step⟩⟩) htaken

/-- On an idle clock nothing happens but that time passes. -/
theorem advancedTo_of_idle (duel : Duel χ η δ) (hnow : now ≤ time) :
    (duel.onClock ⟨now, none⟩).advancedTo time = duel.onClock ⟨time, none⟩ := by
  have hmoved : Clock.moveTo ⟨now, none⟩ time = ⟨time, none⟩ := Clock.moveTo_of_le hnow
  rw [advancedTo_of_none (duel.onClock ⟨now, none⟩) rfl]
  exact congrArg duel.onClock hmoved

/-- A duel at a stage whose step is not due yet stays as it is and waits for the rest. -/
theorem IsAt.rests {duel : Duel χ η δ} {stage : Stage} (h : duel.IsAt stage)
    (hstep : stage.step? duel.current.side = some step) (hnow : now ≤ time)
    (hbefore : time < due) :
    let left := (duel.onClock ⟨now, some ⟨due, step⟩⟩).advancedTo time
    left.current = duel.current ∧ left.status = .suspended (due - time) := by
  have hending : duel.ending = none := by
    rw [h.ending]
    exact Stage.ending?_of_step? hstep
  rw [advancedTo_of_lt duel hnow hbefore]
  exact ⟨rfl, status_onClock h.started hending (UInt64.le_of_lt hbefore)⟩

end Steps

/-! ## The enemy's turn -/

section Turns

/-- The moment at which the die of a turn that opens now comes to rest. -/
def revealAt (duel : Duel χ η δ) : UInt64 := later duel.clock.now duel.settings.rollDelay

/-- The moment at which the enemy then casts. -/
def castAt (duel : Duel χ η δ) : UInt64 := later duel.revealAt duel.settings.castDelay

/-- The moment at which the animation then ends. -/
def settleAt (duel : Duel χ η δ) : UInt64 := later duel.castAt duel.settings.animationDelay

/-- The die does not come to rest before it rolls. -/
theorem now_le_revealAt (duel : Duel χ η δ) : duel.clock.now ≤ duel.revealAt := le_later _ _

/-- The enemy does not cast before its die has come to rest. -/
theorem revealAt_le_castAt (duel : Duel χ η δ) : duel.revealAt ≤ duel.castAt := le_later _ _

/-- The animation does not end before the enemy has cast. -/
theorem castAt_le_settleAt (duel : Duel χ η δ) : duel.castAt ≤ duel.settleAt := le_later _ _

/-- A duel in which the enemy's turn has just opened. -/
structure EnemyRolls (duel : Duel χ η δ) : Prop where
  /-- The die rolls. -/
  rolling : duel.IsAt .rolling
  /-- The turn is the enemy's. -/
  side : duel.current.side = .enemy
  /-- The die comes to rest after the delay of a roll. -/
  pending : duel.clock.pending = some ⟨duel.revealAt, .reveal⟩

variable [Hooks χ]

/-- A turn that opens for the enemy opens with a rolling die. -/
theorem enemyRolls_openTurn {duel : Duel χ η δ} {side : Side} (hstarted : duel.started = true)
    (hpending : duel.clock.pending = none) (hending : duel.ending = none)
    (hside : (duel.openTurn side).current.side = .enemy) : (duel.openTurn side).EnemyRolls := by
  cases side with
  | player => cases hside
  | enemy => exact ⟨isAt_openTurn .enemy hstarted hpending hending, rfl, rfl⟩

/-- An animation after which both checks find nobody dead ends with a turn that can be closed. -/
theorem IsAt.closes {duel : Duel χ η δ} {face : UInt8} {code : Code}
    (h : duel.IsAt (.showing face code none)) (hfirst : (Hooks.deathCheck duel.hooks).1 = false)
    (hsecond : (Hooks.deathCheck duel.wornHooks).1 = false) (now : UInt64) :
    let closed := duel.settle.onClock ⟨now, none⟩
    closed.current =
        (Stage.closing face code).snapshot duel.current.side duel.current.turn ∧
      closed.status = .awaitingClose := by
  have hsettles := settles_settle duel
  generalize duel.settle = next at hsettles ⊢
  cases hsettles with
  | death dead => cases hfirst.symm.trans dead
  | lateDeath alive dead => cases hsecond.symm.trans dead
  | noDeath alive still =>
    exact ⟨congrArg (fun s : Snapshot => { s with phase := .closing }) h.current,
      (status_eq_awaited_iff _ .close).mpr ⟨h.started, h.ending, rfl, rfl⟩⟩

variable [DieSource δ]

namespace EnemyRolls

variable {duel : Duel χ η δ} (h : duel.EnemyRolls)

include h

/-- The enemy's face is offered. -/
theorem isAt_reveal : duel.reveal.IsAt (.offered duel.nextFace) := by
  rw [reveal_of_enemy duel h.side]
  refine ⟨h.rolling.started, h.rolling.current_revealed, ?_, h.rolling.ending,
    Die.isFace_clamp _⟩
  change _ = Stage.step? duel.current.side (.offered _)
  rw [h.side]
  rfl

/-- The state that offers the enemy's face. -/
theorem current_reveal : duel.reveal.current =
    (Stage.offered duel.nextFace).snapshot .enemy duel.current.turn := by
  rw [Duel.current_reveal, h.rolling.current_revealed, h.side]

end EnemyRolls

variable [SpellHandler η]

/-- A duel once the enemy whose die rolls has cast the code of its face. -/
def enemyCast (duel : Duel χ η δ) : Duel χ η δ := duel.reveal.cast (.ofFace duel.nextFace)

/-- Neither of the two checks of the enemy's turn finds somebody dead. -/
structure Spares (duel : Duel χ η δ) : Prop where
  /-- The check after the spell. -/
  first : (Hooks.deathCheck duel.enemyCast.hooks).1 = false
  /-- The check after the effects of the turn's end. -/
  second : (Hooks.deathCheck duel.enemyCast.wornHooks).1 = false

namespace EnemyRolls

variable {duel : Duel χ η δ} {time : UInt64} (h : duel.EnemyRolls)

include h

/-- The code of the enemy's face is shown. -/
theorem isAt_enemyCast :
    duel.enemyCast.IsAt (.showing duel.nextFace (.ofFace duel.nextFace) none) :=
  isAt_cast h.isAt_reveal duel.reveal.clock fun _ => rfl

/-- The state that shows the code of the enemy's face. -/
theorem current_enemyCast : duel.enemyCast.current =
    (Stage.showing duel.nextFace (.ofFace duel.nextFace) none).snapshot .enemy
      duel.current.turn :=
  congrArg (fun s : Snapshot => { s with
    phase := .animating
    offered := some (.ofFace duel.nextFace)
    shown := some (.ofFace duel.nextFace) }) h.current_reveal

/-- A wait begins with the rolling die on the clock. -/
theorem advancedTo_eq : duel.advancedTo time =
    (duel.onClock ⟨duel.clock.now, some ⟨duel.revealAt, .reveal⟩⟩).advancedTo time :=
  congrArg (fun pending => (duel.onClock ⟨duel.clock.now, pending⟩).advancedTo time) h.pending

/-- A wait up to the first moment leads on from the face, with the cast put off from there. -/
theorem advancedTo_of_revealAt_le (hdue : duel.revealAt ≤ time) : duel.advancedTo time =
    (duel.reveal.onClock ⟨duel.revealAt,
      some ⟨duel.castAt, .cast (.ofFace duel.nextFace)⟩⟩).advancedTo time := by
  rw [h.advancedTo_eq, advancedTo_of_due duel duel.now_le_revealAt hdue, fire,
    reveal_onClock duel h.side]
  rfl

/-- A wait up to the second moment leads on from the code, with its end put off from there. -/
theorem advancedTo_of_castAt_le (hdue : duel.castAt ≤ time) : duel.advancedTo time =
    (duel.enemyCast.onClock ⟨duel.castAt, some ⟨duel.settleAt, .settle⟩⟩).advancedTo time := by
  have hsettings : duel.reveal.settings = duel.settings := by
    rw [reveal_of_enemy duel h.side]
    rfl
  rw [h.advancedTo_of_revealAt_le (UInt64.le_trans duel.revealAt_le_castAt hdue),
    advancedTo_of_due duel.reveal duel.revealAt_le_castAt hdue, fire, cast_onClock, hsettings]
  rfl

/-- A wait up to the third moment leads to the end of the animation, with nothing put off. -/
theorem advancedTo_of_settleAt_le (hdue : duel.settleAt ≤ time) :
    duel.advancedTo time = duel.enemyCast.settle.onClock ⟨time, none⟩ := by
  rw [h.advancedTo_of_castAt_le (UInt64.le_trans duel.castAt_le_settleAt hdue),
    advancedTo_of_due duel.enemyCast duel.castAt_le_settleAt hdue, fire, settle_onClock,
    advancedTo_of_idle _ hdue]

/-- Until the first moment the die rolls. -/
theorem rolls (hnow : duel.clock.now ≤ time) (hbefore : time < duel.revealAt) :
    (duel.advancedTo time).current = Stage.rolling.snapshot .enemy duel.current.turn ∧
      (duel.advancedTo time).status = .suspended (duel.revealAt - time) := by
  obtain ⟨hcurrent, hstatus⟩ := h.rolling.rests rfl hnow hbefore
  have hrolling := h.rolling.current
  rw [h.side] at hrolling
  rw [h.advancedTo_eq]
  exact ⟨hcurrent.trans hrolling, hstatus⟩

/-- From the first moment to the second the face shows. -/
theorem offers (hdue : duel.revealAt ≤ time) (hbefore : time < duel.castAt) :
    (duel.advancedTo time).current =
        (Stage.offered duel.nextFace).snapshot .enemy duel.current.turn ∧
      (duel.advancedTo time).status = .suspended (duel.castAt - time) := by
  have hstep : (Stage.offered duel.nextFace).step? duel.reveal.current.side =
      some (.cast (.ofFace duel.nextFace)) := by
    rw [h.current_reveal]
    rfl
  obtain ⟨hcurrent, hstatus⟩ := h.isAt_reveal.rests hstep hdue hbefore
  rw [h.advancedTo_of_revealAt_le hdue]
  exact ⟨hcurrent.trans h.current_reveal, hstatus⟩

/-- From the second moment to the third the code of the face is shown. -/
theorem shows (hdue : duel.castAt ≤ time) (hbefore : time < duel.settleAt) :
    (duel.advancedTo time).current =
        (Stage.showing duel.nextFace (.ofFace duel.nextFace) none).snapshot .enemy
          duel.current.turn ∧
      (duel.advancedTo time).status = .suspended (duel.settleAt - time) := by
  obtain ⟨hcurrent, hstatus⟩ := h.isAt_enemyCast.rests rfl hdue hbefore
  rw [h.advancedTo_of_castAt_le hdue]
  exact ⟨hcurrent.trans h.current_enemyCast, hstatus⟩

/-- From the third moment on the turn can be closed, if nobody has died. -/
theorem closes (hspares : duel.Spares) (hdue : duel.settleAt ≤ time) :
    (duel.advancedTo time).current =
        (Stage.closing duel.nextFace (.ofFace duel.nextFace)).snapshot .enemy
          duel.current.turn ∧
      (duel.advancedTo time).status = .awaitingClose := by
  obtain ⟨hcurrent, hstatus⟩ := h.isAt_enemyCast.closes hspares.first hspares.second time
  rw [h.current_enemyCast] at hcurrent
  rw [h.advancedTo_of_settleAt_le hdue]
  exact ⟨hcurrent, hstatus⟩

/-- Until the third moment the duel waits for time. -/
theorem suspended (hnow : duel.clock.now ≤ time) (hbefore : time < duel.settleAt) :
    ∃ rest, (duel.advancedTo time).status = .suspended rest := by
  by_cases hreveal : duel.revealAt ≤ time
  · by_cases hcast : duel.castAt ≤ time
    · exact ⟨_, (h.shows hcast hbefore).2⟩
    · exact ⟨_, (h.offers hreveal (UInt64.not_le.mp hcast)).2⟩
  · exact ⟨_, (h.rolls hnow (UInt64.not_le.mp hreveal)).2⟩

end EnemyRolls

end Turns

/-! ## The enemy's turn in a run -/

section Runs

variable [Hooks χ] [SpellHandler η] [DieSource δ]

/-- A call that opens the enemy's turn: the start, or the close of the player's turn. -/
structure EntersEnemyTurn (prior : Duel χ η δ) (call : HostCall) (entered : Duel χ η δ) :
    Prop where
  /-- The call opens a turn. -/
  opens : call = .request .close ∨ ∃ roster, call = .start roster
  /-- The call is granted and leads to the duel. -/
  granted : ∃ status, prior.call call = (.ok status, entered)
  /-- The turn is the enemy's. -/
  side : entered.current.side = .enemy

variable {settings : Settings} {hooks : χ} {handler : η} {dice : δ}

/-- In a run the enemy's turn opens with a rolling die, whichever call has opened it. -/
theorem EntersEnemyTurn.enemyRolls {calls : List HostCall} {call : HostCall}
    {entered : Duel χ η δ}
    (h : EntersEnemyTurn ((new settings hooks handler dice).after calls) call entered) :
    entered.EnemyRolls := by
  obtain ⟨status, hgranted⟩ := h.granted
  have hside := h.side
  have hok := congrArg Prod.fst hgranted
  rcases h.opens with rfl | ⟨roster, rfl⟩
  · have hclose := (call_request_granted_iff _ _).mp ⟨status, hok⟩
    rw [call_request_of_granted ((refusal?_eq_none_iff _ _).mpr hclose)] at hgranted
    cases hgranted
    have hstarted := ((status_eq_awaited_iff _ .close).mp hclose.1).1
    obtain ⟨stage, hat⟩ := exists_isAt settings hooks handler dice hstarted
    obtain ⟨face, code, rfl⟩ := hat.eq_closing hclose.1
    exact enemyRolls_openTurn hat.started (hat.idle rfl) hat.ending hside
  · have hfresh := (call_start_granted_iff _ roster).mp ⟨status, hok⟩
    rw [call_start_of_fresh hfresh] at hgranted
    cases hgranted
    obtain ⟨now, hnow⟩ := exists_waited settings hooks handler dice hfresh
    rw [hnow] at hside ⊢
    exact enemyRolls_openTurn rfl rfl rfl hside

/-- However the time is cut up, the enemy's turn keeps its pace. When it has just been entered at
some moment and a host does nothing but wait, once at least, then its die rolls for the first delay,
its face shows for the second, its code is shown for the third, and after the three of them, which
are the length of an automated turn, the turn is to be closed if nobody dies. The time that is left
at each stage is told exactly, and calls that are refused in between make no difference. -/
theorem enemy_turn_paced {calls : List HostCall} {call : HostCall} {entered : Duel χ η δ}
    (hentered : EntersEnemyTurn ((new settings hooks handler dice).after calls) call entered)
    {waits : List HostCall} (hwaits : entered.OnlyWaits waits)
    (hsome : ∃ elapsed, HostCall.advance elapsed ∈ waits)
    (hturn : entered.clock.now.toNat + entered.settings.rollDelay.toNat
      + entered.settings.castDelay.toNat + entered.settings.animationDelay.toNat < UInt64.size)
    (hwait : entered.clock.now.toNat + elapsedIn waits < UInt64.size) :
    let left := entered.after waits
    let elapsed := elapsedIn waits
    let turn := entered.current.turn
    let face := entered.nextFace
    let reveal := entered.settings.rollDelay.toNat
    let cast := reveal + entered.settings.castDelay.toNat
    let settle := cast + entered.settings.animationDelay.toNat
    left.clock.now.toNat = entered.clock.now.toNat + elapsed ∧
      (elapsed < reveal → left.current = Stage.rolling.snapshot .enemy turn ∧
        left.status = .suspended (.ofNat (reveal - elapsed))) ∧
      (reveal ≤ elapsed → elapsed < cast →
        left.current = (Stage.offered face).snapshot .enemy turn ∧
          left.status = .suspended (.ofNat (cast - elapsed))) ∧
      (cast ≤ elapsed → elapsed < settle →
        left.current = (Stage.showing face (.ofFace face) none).snapshot .enemy turn ∧
          left.status = .suspended (.ofNat (settle - elapsed))) ∧
      (entered.Spares → (left.status = .awaitingClose ↔ settle ≤ elapsed) ∧
        (settle ≤ elapsed →
          left.current = (Stage.closing face (.ofFace face)).snapshot .enemy turn)) ∧
      settle = entered.settings.automatedTurn.toNat := by
  intro left elapsed turn face reveal cast settle
  have hcast : cast = reveal + entered.settings.castDelay.toNat := rfl
  have hsettle : settle = cast + entered.settings.animationDelay.toNat := rfl
  have hfits : elapsed < UInt64.size := by omega
  have hgiven : (UInt64.ofNat elapsed).toNat = elapsed := UInt64.toNat_ofNat_of_lt' hfits
  let time := later entered.clock.now (UInt64.ofNat elapsed)
  have hleft : left = entered.advancedTo time := after_onlyWaits hwaits hsome hfits
  have hnow : entered.clock.now ≤ time := le_later _ _
  -- where the moments lie, none of them beyond the last one of the clock
  have htime : time.toNat = entered.clock.now.toNat + elapsed := by
    rw [toNat_later_of_lt (by omega), hgiven]
  have hrevealAt : entered.revealAt.toNat = entered.clock.now.toNat + reveal :=
    toNat_later_of_lt (by omega)
  have hcastAt : entered.castAt.toNat = entered.clock.now.toNat + cast := by
    rw [castAt, toNat_later_of_lt (by omega), hrevealAt]
    omega
  have hsettleAt : entered.settleAt.toNat = entered.clock.now.toNat + settle := by
    rw [settleAt, toNat_later_of_lt (by omega), hcastAt]
    omega
  have hrolls := hentered.enemyRolls
  rw [hleft]
  refine ⟨?_, ?_, ?_, ?_, ?_, ?_⟩
  · rw [now_advancedTo entered hnow, htime]
  · intro hbefore
    have hrest : entered.revealAt - time = .ofNat (reveal - elapsed) := sub_eq_ofNat (by omega)
    rw [← hrest]
    exact hrolls.rolls hnow (UInt64.lt_iff_toNat_lt.mpr (by omega))
  · intro hdue hbefore
    have hrest : entered.castAt - time = .ofNat (cast - elapsed) := sub_eq_ofNat (by omega)
    rw [← hrest]
    exact hrolls.offers (UInt64.le_iff_toNat_le.mpr (by omega))
      (UInt64.lt_iff_toNat_lt.mpr (by omega))
  · intro hdue hbefore
    have hrest : entered.settleAt - time = .ofNat (settle - elapsed) := sub_eq_ofNat (by omega)
    rw [← hrest]
    exact hrolls.shows (UInt64.le_iff_toNat_le.mpr (by omega))
      (UInt64.lt_iff_toNat_lt.mpr (by omega))
  · intro hspares
    have hcloses (hdue : settle ≤ elapsed) :=
      hrolls.closes hspares (UInt64.le_iff_toNat_le.mpr (by omega : _ ≤ time.toNat))
    refine ⟨⟨fun hstatus => ?_, fun hdue => (hcloses hdue).2⟩, fun hdue => (hcloses hdue).1⟩
    by_contra hbefore
    obtain ⟨rest, hrest⟩ := hrolls.suspended hnow (UInt64.lt_iff_toNat_lt.mpr (by omega))
    cases hstatus.symm.trans hrest
  · rw [Settings.automatedTurn, UInt64.toNat_add, UInt64.toNat_add, Nat.mod_add_mod]
    exact (Nat.mod_eq_of_lt (Nat.lt_of_le_of_lt (by omega) hturn)).symm

/-- An enemy's turn that is waited for in two pieces, with a request in between that is refused. -/
theorem enemy_turn_paced_in_pieces :
    let prior := (new { opener := .enemy } ({} : Recorder) Journal.empty
      (ScriptedDice.ofRolls [4])).after []
    let entered := (prior.call (.start {})).2
    let waits : List HostCall := [.advance 1000, .request .close, .advance 2300]
    EntersEnemyTurn prior (.start {}) entered ∧ entered.OnlyWaits waits ∧
      (∃ elapsed, HostCall.advance elapsed ∈ waits) ∧
      entered.clock.now.toNat + entered.settings.rollDelay.toNat
        + entered.settings.castDelay.toNat + entered.settings.animationDelay.toNat
          < UInt64.size ∧
      entered.clock.now.toNat + elapsedIn waits < UInt64.size ∧ entered.Spares ∧
      (entered.after waits).clock.now.toNat = 3300 ∧
      (entered.after waits).status = .awaitingClose := by
  intro prior entered waits
  have hentered : EntersEnemyTurn prior (.start {}) entered :=
    ⟨.inr ⟨{}, rfl⟩, ⟨_, call_start_of_fresh rfl {}⟩, rfl⟩
  have hrefused : (entered.advance 1000).refusal? .close = some (.wrongPhase .close .casting) := by
    decide
  have hwaits : entered.OnlyWaits waits :=
    ⟨.inl ⟨1000, rfl⟩, .inr ⟨_, congrArg Prod.fst (call_request_of_refused hrefused)⟩,
      .inl ⟨2300, rfl⟩, trivial⟩
  have hsome : ∃ elapsed, HostCall.advance elapsed ∈ waits := ⟨1000, List.mem_cons_self⟩
  have hspares : entered.Spares := ⟨rfl, rfl⟩
  have hturn : 0 + 1000 + 300 + 2000 < UInt64.size := by decide
  have hwait : 0 + 3300 < UInt64.size := by decide
  obtain ⟨hnow, -, -, -, hclose, -⟩ := enemy_turn_paced hentered hwaits hsome hturn hwait
  exact ⟨hentered, hwaits, hsome, hturn, hwait, hspares, hnow,
    (hclose hspares).1.mpr (Nat.le_refl 3300)⟩

end Runs

end Duel

end DiceDuel
