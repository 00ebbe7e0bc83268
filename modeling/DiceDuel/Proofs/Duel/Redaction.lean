import DiceDuel.Proofs.Duel.Waiting

/-!
# Redaction

What is said in a duel, and which faces show, decides nothing about its course. Redacted, a state
has lost its face and its codes, and a request, a step or a call has lost its code. Two duels with
the same pace and opener that are redacted to the same are kept so by calls that are redacted to the
same, whatever their dice, their handlers of spells and their treatment of faulty tokens. The hooks
may differ as well, for as long as both find somebody dead at the same checks.
-/

namespace DiceDuel

/-! ## What is left after redaction -/

/-- A state without its face and its codes. -/
def Snapshot.redacted (snapshot : Snapshot) : Snapshot :=
  { snapshot with roll := none, offered := none, shown := none }

/-- A step without its code. -/
def Deferred.redacted : Deferred → Deferred
  | .reveal => .reveal
  | .cast _ => .cast default
  | .settle => .settle

/-- A clock whose pending step has lost its code. The moment at which it is due stays. -/
def Clock.redacted (clock : Clock) : Clock :=
  { clock with pending := clock.pending.map fun due => { due with step := due.step.redacted } }

/-- A request without its code. -/
def Request.redacted : Request → Request
  | .roll side => .roll side
  | .cast _ => .cast default
  | .close => .close

/-- A call without a code. -/
def HostCall.redacted : HostCall → HostCall
  | .request asked => .request asked.redacted
  | call => call

/-- A refusal whose request has lost its code. -/
def Refusal.redacted : Refusal → Refusal
  | .busy request remaining => .busy request.redacted remaining
  | .wrongPhase request phase => .wrongPhase request.redacted phase
  | .automatedTurn request side => .automatedTurn request.redacted side
  | refusal => refusal

/-- Calls that are redacted to the same are equal, or both are requests. -/
theorem HostCall.cases_of_redacted_eq {call other : HostCall}
    (hcall : call.redacted = other.redacted) :
    call = other ∨ ∃ request otherRequest, call = .request request ∧
      other = .request otherRequest ∧ request.redacted = otherRequest.redacted := by
  cases call <;> cases other <;> simp_all [redacted]

/-- A request is called the same whatever its code. -/
@[simp] theorem Request.name_redacted (request : Request) :
    request.redacted.name = request.name := by
  cases request <;> rfl

/-- The text of a refusal holds no code. -/
@[simp] theorem Refusal.message_redacted (refusal : Refusal) :
    refusal.redacted.message = refusal.message := by
  cases refusal with
  | notStarted => rfl
  | alreadyStarted => rfl
  | ended ending => rfl
  | busy request remaining =>
    change request.redacted.name ++ _ ++ _ ++ _ = request.name ++ _ ++ _ ++ _
    rw [Request.name_redacted]
  | wrongPhase request phase =>
    change request.redacted.name ++ _ ++ _ = request.name ++ _ ++ _
    rw [Request.name_redacted]
  | notYourTurn requested current => rfl
  | automatedTurn request side =>
    change request.redacted.name ++ _ ++ _ ++ _ = request.name ++ _ ++ _ ++ _
    rw [Request.name_redacted]

namespace Clock

variable (clock : Clock)

@[simp] theorem remaining?_redacted : clock.redacted.remaining? = clock.remaining? := by
  unfold remaining? redacted
  rw [Option.map_map]
  rfl

theorem takeNow?_redacted :
    clock.redacted.takeNow? = clock.takeNow?.map (Prod.map Deferred.redacted redacted) := by
  unfold takeNow?
  cases hp : clock.pending <;> simp [redacted, hp, moveTo]

theorem takeDue?_redacted (deadline : UInt64) :
    clock.redacted.takeDue? deadline =
      (clock.takeDue? deadline).map (Prod.map Deferred.redacted redacted) := by
  cases hp : clock.pending with
  | none => simp [takeDue?, redacted, hp]
  | some appointment =>
    have hpending : clock.redacted.pending =
        some { appointment with step := appointment.step.redacted } := by simp [redacted, hp]
    by_cases hdue : appointment.due ≤ deadline
    · simp [takeDue?, hp, hpending, hdue, takeNow?_redacted]
    · simp [takeDue?, hp, hpending, hdue]

theorem stepsAhead_redacted : Duel.stepsAhead clock.redacted = Duel.stepsAhead clock := by
  unfold Duel.stepsAhead redacted
  rw [Option.map_map]
  cases clock.pending with
  | none => rfl
  | some appointment =>
    obtain ⟨due, step⟩ := appointment
    cases step <;> rfl

end Clock

/-- A request without its code is refused for the same reason as with it. -/
theorem Duel.refusal?_redacted {χ η δ : Type} [Hooks χ] (duel : Duel χ η δ) (request : Request) :
    duel.refusal? request.redacted = (duel.refusal? request).map Refusal.redacted := by
  have hbusy : (duel.clock.remaining?.map (Refusal.busy request)).map Refusal.redacted =
      duel.clock.remaining?.map (Refusal.busy request.redacted) := Option.map_map ..
  unfold refusal?
  cases duel.started with
  | false => rfl
  | true =>
    cases duel.ending with
    | some ending => rfl
    | none =>
      -- the map goes through each condition to the refusal behind it
      cases request <;>
        simp only [apply_ite (Option.map Refusal.redacted), hbusy, Option.map_some] <;> rfl

/-! ## Checks that are decided in advance -/

section Checks

variable {χ : Type} [Hooks χ]

/-- The states of hooks after some calls in any order, a number of which were checks. -/
inductive AfterChecks (hooks : χ) : Nat → χ → Prop
  /-- No call was made. -/
  | refl : AfterChecks hooks 0 hooks
  /-- The duel has started. -/
  | startBattle {checks : Nat} {later : χ} (roster : Roster) (h : AfterChecks hooks checks later) :
      AfterChecks hooks checks (Hooks.startBattle later roster)
  /-- A turn has started. -/
  | startTurn {checks : Nat} {later : χ} (side : Side) (h : AfterChecks hooks checks later) :
      AfterChecks hooks checks (Hooks.startTurn later side)
  /-- A face shows. -/
  | rollEffects {checks : Nat} {later : χ} (side : Side) (face : UInt8)
      (h : AfterChecks hooks checks later) :
      AfterChecks hooks checks (Hooks.rollEffects later side face)
  /-- A turn comes to its end. -/
  | endTurnEffects {checks : Nat} {later : χ} (side : Side) (h : AfterChecks hooks checks later) :
      AfterChecks hooks checks (Hooks.endTurnEffects later side)
  /-- A check was made. -/
  | deathCheck {checks : Nat} {later : χ} (h : AfterChecks hooks checks later) :
      AfterChecks hooks (checks + 1) (Hooks.deathCheck later).2
  /-- A state was recorded. -/
  | onTransition {checks : Nat} {later : χ} (snapshot : Snapshot)
      (h : AfterChecks hooks checks later) :
      AfterChecks hooks checks (Hooks.onTransition later snapshot)

/-- Hooks whose answer to a check depends on nothing but the number of checks before it. -/
def AnswersBy (answers : Nat → Bool) (hooks : χ) : Prop :=
  ∀ checks later, AfterChecks hooks checks later → (Hooks.deathCheck later).1 = answers checks

end Checks

/-- A recorder has used up one answer for each check. -/
theorem Recorder.answers_of_afterChecks {recorder later : Recorder} {checks : Nat}
    (h : AfterChecks recorder checks later) : later.answers = recorder.answers.drop checks := by
  induction h with
  | deathCheck h ih =>
    change List.tail _ = _
    rw [ih, List.tail_drop]
  | refl => rfl
  | _ => assumption

/-- A recorder answers from its list, whatever else it is told. -/
theorem Recorder.answersBy (recorder : Recorder) :
    AnswersBy (fun checks => recorder.answers.getD checks false) recorder := by
  intro checks later h
  change later.answers.headD false = recorder.answers.getD checks false
  rw [answers_of_afterChecks h, List.headD_eq_head?_getD, List.head?_drop,
    List.getD_eq_getElem?_getD]

/-! ## Two duels that are redacted to the same -/

/-- Settings with the same delays and the same opener. -/
structure Settings.SamePace (settings other : Settings) : Prop where
  /-- Rolls take equally long. -/
  rollDelay : settings.rollDelay = other.rollDelay
  /-- The enemy takes equally long to cast. -/
  castDelay : settings.castDelay = other.castDelay
  /-- Animations take equally long. -/
  animationDelay : settings.animationDelay = other.animationDelay
  /-- The same side opens. -/
  opener : settings.opener = other.opener

namespace Duel

variable {χ η δ χ' η' δ' : Type} [Hooks χ] [Hooks χ']

/-- Two duels of which an onlooker who hears no code and sees no die can tell no difference, and
whose hooks have made equally many checks since they were as given. -/
structure Alike (hooks : χ) (hooks' : χ') (duel : Duel χ η δ) (other : Duel χ' η' δ') : Prop where
  /-- Nothing but the seed and the treatment of faulty tokens may be set differently. -/
  settings : duel.settings.SamePace other.settings
  /-- The visible states are redacted to the same. -/
  current : duel.current.redacted = other.current.redacted
  /-- The clocks are redacted to the same. -/
  clock : duel.clock.redacted = other.clock.redacted
  /-- The histories are redacted to the same. -/
  history : duel.history.map Snapshot.redacted = other.history.map Snapshot.redacted
  /-- Both have started, or neither. -/
  started : duel.started = other.started
  /-- Both have ended, in the same way, or neither. -/
  ending : duel.ending = other.ending
  /-- The hooks have made equally many checks. -/
  checks : ∃ checks, AfterChecks hooks checks duel.hooks ∧ AfterChecks hooks' checks other.hooks

namespace Alike

variable {hooks : χ} {hooks' : χ'} {duel : Duel χ η δ} {other : Duel χ' η' δ'}

theorem phase (h : Alike hooks hooks' duel other) : duel.current.phase = other.current.phase := by
  have hphase := congrArg Snapshot.phase h.current
  exact hphase

theorem side (h : Alike hooks hooks' duel other) : duel.current.side = other.current.side := by
  have hside := congrArg Snapshot.side h.current
  exact hside

theorem turn (h : Alike hooks hooks' duel other) : duel.current.turn = other.current.turn := by
  have hturn := congrArg Snapshot.turn h.current
  exact hturn

theorem remaining (h : Alike hooks hooks' duel other) :
    duel.clock.remaining? = other.clock.remaining? := by
  rw [← Clock.remaining?_redacted, h.clock, Clock.remaining?_redacted]

theorem stepsAhead_eq (h : Alike hooks hooks' duel other) :
    stepsAhead duel.clock = stepsAhead other.clock := by
  rw [← Clock.stepsAhead_redacted, h.clock, Clock.stepsAhead_redacted]

/-- Both wait for the same. -/
theorem status_eq (h : Alike hooks hooks' duel other) : duel.status = other.status := by
  unfold status
  rw [h.started, h.ending, h.remaining, h.phase]

/-- Both refuse a request for the same reason, or neither refuses it. -/
theorem refusal?_eq (h : Alike hooks hooks' duel other) (request : Request) :
    duel.refusal? request = other.refusal? request := by
  unfold refusal?
  dsimp only
  rw [h.started, h.ending, h.remaining, h.phase, h.side]

/-- States that are redacted to the same are recorded. -/
theorem commit (h : Alike hooks hooks' duel other) {snapshot otherSnapshot : Snapshot}
    (hsnapshot : snapshot.redacted = otherSnapshot.redacted) :
    Alike hooks hooks' (duel.commit snapshot) (other.commit otherSnapshot) :=
  { h with
    current := hsnapshot
    history := by simp [Duel.commit, h.history, hsnapshot]
    checks := h.checks.imp fun _ hn => ⟨hn.1.onTransition _, hn.2.onTransition _⟩ }

/-- A step that is the same once redacted is put off by the same delay. -/
theorem schedule (h : Alike hooks hooks' duel other) {delay otherDelay : UInt64}
    (hdelay : delay = otherDelay) {step otherStep : Deferred}
    (hstep : step.redacted = otherStep.redacted) :
    Alike hooks hooks' { duel with clock := duel.clock.schedule delay step }
      { other with clock := other.clock.schedule otherDelay otherStep } := by
  have hnow := congrArg Clock.now h.clock
  change duel.clock.now = other.clock.now at hnow
  refine { h with clock := ?_ }
  simp [Clock.schedule, Clock.redacted, hnow, hdelay, hstep]

theorem startRoll (h : Alike hooks hooks' duel other) :
    Alike hooks hooks' duel.startRoll other.startRoll := by
  have hrolling : { duel.current with rolling := true, roll := none }.redacted =
      { other.current with rolling := true, roll := none }.redacted :=
    congrArg (fun s : Snapshot => { s with rolling := true }) h.current
  exact (h.commit hrolling).schedule h.settings.rollDelay (rfl : Deferred.reveal.redacted = _)

theorem openTurn (h : Alike hooks hooks' duel other) (side : Side) :
    Alike hooks hooks' (duel.openTurn side) (other.openTurn side) := by
  have hopening : ({ side, turn := duel.current.turn + 1 } : Snapshot).redacted =
      ({ side, turn := other.current.turn + 1 } : Snapshot).redacted := by rw [h.turn]
  have hcommit := h.commit hopening
  have hopened : Alike hooks hooks'
      { duel.commit { side, turn := duel.current.turn + 1 } with
        hooks := Hooks.startTurn (duel.commit { side, turn := duel.current.turn + 1 }).hooks side }
      { other.commit { side, turn := other.current.turn + 1 } with
        hooks := Hooks.startTurn (other.commit { side, turn := other.current.turn + 1 }).hooks
          side } :=
    { hcommit with checks := hcommit.checks.imp fun _ hn => ⟨hn.1.startTurn _, hn.2.startTurn _⟩ }
  cases side with
  | player => exact hopened
  | enemy => exact hopened.startRoll

theorem reveal [DieSource δ] [DieSource δ'] (h : Alike hooks hooks' duel other) :
    Alike hooks hooks' duel.reveal other.reveal := by
  have hshown : Alike hooks hooks' duel.revealed other.revealed := by
    have hrolled : Alike hooks hooks'
        { duel with
          dice := (DieSource.roll duel.dice).2
          hooks := Hooks.rollEffects duel.hooks duel.current.side duel.nextFace }
        { other with
          dice := (DieSource.roll other.dice).2
          hooks := Hooks.rollEffects other.hooks other.current.side other.nextFace } :=
      { h with checks := h.checks.imp fun _ hn => ⟨hn.1.rollEffects _ _, hn.2.rollEffects _ _⟩ }
    exact hrolled.commit
      (congrArg (fun s : Snapshot => { s with phase := .casting, rolling := false }) h.current)
  cases hside : duel.current.side with
  | player =>
    rw [reveal_of_player duel hside, reveal_of_player other (h.side.symm.trans hside)]
    exact hshown
  | enemy =>
    rw [reveal_of_enemy duel hside, reveal_of_enemy other (h.side.symm.trans hside)]
    -- the codes that are put off differ with the faces
    exact hshown.schedule h.settings.castDelay (rfl : (Deferred.cast _).redacted = _)

/-- Codes may be cast that have nothing in common. -/
theorem cast [SpellHandler η] [DieSource δ] [SpellHandler η'] [DieSource δ']
    (h : Alike hooks hooks' duel other) (code otherCode : Code) :
    Alike hooks hooks' (duel.cast code) (other.cast otherCode) := by
  rw [cast_eq_castWith, cast_eq_castWith]
  generalize Casting.castCode duel.settings.strictness code
    ⟨duel.current.side, duel.current.roll⟩ duel.dice duel.handler = result
  generalize Casting.castCode other.settings.strictness otherCode
    ⟨other.current.side, other.current.roll⟩ other.dice other.handler = otherResult
  have hresult : Alike hooks hooks'
      { duel with
        dice := result.2.1
        handler := result.2.2
        outcomes := duel.outcomes ++ [result.1] }
      { other with
        dice := otherResult.2.1
        handler := otherResult.2.2
        outcomes := other.outcomes ++ [otherResult.1] } := { h with }
  have hshown : { duel.current with
      phase := .animating, offered := some code, shown := some code }.redacted =
        { other.current with
          phase := .animating, offered := some otherCode, shown := some otherCode }.redacted :=
    congrArg (fun s : Snapshot => { s with phase := .animating }) h.current
  exact (hresult.commit hshown).schedule h.settings.animationDelay
    (rfl : Deferred.settle.redacted = _)

variable {answers : Nat → Bool} (hanswers : AnswersBy answers hooks)
  (hanswers' : AnswersBy answers hooks')

include hanswers hanswers' in
/-- The checks at the end of an animation are answered alike. -/
theorem settle (h : Alike hooks hooks' duel other) :
    Alike hooks hooks' duel.settle other.settle := by
  obtain ⟨checks, hn, hn'⟩ := h.checks
  have hworn : AfterChecks hooks (checks + 1) duel.wornHooks := hn.deathCheck.endTurnEffects _
  have hworn' : AfterChecks hooks' (checks + 1) other.wornHooks := hn'.deathCheck.endTurnEffects _
  have hfirst := hanswers _ _ hn
  have hfirst' := hanswers' _ _ hn'
  have hsecond := hanswers _ _ hworn
  have hsecond' := hanswers' _ _ hworn'
  unfold wornHooks at hsecond hsecond'
  unfold Duel.settle checkDeath
  dsimp only
  cases hdead : answers checks with
  | true =>
    rw [hfirst, hfirst', hdead]
    exact { h with ending := rfl, checks := ⟨_, hn.deathCheck, hn'.deathCheck⟩ }
  | false =>
    rw [hfirst, hfirst', hdead]
    dsimp only
    rw [hsecond, hsecond']
    cases answers (checks + 1) with
    | true => exact { h with ending := rfl, checks := ⟨_, hworn.deathCheck, hworn'.deathCheck⟩ }
    | false =>
      have hchecked : Alike hooks hooks'
          { duel with hooks := (Hooks.deathCheck duel.wornHooks).2 }
          { other with hooks := (Hooks.deathCheck other.wornHooks).2 } :=
        { h with checks := ⟨_, hworn.deathCheck, hworn'.deathCheck⟩ }
      exact hchecked.commit
        (congrArg (fun s : Snapshot => { s with phase := .closing }) h.current)

/-! ## Calls that are redacted to the same -/

theorem begun (h : Alike hooks hooks' duel other) (roster : Roster) :
    Alike hooks hooks' (duel.begun roster) (other.begun roster) := by
  have hstarted : Alike hooks hooks'
      { duel with started := true, hooks := Hooks.startBattle duel.hooks roster }
      { other with started := true, hooks := Hooks.startBattle other.hooks roster } :=
    { h with
      started := rfl
      checks := h.checks.imp fun _ hn => ⟨hn.1.startBattle _, hn.2.startBattle _⟩ }
  unfold Duel.begun
  rw [h.settings.opener]
  exact hstarted.openTurn _

variable [SpellHandler η] [DieSource δ] [SpellHandler η'] [DieSource δ']

theorem grant (h : Alike hooks hooks' duel other) {request otherRequest : Request}
    (hrequest : request.redacted = otherRequest.redacted) :
    Alike hooks hooks' (duel.grant request) (other.grant otherRequest) := by
  cases request <;> cases otherRequest <;> cases hrequest
  case roll.roll => exact h.startRoll
  case cast.cast code otherCode => exact h.cast code otherCode
  case close.close =>
    unfold Duel.grant
    rw [h.side]
    exact h.openTurn _

include hanswers hanswers' in
/-- Steps that are the same once redacted fire alike, when they are taken off the clock alike. -/
theorem fire (h : Alike hooks hooks' duel other) {taken otherTaken : Deferred × Clock}
    (htaken : Prod.map Deferred.redacted Clock.redacted taken =
      Prod.map Deferred.redacted Clock.redacted otherTaken) :
    Alike hooks hooks' ({ duel with clock := taken.2 }.fire taken.1)
      ({ other with clock := otherTaken.2 }.fire otherTaken.1) := by
  obtain ⟨step, clock⟩ := taken
  obtain ⟨otherStep, otherClock⟩ := otherTaken
  obtain ⟨hstep, hclock⟩ := Prod.mk.inj htaken
  have hwaited : Alike hooks hooks' { duel with clock } { other with clock := otherClock } :=
    { h with clock := hclock }
  cases step <;> cases otherStep <;> cases hstep
  case reveal.reveal => exact hwaited.reveal
  case cast.cast code otherCode => exact hwaited.cast code otherCode
  case settle.settle => exact hwaited.settle hanswers hanswers'

include hanswers hanswers' in
/-- Both loops fire equally many steps. -/
theorem fireDue (h : Alike hooks hooks' duel other) (deadline : UInt64) (n : Nat) :
    Alike hooks hooks' (fireDue deadline n duel) (fireDue deadline n other) := by
  induction n generalizing duel other with
  | zero => exact h
  | succ n ih =>
    have htaken := congrArg (Clock.takeDue? · deadline) h.clock
    simp only [Clock.takeDue?_redacted] at htaken
    rw [Duel.fireDue, Duel.fireDue]
    cases hdue : duel.clock.takeDue? deadline with
    | none =>
      rw [hdue, Option.map_none, eq_comm, Option.map_eq_none_iff] at htaken
      rw [htaken]
      exact h
    | some taken =>
      rw [hdue, Option.map_some, eq_comm, Option.map_eq_some_iff] at htaken
      obtain ⟨otherTaken, hotherDue, hsame⟩ := htaken
      rw [hotherDue]
      exact ih (h.fire hanswers hanswers' hsame.symm)

include hanswers hanswers' in
theorem advance (h : Alike hooks hooks' duel other) (elapsed : UInt64) :
    Alike hooks hooks' (duel.advance elapsed) (other.advance elapsed) := by
  have hnow := congrArg Clock.now h.clock
  change duel.clock.now = other.clock.now at hnow
  have hfired := h.fireDue hanswers hanswers' (later duel.clock.now elapsed)
    (stepsAhead duel.clock)
  unfold Duel.advance
  rw [← hnow, ← h.stepsAhead_eq]
  exact { hfired with
    clock := congrArg (Clock.moveTo · (later duel.clock.now elapsed)) hfired.clock }

include hanswers hanswers' in
theorem fastForward (h : Alike hooks hooks' duel other) :
    Alike hooks hooks' duel.fastForward other.fastForward := by
  have hfired := h.fireDue hanswers hanswers' lastMoment 1
  rw [← fastForwardBy_eq_fireDue, ← fastForwardBy_eq_fireDue] at hfired
  exact hfired

include hanswers hanswers' in
theorem runUntilIdle (h : Alike hooks hooks' duel other) :
    Alike hooks hooks' duel.runUntilIdle other.runUntilIdle := by
  have hahead := h.stepsAhead_eq
  have hfired := h.fireDue hanswers hanswers' lastMoment (stepsAhead duel.clock)
  rw [← fastForwardBy_eq_fireDue, ← fastForwardBy_eq_fireDue, hahead] at hfired
  unfold Duel.runUntilIdle
  rw [hahead]
  exact hfired

/-- Requests that are redacted to the same are granted alike, or refused for the same reason. -/
theorem call_request (h : Alike hooks hooks' duel other) {request otherRequest : Request}
    (hrequest : request.redacted = otherRequest.redacted) :
    (duel.call (.request request)).1.mapError Refusal.redacted =
        (other.call (.request otherRequest)).1.mapError Refusal.redacted ∧
      Alike hooks hooks' (duel.call (.request request)).2
        (other.call (.request otherRequest)).2 := by
  have hrefusal : (duel.refusal? request).map Refusal.redacted =
      (other.refusal? otherRequest).map Refusal.redacted := by
    rw [← refusal?_redacted, ← refusal?_redacted, hrequest, h.refusal?_eq]
  cases hduel : duel.refusal? request with
  | none =>
    rw [hduel, Option.map_none, eq_comm, Option.map_eq_none_iff] at hrefusal
    rw [call_request_of_granted hduel, call_request_of_granted hrefusal]
    have hnext := h.grant hrequest
    exact ⟨congrArg _ (congrArg Except.ok hnext.status_eq), hnext⟩
  | some refusal =>
    rw [hduel, Option.map_some, eq_comm, Option.map_eq_some_iff] at hrefusal
    obtain ⟨otherRefusal, hother, hsame⟩ := hrefusal
    rw [call_request_of_refused hduel, call_request_of_refused hother]
    exact ⟨congrArg Except.error hsame.symm, h⟩

include hanswers hanswers'

/-- Calls that are redacted to the same are answered alike and leave the duels alike. -/
theorem call (h : Alike hooks hooks' duel other) {call otherCall : HostCall}
    (hcall : call.redacted = otherCall.redacted) :
    (duel.call call).1.mapError Refusal.redacted =
        (other.call otherCall).1.mapError Refusal.redacted ∧
      Alike hooks hooks' (duel.call call).2 (other.call otherCall).2 := by
  have hgranted {next : Duel χ η δ} {otherNext : Duel χ' η' δ'}
      (hnext : Alike hooks hooks' next otherNext) :
      (Except.ok next.status).mapError Refusal.redacted =
          (Except.ok otherNext.status).mapError Refusal.redacted ∧
        Alike hooks hooks' next otherNext := ⟨by rw [hnext.status_eq], hnext⟩
  rcases HostCall.cases_of_redacted_eq hcall with rfl | ⟨request, otherRequest, rfl, rfl, hsame⟩
  · cases call with
    | start roster =>
      cases hstarted : duel.started with
      | true =>
        rw [call_start_of_started hstarted,
          call_start_of_started (h.started.symm.trans hstarted)]
        exact ⟨rfl, h⟩
      | false =>
        rw [call_start_of_fresh hstarted, call_start_of_fresh (h.started.symm.trans hstarted)]
        exact hgranted (h.begun roster)
    | request request => exact h.call_request rfl
    | advance elapsed => exact hgranted (h.advance hanswers hanswers' elapsed)
    | fastForward => exact hgranted (h.fastForward hanswers hanswers')
    | runUntilIdle => exact hgranted (h.runUntilIdle hanswers hanswers')
  · exact h.call_request hsame

/-- So do any number of them, one after the other. -/
theorem run (h : Alike hooks hooks' duel other) {calls otherCalls : List HostCall}
    (hcalls : calls.map HostCall.redacted = otherCalls.map HostCall.redacted) :
    (duel.run calls).1.map (Except.mapError Refusal.redacted) =
        (other.run otherCalls).1.map (Except.mapError Refusal.redacted) ∧
      Alike hooks hooks' (duel.after calls) (other.after otherCalls) := by
  induction calls generalizing duel other otherCalls with
  | nil =>
    rw [List.map_nil, eq_comm, List.map_eq_nil_iff] at hcalls
    rw [hcalls]
    exact ⟨rfl, h⟩
  | cons call calls ih =>
    rw [List.map_cons, eq_comm, List.map_eq_cons_iff] at hcalls
    obtain ⟨otherCall, others, rfl, hcall, hrest⟩ := hcalls
    obtain ⟨hanswer, hnext⟩ := h.call hanswers hanswers' hcall.symm
    obtain ⟨hanswered, hafter⟩ := ih hnext hrest.symm
    exact ⟨congrArg₂ List.cons hanswer hanswered, hafter⟩

end Alike

/-- Duels that begin with the same pace are alike. -/
theorem alike_new {settings otherSettings : Settings} (hpace : settings.SamePace otherSettings)
    (hooks : χ) (hooks' : χ') (handler : η) (handler' : η') (dice : δ) (dice' : δ') :
    Alike hooks hooks' (new settings hooks handler dice) (new otherSettings hooks' handler' dice')
    where
  settings := hpace
  current := congrArg (fun side => { side : Snapshot }) hpace.opener
  clock := rfl
  history := rfl
  started := rfl
  ending := rfl
  checks := ⟨0, .refl, .refl⟩

variable [SpellHandler η] [DieSource δ] [SpellHandler η'] [DieSource δ']

/-- Spell texts and dice never steer a duel. Two duels with the same pace and opener, whose hooks
answer each check by the number of checks before it and in the same way, are called in the same way
but for the codes of the spells. Then all calls are answered alike, in the same words, and after
each call the clocks show the same moment with the same kind of step due at the same moment, both
duels have ended or neither, and the histories agree on everything but faces and codes. -/
theorem agree_of_redacted_eq {settings otherSettings : Settings}
    (hpace : settings.SamePace otherSettings) {answers : Nat → Bool} {hooks : χ} {hooks' : χ'}
    (hanswers : AnswersBy answers hooks) (hanswers' : AnswersBy answers hooks') (handler : η)
    (handler' : η') (dice : δ) (dice' : δ') {calls otherCalls : List HostCall}
    (hcalls : calls.map HostCall.redacted = otherCalls.map HostCall.redacted) :
    let duel := new settings hooks handler dice
    let other := new otherSettings hooks' handler' dice'
    (duel.run calls).1.map (Except.mapError Refusal.redacted) =
        (other.run otherCalls).1.map (Except.mapError Refusal.redacted) ∧
      (duel.run calls).1.map (Except.mapError Refusal.message) =
        (other.run otherCalls).1.map (Except.mapError Refusal.message) ∧
      ∀ made, (duel.after (calls.take made)).clock.redacted =
          (other.after (otherCalls.take made)).clock.redacted ∧
        (duel.after (calls.take made)).ending = (other.after (otherCalls.take made)).ending ∧
        (duel.after (calls.take made)).history.map Snapshot.redacted =
          (other.after (otherCalls.take made)).history.map Snapshot.redacted := by
  intro duel other
  have hnew : Alike hooks hooks' duel other :=
    alike_new hpace hooks hooks' handler handler' dice dice'
  obtain ⟨hanswered, -⟩ := hnew.run hanswers hanswers' hcalls
  refine ⟨hanswered, ?_, fun made => ?_⟩
  · have hwords : (Except.mapError Refusal.message : _ → Except String Status) =
        Except.mapError Refusal.message ∘ Except.mapError Refusal.redacted := by
      funext answer
      cases answer with
      | ok status => rfl
      | error refusal => exact congrArg Except.error refusal.message_redacted.symm
    rw [hwords, ← List.map_map, ← List.map_map, hanswered]
  · have htaken : (calls.take made).map HostCall.redacted =
        (otherCalls.take made).map HostCall.redacted := by
      rw [List.map_take, List.map_take, hcalls]
    obtain ⟨-, hafter⟩ := hnew.run hanswers hanswers' htaken
    exact ⟨hafter.clock, hafter.ending, hafter.history⟩

/-- A marked spell that is cast and a text that names no spell take a strict duel and a lenient one
to the same death, with different dice. -/
theorem agree_of_redacted_eq_gibberish :
    let recorder : Recorder := { answers := [false, false, true] }
    let script (code : Code) : List HostCall := [.start {}, .request (.cast code), .request
      (.roll .player), .advance 1000, .request (.cast code), .advance 2000, .request .close,
      .advance 5000]
    let calls := script ⟨"RAGUA\x7b5\x7d"⟩
    let otherCalls := script ⟨"\x7d-12"⟩
    let duel := new {} recorder Journal.empty (ScriptedDice.ofRolls [3, 4])
    let other := new { strictness := .strict, seed := 7 } recorder Journal.empty
      (ScriptedDice.ofRolls [200])
    calls.map HostCall.redacted = otherCalls.map HostCall.redacted ∧
      (duel.run calls).1.map (Except.mapError Refusal.message) =
        (other.run otherCalls).1.map (Except.mapError Refusal.message) ∧
      (duel.after calls).history.map Snapshot.redacted =
        (other.after otherCalls).history.map Snapshot.redacted ∧
      (duel.after calls).history ≠ (other.after otherCalls).history ∧
      (other.after otherCalls).ending = some .afterSpell := by
  intro recorder script calls otherCalls duel other
  have hcalls : calls.map HostCall.redacted = otherCalls.map HostCall.redacted := by decide
  have hpace : Settings.SamePace {} { strictness := .strict, seed := 7 } := ⟨rfl, rfl, rfl, rfl⟩
  have hagree := agree_of_redacted_eq hpace recorder.answersBy recorder.answersBy Journal.empty
    Journal.empty (ScriptedDice.ofRolls [3, 4]) (ScriptedDice.ofRolls [200]) hcalls
  exact ⟨hcalls, hagree.2.1, (hagree.2.2 8).2.2, by decide, by decide⟩

end Duel

end DiceDuel
