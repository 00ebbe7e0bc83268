import DiceDuel.Proofs.Duel.History
import DiceDuel.Proofs.Duel.Waiting
import Mathlib.Data.List.Induction

/-!
# Pacing

Delays and the ways of moving the clock decide when things happen in a duel, never what happens. Off
its pace a duel has no delays, and its pending step is due at once; every transition does to it what
it does to the paced duel. Played to rest, an unpaced duel is a function of the starts and requests
that were granted: waiting and refused calls leave it as it is, and only a duel at rest grants
anything. Two runs with the same grants are therefore at most out of step.
-/

namespace DiceDuel

/-- Settings of which only what decides the game is left. -/
def Settings.unpaced (settings : Settings) : Settings :=
  { Settings.instant with opener := settings.opener, strictness := settings.strictness }

namespace Clock

/-- A clock at its first moment, at which the pending step is due. -/
def unpaced (clock : Clock) : Clock where
  pending := clock.pending.map fun appointment => ⟨0, appointment.step⟩

/-- Off the pace nothing is pending exactly if nothing is pending. -/
theorem pending_unpaced_eq_none_iff (clock : Clock) :
    clock.unpaced.pending = none ↔ clock.pending = none := by
  rw [unpaced, Option.map_eq_none_iff]

/-- Off the pace the same step is taken. -/
theorem takeNow?_unpaced {clock next : Clock} {step : Deferred}
    (htaken : clock.takeNow? = some (step, next)) :
    clock.unpaced.takeNow? = some (step, next.unpaced) := by
  obtain ⟨due, hpending, rfl⟩ := takeNow?_eq_some_iff.mp htaken
  refine takeNow?_eq_some_iff.mpr ⟨0, ?_, rfl⟩
  rw [unpaced, hpending, Option.map_some]

end Clock

namespace Duel

variable {χ η δ : Type}

/-- A duel off its pace. -/
def unpaced (duel : Duel χ η δ) : Duel χ η δ :=
  { duel with settings := duel.settings.unpaced, clock := duel.clock.unpaced }

/-- Duels that are the same off their pace differ in their settings and clocks only. -/
theorem eq_of_unpaced_eq {duel other : Duel χ η δ} (hunpaced : duel.unpaced = other.unpaced) :
    other = { duel with settings := other.settings, clock := other.clock } :=
  congrArg (fun same : Duel χ η δ => { same with settings := other.settings, clock := other.clock })
    hunpaced.symm

/-! ## Transitions off the pace -/

section Transitions

variable [Hooks χ]

/-- A roll starts off the pace as it does on it. -/
theorem unpaced_startRoll (duel : Duel χ η δ) :
    duel.startRoll.unpaced = duel.unpaced.startRoll := rfl

/-- A turn opens off the pace as it does on it. -/
theorem unpaced_openTurn (duel : Duel χ η δ) (side : Side) :
    (duel.openTurn side).unpaced = duel.unpaced.openTurn side := by
  cases side <;> rfl

/-- A duel starts off the pace as it does on it. -/
theorem unpaced_begun (duel : Duel χ η δ) (roster : Roster) :
    (duel.begun roster).unpaced = duel.unpaced.begun roster :=
  unpaced_openTurn { duel with started := true, hooks := _ } _

/-- A face is revealed off the pace as it is on it. -/
theorem unpaced_reveal [DieSource δ] (duel : Duel χ η δ) :
    duel.reveal.unpaced = duel.unpaced.reveal := by
  cases hside : duel.current.side with
  | player =>
    rw [reveal_of_player duel hside, reveal_of_player duel.unpaced hside]
    rfl
  | enemy =>
    rw [reveal_of_enemy duel hside, reveal_of_enemy duel.unpaced hside]
    rfl

/-- A code is cast off the pace as it is on it. -/
theorem unpaced_cast [SpellHandler η] [DieSource δ] (duel : Duel χ η δ) (code : Code) :
    (duel.cast code).unpaced = duel.unpaced.cast code := by
  rw [cast_eq_castWith, cast_eq_castWith]
  rfl

/-- An animation ends off the pace as it does on it. -/
theorem unpaced_settle (duel : Duel χ η δ) : duel.settle.unpaced = duel.unpaced.settle := by
  unfold settle checkDeath unpaced
  dsimp only
  cases (Hooks.deathCheck duel.hooks).1 with
  | true => rfl
  | false =>
    dsimp only
    cases (Hooks.deathCheck (Hooks.endTurnEffects (Hooks.deathCheck duel.hooks).2
      duel.current.side)).1 with
    | true => rfl
    | false => rfl

variable [SpellHandler η] [DieSource δ]

/-- A pending step fires off the pace as it does on it. -/
theorem unpaced_fire (duel : Duel χ η δ) (step : Deferred) :
    (duel.fire step).unpaced = duel.unpaced.fire step := by
  cases step with
  | reveal => exact unpaced_reveal duel
  | cast code => exact unpaced_cast duel code
  | settle => exact unpaced_settle duel

/-- A granted request has the same effect off the pace as on it. -/
theorem unpaced_grant (duel : Duel χ η δ) (request : Request) :
    (duel.grant request).unpaced = duel.unpaced.grant request := by
  cases request with
  | roll roller => exact unpaced_startRoll duel
  | cast code => exact unpaced_cast duel code
  | close => exact unpaced_openTurn duel _

end Transitions

/-- The same requests are granted off the pace as on it. -/
theorem refusal?_unpaced_eq_none_iff [Hooks χ] (duel : Duel χ η δ) (request : Request) :
    duel.unpaced.refusal? request = none ↔ duel.refusal? request = none := by
  rw [refusal?_eq_none_iff, refusal?_eq_none_iff, status_eq_awaited_iff, status_eq_awaited_iff]
  change (_ ∧ _ ∧ duel.clock.unpaced.pending = none ∧ _) ∧ _ ↔ _
  rw [Clock.pending_unpaced_eq_none_iff]
  rfl

end Duel

/-- Whether a call is a move of the game, a start or a request. -/
def HostCall.isPlay : HostCall → Bool
  | .start _ | .request _ => true
  | .advance _ | .fastForward | .runUntilIdle => false

namespace Duel

variable {χ η δ : Type} [Hooks χ] [SpellHandler η] [DieSource δ]

/-- The starts and requests among some calls that are granted, in their order. -/
def granted (duel : Duel χ η δ) : List HostCall → List HostCall
  | [] => []
  | call :: rest =>
    if call.isPlay && (duel.call call).1.isOk then call :: granted (duel.call call).2 rest
    else granted (duel.call call).2 rest

/-- The grants of calls made in two parts are those of the parts. -/
theorem granted_append (duel : Duel χ η δ) (calls more : List HostCall) :
    duel.granted (calls ++ more) = duel.granted calls ++ (duel.after calls).granted more := by
  induction calls generalizing duel with
  | nil => rfl
  | cons call calls ih =>
    rw [List.cons_append, granted, granted, ih, after_cons]
    split
    · rw [List.cons_append]
    · rfl

/-! ## Played to rest -/

/-- A duel off its pace, once nothing is pending any more. -/
def played (duel : Duel χ η δ) : Duel χ η δ := duel.unpaced.runUntilIdle

/-- At rest there is nothing left to play. -/
theorem played_of_idle (duel : Duel χ η δ) (hidle : duel.clock.pending = none) :
    duel.played = duel.unpaced :=
  runUntilIdle_of_none duel.unpaced ((Clock.pending_unpaced_eq_none_iff _).mpr hidle)

/-- Playing a duel to rest only adds to its history. -/
theorem prefix_played (duel : Duel χ η δ) : duel.history <+: duel.played.history :=
  prefix_call duel.unpaced .runUntilIdle

/-- The passing of time makes no difference to a duel that is played to rest. -/
theorem played_moveTo (duel : Duel χ η δ) (time : UInt64) :
    { duel with clock := duel.clock.moveTo time }.played = duel.played := rfl

/-- A pending step that has fired makes no difference to a duel that is played to rest. -/
theorem played_fire {duel : Duel χ η δ} {step : Deferred} {clock : Clock}
    (htaken : duel.clock.takeNow? = some (step, clock)) :
    ({ duel with clock }.fire step).played = duel.played := by
  unfold played
  rw [unpaced_fire]
  exact (runUntilIdle_of_some duel.unpaced (Clock.takeNow?_unpaced htaken)).symm

/-- Firing whatever is due makes no difference to a duel that is played to rest. -/
theorem played_caughtUp (deadline : UInt64) (duel : Duel χ η δ) :
    (duel.caughtUp deadline).played = duel.played := by
  refine due_induction deadline (P := fun duel => (duel.caughtUp deadline).played = duel.played)
    ?_ ?_ duel
  · intro duel hnone
    rw [caughtUp_of_none duel hnone]
  · intro duel step clock htaken ih
    rw [caughtUp_of_some duel htaken, ih, played_fire (Clock.takeNow?_of_takeDue? htaken)]

/-- A call that only moves the clock makes no difference to a duel that is played to rest. -/
theorem played_call_of_wait (duel : Duel χ η δ) {call : HostCall} (hwait : call.isPlay = false) :
    (duel.call call).2.played = duel.played := by
  cases call with
  | start roster => cases hwait
  | request request => cases hwait
  | advance elapsed =>
    change (duel.advancedTo (later duel.clock.now elapsed)).played = _
    exact (played_moveTo _ _).trans (played_caughtUp _ duel)
  | fastForward =>
    change duel.fastForward.played = duel.played
    unfold fastForward
    cases htaken : duel.clock.takeNow? with
    | none => rfl
    | some taken => exact played_fire htaken
  | runUntilIdle =>
    change duel.runUntilIdle.played = duel.played
    rw [runUntilIdle_eq_caughtUp, played_caughtUp]

/-- A granted call is a start of a duel that has not started, or a request that is not refused. -/
theorem isOk_call_cases {duel : Duel χ η δ} {call : HostCall} (hplay : call.isPlay = true)
    (hok : (duel.call call).1.isOk = true) :
    (∃ roster, call = .start roster ∧ duel.started = false) ∨
      ∃ request, call = .request request ∧ duel.refusal? request = none := by
  cases call with
  | start roster =>
    cases hstarted : duel.started with
    | false => exact .inl ⟨roster, rfl, rfl⟩
    | true =>
      rw [call_start_of_started hstarted] at hok
      cases hok
  | request request =>
    cases hrefusal : duel.refusal? request with
    | none => exact .inr ⟨request, rfl, hrefusal⟩
    | some refusal =>
      rw [call_request_of_refused hrefusal] at hok
      cases hok
  | advance elapsed => cases hplay
  | fastForward => cases hplay
  | runUntilIdle => cases hplay

/-- A granted call has the same effect off the pace as on it. -/
theorem unpaced_call_of_granted {duel : Duel χ η δ} {call : HostCall} (hplay : call.isPlay = true)
    (hok : (duel.call call).1.isOk = true) :
    (duel.call call).2.unpaced = (duel.unpaced.call call).2 := by
  rcases isOk_call_cases hplay hok with ⟨roster, rfl, hfresh⟩ | ⟨request, rfl, hgranted⟩
  · have hunpaced : duel.unpaced.started = false := hfresh
    rw [call_start_of_fresh hfresh, call_start_of_fresh hunpaced]
    exact unpaced_begun duel roster
  · rw [call_request_of_granted hgranted,
      call_request_of_granted ((refusal?_unpaced_eq_none_iff duel request).mpr hgranted)]
    exact unpaced_grant duel request

/-- A call that is granted at rest has the same effect on the duel that is played to rest. -/
theorem played_call_of_granted {duel : Duel χ η δ} {call : HostCall}
    (hidle : duel.clock.pending = none) (hplay : call.isPlay = true)
    (hok : (duel.call call).1.isOk = true) :
    (duel.call call).2.played = duel.played.after [call, .runUntilIdle] := by
  rw [played_of_idle duel hidle]
  change _ = (duel.unpaced.call call).2.runUntilIdle
  rw [← unpaced_call_of_granted hplay hok]
  rfl

/-- A call that is refused makes no difference to a duel that is played to rest. -/
theorem played_call_of_refused {duel : Duel χ η δ} {call : HostCall}
    (hrefused : (duel.call call).1.isOk = false) : (duel.call call).2.played = duel.played := by
  cases hanswer : (duel.call call).1 with
  | ok status =>
    rw [hanswer] at hrefused
    cases hrefused
  | error refusal => rw [call_snd_of_refused hanswer]

variable (settings : Settings) (hooks : χ) (handler : η) (dice : δ)

/-- Nothing is granted while a step is pending. -/
theorem idle_of_granted {calls : List HostCall} {call : HostCall} (hplay : call.isPlay = true)
    (hok : (((new settings hooks handler dice).after calls).call call).1.isOk = true) :
    ((new settings hooks handler dice).after calls).clock.pending = none := by
  rcases isOk_call_cases hplay hok with ⟨roster, rfl, hfresh⟩ | ⟨request, rfl, hgranted⟩
  · obtain ⟨now, hnow⟩ := exists_waited settings hooks handler dice hfresh
    rw [hnow]
    rfl
  · obtain ⟨hstatus, -⟩ := (refusal?_eq_none_iff _ request).mp hgranted
    exact ((status_eq_awaited_iff _ request).mp hstatus).2.2.1

/-- Played to rest, a run is the run without delays of a host that makes the granted calls alone and
after each of them waits until nothing is pending. -/
theorem played_after (calls : List HostCall) :
    ((new settings hooks handler dice).after calls).played =
      (new settings.unpaced hooks handler dice).after
        (((new settings hooks handler dice).granted calls).flatMap
          fun call => [call, .runUntilIdle]) := by
  induction calls using List.reverseRecOn with
  | nil => rfl
  | append_singleton calls call ih =>
    rw [after_append, granted_append, List.flatMap_append, after_append, ← ih, after_cons,
      after_nil, granted, granted]
    generalize hduel : (new settings hooks handler dice).after calls = duel
    cases hplay : call.isPlay with
    | false => exact played_call_of_wait duel hplay
    | true =>
      cases hok : (duel.call call).1.isOk with
      | false => exact played_call_of_refused hok
      | true =>
        have hidle : duel.clock.pending = none := by
          rw [← hduel] at hok ⊢
          exact idle_of_granted settings hooks handler dice hplay hok
        exact played_call_of_granted hidle hplay hok

variable {settings} in
/-- Pacing never changes the game. Two duels that begin alike but for their delays and their seeds,
and that grant the same calls in the same order, record the same states for as long as both record,
however their hosts move the clocks and whatever else they are asked; and once both are at rest they
are the same in everything but settings and clock. -/
theorem agree_of_granted_eq {other : Settings} (hopener : settings.opener = other.opener)
    (hstrictness : settings.strictness = other.strictness) {calls otherCalls : List HostCall}
    (hgranted : (new settings hooks handler dice).granted calls =
      (new other hooks handler dice).granted otherCalls) :
    let duel := (new settings hooks handler dice).after calls
    let otherDuel := (new other hooks handler dice).after otherCalls
    (duel.history <+: otherDuel.history ∨ otherDuel.history <+: duel.history) ∧
      (duel.clock.pending = none → otherDuel.clock.pending = none →
        otherDuel = { duel with settings := otherDuel.settings, clock := otherDuel.clock }) := by
  intro duel otherDuel
  have hsettings : settings.unpaced = other.unpaced := by
    rw [Settings.unpaced, Settings.unpaced, hopener, hstrictness]
  have hplayed : duel.played = otherDuel.played := by
    rw [played_after, played_after, hsettings, hgranted]
  refine ⟨?_, fun hidle hotherIdle => ?_⟩
  · have hprefix : duel.history <+: otherDuel.played.history := hplayed ▸ prefix_played duel
    exact List.prefix_or_prefix_of_prefix hprefix (prefix_played otherDuel)
  · rw [played_of_idle duel hidle, played_of_idle otherDuel hotherIdle] at hplayed
    exact eq_of_unpaced_eq hplayed

/-- A paced run with a refused request and one that hurries are granted the same calls and come to
rest after the same turn. -/
theorem agree_of_granted_eq_hurried :
    let code : Code := ⟨"RAGUA\x7b5\x7d"⟩
    let dice := ScriptedDice.ofRolls [3, 4]
    let calls : List HostCall := [.start {}, .request (.roll .player), .advance 400,
      .request .close, .advance 600, .request (.cast code), .advance 2000]
    let hurried : List HostCall := [.start {}, .request (.roll .player), .runUntilIdle,
      .request (.cast code), .fastForward]
    let paced := new {} ({} : Recorder) Journal.empty dice
    let swift := new { Settings.instant with seed := 7 } ({} : Recorder) Journal.empty dice
    paced.granted calls = swift.granted hurried ∧
      swift.after hurried = { paced.after calls with
        settings := (swift.after hurried).settings
        clock := (swift.after hurried).clock } ∧
      (paced.after calls).clock.now = 3000 ∧ (swift.after hurried).clock.now = 0 := by
  intro code dice calls hurried paced swift
  have hgranted : paced.granted calls = swift.granted hurried := by decide
  have hagree := agree_of_granted_eq ({} : Recorder) Journal.empty dice (by rfl) (by rfl) hgranted
  exact ⟨hgranted, hagree.2 (by decide) (by decide), by decide, by decide⟩

end Duel

end DiceDuel
