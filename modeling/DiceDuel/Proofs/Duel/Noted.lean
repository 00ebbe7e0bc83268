import DiceDuel.Proofs.Casting.Draws
import DiceDuel.Proofs.Duel.Bookkeeping
import DiceDuel.Proofs.Duel.Waiting

/-!
# Duels whose collaborators are written down

A duel asks its hooks, its dice and its handler of spells for something, and it does not say what it
asked. Hooks, dice and handlers that write down what they are asked make this visible, for any
hooks, dice and handlers inside. Writing down changes nothing: a noted duel is, without its notes,
the duel that it would be with the plain collaborators, and its calls are answered in the same way.
-/

namespace DiceDuel

/-! ## Collaborators with notes -/

/-- Hooks that write down every call. -/
structure NotedHooks (χ : Type) where
  /-- The hooks that are called. -/
  hooks : χ
  /-- The calls, oldest first, each check with its answer. -/
  calls : List HookCall := []

namespace NotedHooks

variable {χ : Type} [Hooks χ]

instance : Hooks (NotedHooks χ) where
  startBattle noted roster :=
    ⟨Hooks.startBattle noted.hooks roster, noted.calls ++ [.startBattle roster]⟩
  startTurn noted side := ⟨Hooks.startTurn noted.hooks side, noted.calls ++ [.startTurn side]⟩
  rollEffects noted side face :=
    ⟨Hooks.rollEffects noted.hooks side face, noted.calls ++ [.rollEffects side face]⟩
  endTurnEffects noted side :=
    ⟨Hooks.endTurnEffects noted.hooks side, noted.calls ++ [.endTurnEffects side]⟩
  deathCheck noted :=
    let (dead, hooks) := Hooks.deathCheck noted.hooks
    (dead, ⟨hooks, noted.calls ++ [.deathCheck dead]⟩)
  onTransition noted snapshot :=
    ⟨Hooks.onTransition noted.hooks snapshot, noted.calls ++ [.transition snapshot]⟩

/-- Noted hooks write down every call. -/
theorem records : Records (NotedHooks.calls (χ := χ)) where
  startBattle _ _ := rfl
  startTurn _ _ := rfl
  rollEffects _ _ _ := rfl
  endTurnEffects _ _ := rfl
  deathCheck _ := rfl
  onTransition _ _ := rfl

end NotedHooks

/-- A handler of spells that writes down every casting. -/
structure NotedHandler (η : Type) where
  /-- The handler that carries the spells out. -/
  handler : η
  /-- The castings that were handed over, oldest first. -/
  castings : List Casting := []

instance {η : Type} [SpellHandler η] : SpellHandler (NotedHandler η) where
  carryOut noted casting :=
    ⟨SpellHandler.carryOut noted.handler casting, noted.castings ++ [casting]⟩

namespace Casting

variable {δ η : Type} [DieSource δ] [SpellHandler η] (strictness : Strictness) (code : Code)
  (caller : Caller)

/-- A code is cast with a noted handler as with the handler inside, and the casting that the outcome
tells of is written down. -/
theorem castCode_notedHandler (dice : δ) (noted : NotedHandler η) :
    castCode strictness code caller dice noted =
      ((castCode strictness code caller dice noted.handler).1,
        (castCode strictness code caller dice noted.handler).2.1,
        ⟨(castCode strictness code caller dice noted.handler).2.2, noted.castings
          ++ ((castCode strictness code caller dice noted.handler).1.casting? caller).toList⟩) := by
  have houtcome := castCode_fst_eq strictness caller code dice noted noted.handler
  have hdice : (castCode strictness code caller dice noted).2.1 =
      (castCode strictness code caller dice noted.handler).2.1 := by
    rw [castCode_dice, castCode_dice]
  have hnoted := castCode_handler strictness caller code dice noted
  have hinside := castCode_handler strictness caller code dice noted.handler
  rw [houtcome] at hnoted
  refine Prod.ext houtcome (Prod.ext hdice ?_)
  rw [hnoted, hinside]
  cases (castCode strictness code caller dice noted.handler).1.casting? caller with
  | none => simp
  | some casting => rfl

end Casting

/-! ## Noted duels -/

/-- A duel whose hooks, handler of spells and dice write down what they are asked. -/
abbrev NotedDuel (χ η δ : Type) : Type := Duel (NotedHooks χ) (NotedHandler η) (Noted δ)

namespace Duel

variable {χ η δ : Type}

/-- A duel that has not started, whose collaborators have nothing in their notes. -/
def noted (settings : Settings) (hooks : χ) (handler : η) (dice : δ) :
    NotedDuel χ η δ :=
  new settings { hooks } { handler } { dice }

/-- A noted duel without its notes. -/
def plain (duel : NotedDuel χ η δ) : Duel χ η δ :=
  { duel with
    hooks := duel.hooks.hooks
    handler := duel.handler.handler
    dice := duel.dice.dice }

variable (duel : NotedDuel χ η δ)

section Transitions

variable [Hooks χ]

/-- A turn opens without the notes as it does with them. -/
theorem plain_openTurn (side : Side) : (duel.openTurn side).plain = duel.plain.openTurn side := by
  cases side <;> rfl

/-- A face is revealed without the notes as it is with them. -/
theorem plain_reveal [DieSource δ] : duel.reveal.plain = duel.plain.reveal := by
  cases hside : duel.current.side with
  | player =>
    rw [reveal_of_player duel hside, reveal_of_player duel.plain hside]
    rfl
  | enemy =>
    rw [reveal_of_enemy duel hside, reveal_of_enemy duel.plain hside]
    rfl

/-- A code is cast without the notes as it is with them. -/
theorem plain_cast [SpellHandler η] [DieSource δ] (code : Code) :
    (duel.cast code).plain = duel.plain.cast code := by
  rw [cast_eq_castWith, cast_eq_castWith, Casting.castCode_noted, Casting.castCode_notedHandler]
  rfl

/-- An animation ends without the notes as it does with them. -/
theorem plain_settle : duel.settle.plain = duel.plain.settle := by
  have hfirst : (Hooks.deathCheck duel.hooks).1 = (Hooks.deathCheck duel.plain.hooks).1 := rfl
  have hsecond : (Hooks.deathCheck duel.wornHooks).1 =
      (Hooks.deathCheck duel.plain.wornHooks).1 := rfl
  unfold wornHooks at hsecond
  unfold settle checkDeath
  dsimp only
  rw [hfirst]
  cases (Hooks.deathCheck duel.plain.hooks).1 with
  | true => rfl
  | false =>
    dsimp only
    rw [hsecond]
    cases (Hooks.deathCheck (Hooks.endTurnEffects (Hooks.deathCheck duel.plain.hooks).2
      duel.plain.current.side)).1 with
    | true => rfl
    | false => rfl

variable [SpellHandler η] [DieSource δ]

/-- A pending step fires without the notes as it does with them. -/
theorem plain_fire (step : Deferred) : (duel.fire step).plain = duel.plain.fire step := by
  cases step with
  | reveal => exact plain_reveal duel
  | cast code => exact plain_cast duel code
  | settle => exact plain_settle duel

/-- A granted request has the same effect without the notes as with them. -/
theorem plain_grant (request : Request) :
    (duel.grant request).plain = duel.plain.grant request := by
  cases request with
  | roll roller => rfl
  | cast code => exact plain_cast duel code
  | close => exact plain_openTurn duel _

end Transitions

variable [Hooks χ] [SpellHandler η] [DieSource δ]

/-- The same steps fall due without the notes as with them. -/
theorem plain_fireDue (deadline : UInt64) (n : Nat) :
    (fireDue deadline n duel).plain = fireDue deadline n duel.plain := by
  induction n generalizing duel with
  | zero => rfl
  | succ n ih =>
    have hclock : duel.plain.clock = duel.clock := rfl
    rw [fireDue, fireDue, hclock]
    cases duel.clock.takeDue? deadline with
    | none => rfl
    | some taken =>
      dsimp only
      rw [ih, plain_fire]
      rfl

/-- Firing steps until none is pending is the same without the notes as with them. -/
theorem plain_fastForwardBy (n : Nat) :
    (fastForwardBy n duel).plain = fastForwardBy n duel.plain := by
  rw [fastForwardBy_eq_fireDue, fastForwardBy_eq_fireDue, plain_fireDue]

/-- A call is answered without the notes as with them, and has the same effect. -/
theorem call_plain (call : HostCall) :
    duel.plain.call call = ((duel.call call).1, (duel.call call).2.plain) := by
  cases call with
  | start roster =>
    cases hstarted : duel.started with
    | true =>
      have hplain : duel.plain.started = true := hstarted
      rw [call_start_of_started hstarted, call_start_of_started hplain]
    | false =>
      have hbegun : (duel.begun roster).plain = duel.plain.begun roster :=
        plain_openTurn { duel with started := true, hooks := Hooks.startBattle duel.hooks roster } _
      have hfresh : duel.plain.started = false := hstarted
      rw [call_start_of_fresh hstarted, call_start_of_fresh hfresh, ← hbegun]
      rfl
  | request request =>
    have hsame : duel.plain.refusal? request = duel.refusal? request := rfl
    cases hrefusal : duel.refusal? request with
    | none =>
      rw [call_request_of_granted hrefusal, call_request_of_granted (hsame.trans hrefusal),
        ← plain_grant]
      rfl
    | some refusal =>
      rw [call_request_of_refused hrefusal, call_request_of_refused (hsame.trans hrefusal)]
  | advance elapsed =>
    have hfired := plain_fireDue duel (later duel.clock.now elapsed) (stepsAhead duel.clock)
    have hadvance : (duel.advance elapsed).plain = duel.plain.advance elapsed :=
      congrArg (fun fired : Duel χ η δ =>
        { fired with clock := fired.clock.moveTo (later duel.clock.now elapsed) }) hfired
    rw [call, call, ← hadvance]
    rfl
  | fastForward =>
    have hforward : duel.fastForward.plain = duel.plain.fastForward := plain_fastForwardBy duel 1
    rw [call, call, ← hforward]
    rfl
  | runUntilIdle =>
    have hidle : duel.runUntilIdle.plain = duel.plain.runUntilIdle :=
      plain_fastForwardBy duel (stepsAhead duel.clock)
    rw [call, call, ← hidle]
    rfl

/-- Any calls are answered without the notes as with them, and have the same effect. -/
theorem run_plain (calls : List HostCall) :
    duel.plain.run calls = ((duel.run calls).1, (duel.run calls).2.plain) := by
  induction calls generalizing duel with
  | nil => rfl
  | cons call calls ih =>
    rw [run, call_plain]
    dsimp only
    rw [ih]
    rfl

/-- Without its notes a noted duel is the duel that the same calls make of the plain one. -/
theorem plain_after_noted (settings : Settings) (hooks : χ) (handler : η) (dice : δ)
    (calls : List HostCall) :
    ((noted settings hooks handler dice).after calls).plain =
      (new settings hooks handler dice).after calls :=
  (congrArg Prod.snd (run_plain (noted settings hooks handler dice) calls)).symm

end Duel

end DiceDuel
