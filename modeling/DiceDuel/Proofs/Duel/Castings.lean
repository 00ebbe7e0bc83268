import DiceDuel.Proofs.Casting.Catalogued
import DiceDuel.Proofs.Duel.Stages

/-!
# What a duel writes down of its castings

The outcomes of a duel and whatever carries its spells out change only when a code is cast: a move
casts one code or none. So what one casting keeps of them, a run keeps as well, and in a run every
base comes from the catalog.
-/

namespace DiceDuel.Duel

variable {χ η δ : Type}

/-- What a duel writes down of its castings: their outcomes, and whatever carries them out. -/
def castingRecords (duel : Duel χ η δ) : List Outcome × η := (duel.outcomes, duel.handler)

section Transitions

variable [Hooks χ] (duel : Duel χ η δ)

/-- The opening of a turn casts nothing. -/
theorem castingRecords_openTurn (side : Side) :
    (duel.openTurn side).castingRecords = duel.castingRecords := by
  cases side <;> rfl

/-- A reveal casts nothing. -/
theorem castingRecords_reveal [DieSource δ] :
    duel.reveal.castingRecords = duel.castingRecords := by
  cases hside : duel.current.side with
  | player =>
    rw [reveal_of_player duel hside]
    rfl
  | enemy =>
    rw [reveal_of_enemy duel hside]
    rfl

variable {duel} {next : Duel χ η δ}

/-- The end of an animation casts nothing. -/
theorem Settles.castingRecords (hsettles : Settles duel next) :
    next.castingRecords = duel.castingRecords := by
  cases hsettles <;> rfl

variable [SpellHandler η] [DieSource δ]

/-- A move casts nothing, or it casts one code. -/
theorem Move.castingRecords (hmove : Move duel next) :
    next.castingRecords = duel.castingRecords ∨
      ∃ code caller,
        let cast := Casting.castCode duel.settings.strictness code caller duel.dice duel.handler
        next.castingRecords = (duel.outcomes ++ [cast.1], cast.2.2) := by
  have hcast (clock : Clock) (code : Code) := cast_eq_castWith { duel with clock } code
  cases hmove with
  | start fresh roster => exact .inl (castingRecords_openTurn _ _)
  | @request request granted =>
    cases request with
    | roll side => exact .inl rfl
    | cast code =>
      refine .inr ⟨code, ⟨duel.current.side, duel.current.roll⟩, ?_⟩
      exact congrArg Duel.castingRecords (hcast duel.clock code)
    | close => exact .inl (castingRecords_openTurn _ _)
  | @fire step clock taken =>
    cases step with
    | reveal => exact .inl (castingRecords_reveal _)
    | cast code =>
      refine .inr ⟨code, ⟨duel.current.side, duel.current.roll⟩, ?_⟩
      exact congrArg Duel.castingRecords (hcast clock code)
    | settle => exact .inl (settles_settle _).castingRecords
  | wait time => exact .inl rfl

/-- A move brings no outcome that names a base outside the catalog. -/
theorem Move.catalogued_outcomes (hmove : Move duel next)
    (h : ∀ outcome ∈ duel.outcomes, outcome.Catalogued) :
    ∀ outcome ∈ next.outcomes, outcome.Catalogued := by
  rcases hmove.castingRecords with hnone | ⟨code, caller, hcast⟩
  · have houtcomes : next.outcomes = duel.outcomes := congrArg Prod.fst hnone
    rw [houtcomes]
    exact h
  · have houtcomes : next.outcomes = duel.outcomes ++ [_] := congrArg Prod.fst hcast
    have hlast := Casting.catalogued_castCode duel.settings.strictness code caller duel.dice
      duel.handler
    rw [houtcomes, List.forall_mem_append, List.forall_mem_singleton]
    exact ⟨h, hlast⟩

end Transitions

section Journals

variable [Hooks χ] [DieSource δ] {duel next : Duel χ Journal δ}

/-- A move brings no casting with such a base into a journal. -/
theorem Move.catalogued_journal (hmove : Move duel next) (h : duel.handler.Catalogued) :
    next.handler.Catalogued := by
  rcases hmove.castingRecords with hnone | ⟨code, caller, hcast⟩
  · have hhandler : next.handler = duel.handler := congrArg Prod.snd hnone
    rw [hhandler]
    exact h
  · have hhandler : next.handler = _ := congrArg Prod.snd hcast
    rw [hhandler]
    exact Casting.catalogued_journal_castCode _ code caller duel.dice h

end Journals

section Runs

variable [Hooks χ] [DieSource δ] (settings : Settings) (hooks : χ) (dice : δ)
  (calls : List HostCall)

/-- After any calls the outcomes of a duel name no base outside the catalog. -/
theorem catalogued_outcomes_after_calls [SpellHandler η] (handler : η) :
    ∀ outcome ∈ ((new settings hooks handler dice).after calls).outcomes, outcome.Catalogued := by
  have hnew : ∀ outcome ∈ (new settings hooks handler dice).outcomes, outcome.Catalogued :=
    fun _ hmem => nomatch hmem
  exact Moves.preserve (fun h hmove => hmove.catalogued_outcomes h) (moves_after _ calls) hnew

/-- After any calls the journal of a duel holds no such casting. -/
theorem catalogued_journal_after_calls :
    ((new settings hooks Journal.empty dice).after calls).handler.Catalogued := by
  let P (duel : Duel χ Journal δ) : Prop := duel.handler.Catalogued
  have hstep {duel next : Duel χ Journal δ} (h : P duel) (hmove : Move duel next) : P next :=
    hmove.catalogued_journal h
  exact Moves.preserve hstep (moves_after _ calls) Journal.catalogued_empty

end Runs

end DiceDuel.Duel
