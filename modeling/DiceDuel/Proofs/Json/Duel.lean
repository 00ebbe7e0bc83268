import DiceDuel.Json.Duel
import DiceDuel.Proofs.Duel.Castings
import DiceDuel.Proofs.Json.Casting

/-!
# What a duel records is read back as it was written

Snapshots and clocks recover, with or without a pending step, whether or not a run can reach them. The
outcomes and the journal of a run recover because a run takes every base from the catalog.
-/

namespace DiceDuel

instance : LawfulJson Phase := ⟨fun phase => by cases phase <;> rfl⟩

instance : LawfulJson Snapshot where
  recovers s := by
    refine Json.read_field rfl (recovers s.phase) ?_
    refine Json.read_field rfl (recovers s.side) ?_
    refine Json.read_field rfl (recovers s.roll) ?_
    refine Json.read_field rfl (recovers s.offered) ?_
    refine Json.read_field rfl (recovers s.shown) ?_
    refine Json.read_field rfl (recovers s.rolling) ?_
    exact Json.read_field rfl (recovers s.turn) rfl

instance : LawfulJson Deferred where
  recovers
    | .reveal => rfl
    | .cast code => congrArg (Option.map Deferred.cast) (recovers code)
    | .settle => rfl

instance : LawfulJson Appointment where
  recovers appointment := by
    refine Json.read_field rfl (recovers appointment.due) ?_
    exact Json.read_field rfl (recovers appointment.step) rfl

instance : NonNullJson Appointment := ⟨rfl⟩

instance : LawfulJson Clock where
  recovers clock := by
    refine Json.read_field rfl (recovers clock.now) ?_
    exact Json.read_field rfl (recovers clock.pending) rfl

/-- Everything that is recorded is read back from its written form as it was: what any text parses
to; the outcomes and the journal of any codes that are cast one after another, with any dice and
however faults are treated; and the visible state, the clock with its pending step, the history and
the outcomes of a duel after any calls, and its journal if it keeps one. -/
theorem Duel.recorded_recovers {χ η δ : Type} [Hooks χ] [SpellHandler η] [DieSource δ] :
    (∀ text : String, ofJson? (toJson (Spell.ofCode ⟨text⟩)) = some (Spell.ofCode ⟨text⟩)) ∧
    (∀ strictness (items : List (Code × Caller)) (dice : δ),
      let (outcomes, _, journal) := Casting.castAll strictness items dice Journal.empty
      (∀ outcome ∈ outcomes, ofJson? (toJson outcome) = some outcome) ∧
        ofJson? (toJson journal) = some journal) ∧
    (∀ settings (hooks : χ) (handler : η) (dice : δ) calls,
      let duel := (new settings hooks handler dice).after calls
      ofJson? (toJson duel.current) = some duel.current ∧
        ofJson? (toJson duel.clock) = some duel.clock ∧
        ofJson? (toJson duel.history) = some duel.history ∧
        ofJson? (toJson duel.outcomes) = some duel.outcomes) ∧
    ∀ settings (hooks : χ) (dice : δ) calls,
      let duel := (new settings hooks Journal.empty dice).after calls
      ofJson? (toJson duel.handler) = some duel.handler := by
  refine ⟨fun text => recovers _, ?_, ?_, ?_⟩
  · intro strictness items dice
    have hjournal := Casting.catalogued_journal_castAll strictness items dice
      Journal.catalogued_empty
    refine ⟨fun outcome hmem => ?_, recovers_journal hjournal⟩
    have houtcome := Casting.catalogued_of_mem_castAll strictness items dice Journal.empty hmem
    exact recovers_outcome houtcome
  · intro settings hooks handler dice calls
    let duel := (new settings hooks handler dice).after calls
    have houtcomes := catalogued_outcomes_after_calls settings hooks dice calls handler
    refine ⟨recovers duel.current, recovers duel.clock, recovers duel.history, ?_⟩
    exact recovers_list fun outcome hmem => recovers_outcome (houtcomes outcome hmem)
  · intro settings hooks dice calls
    exact recovers_journal (catalogued_journal_after_calls settings hooks dice calls)

end DiceDuel
