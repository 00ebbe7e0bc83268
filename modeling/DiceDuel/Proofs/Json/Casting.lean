import DiceDuel.Json.Casting
import DiceDuel.Proofs.Casting.Catalogued
import DiceDuel.Proofs.Json.Spell

/-!
# Castings are read back as they were written

Arguments and callers recover as they are. Castings, journals and outcomes hold bases, and recover if
these are in the catalog.
-/

namespace DiceDuel

instance : LawfulJson Side := ⟨fun side => by cases side <;> rfl⟩

instance : LawfulJson Params where
  recovers
    | .amount amount => Json.read_field rfl (recovers amount) rfl
    | .duration duration => Json.read_field rfl (recovers duration) rfl
    | .confuse slots damage => by
      refine Json.read_field rfl (recovers slots) ?_
      exact Json.read_field rfl (recovers damage) rfl
    | .buff amount duration tier cls => by
      refine Json.read_field rfl (recovers amount) ?_
      refine Json.read_field rfl (recovers duration) ?_
      refine Json.read_field rfl (recovers tier) ?_
      exact Json.read_field rfl (recovers cls) rfl
    | .charge amount tier cls => by
      refine Json.read_field rfl (recovers amount) ?_
      refine Json.read_field rfl (recovers tier) ?_
      exact Json.read_field rfl (recovers cls) rfl
    | .diceTrigger => rfl

instance : LawfulJson Arguments where
  recovers arguments := by
    refine Json.read_field rfl (recovers arguments.scaling) ?_
    exact Json.read_field rfl (recovers arguments.params) rfl

instance : LawfulJson Caller where
  recovers caller := by
    refine Json.read_field rfl (recovers caller.side) ?_
    exact Json.read_field rfl (recovers caller.roll) rfl

/-- A casting recovers if its base is in the catalog. -/
theorem recovers_casting {casting : Casting} (hbase : casting.base ∈ Base.all) :
    Recovers casting := by
  refine Json.read_field rfl (recovers_base_iff.mpr hbase) ?_
  refine Json.read_field rfl (recovers casting.arguments) ?_
  exact Json.read_field rfl (recovers casting.caller) rfl

/-- A journal recovers if the bases of its castings are in the catalog. -/
theorem recovers_journal {journal : Journal} (h : journal.Catalogued) : Recovers journal := by
  have hcastings : Recovers journal.castings :=
    recovers_list fun casting hmem => recovers_casting (h casting hmem)
  exact Json.read_field rfl hcastings rfl

/-- An outcome recovers if the base that it names is in the catalog. -/
theorem recovers_outcome {outcome : Outcome} (h : outcome.Catalogued) : Recovers outcome := by
  cases outcome with
  | cast base arguments gate =>
    have hbase : Recovers base := recovers_base_iff.mpr (h base rfl)
    refine Json.read_field rfl hbase ?_
    refine Json.read_field rfl (recovers arguments) ?_
    exact Json.read_field rfl (recovers gate) rfl
  | fizzled gate => exact Json.read_field rfl (recovers gate) rfl
  | unknownBase base => exact Json.read_field rfl (recovers base) rfl
  | rejected base fault =>
    have hbase : Recovers base := recovers_base_iff.mpr (h base rfl)
    refine Json.read_field rfl hbase ?_
    exact Json.read_field rfl (recovers fault) rfl

end DiceDuel
