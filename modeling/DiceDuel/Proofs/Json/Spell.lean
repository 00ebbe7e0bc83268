import DiceDuel.Json.Spell
import DiceDuel.Proofs.Json.Basic
import DiceDuel.Proofs.SortedMap
import DiceDuel.Proofs.Spell.Catalog

/-!
# Spells are read back as they were written

Codes, scalings, values, faults and spells recover, whatever texts they hold. A base recovers if it
is in the catalog; a face outside the die is written as the nearest one and so is not read back.
-/

namespace DiceDuel

/-- A base recovers exactly if it is in the catalog. -/
theorem recovers_base_iff {base : Base} : Recovers base ↔ base ∈ Base.all := by
  have hread : Base.ofCode? base.code = some base ↔ base ∈ Base.all ∧ base.code = base.code :=
    Base.ofCode?_eq_some_iff
  rw [eq_self, and_true] at hread
  exact hread

instance : LawfulJson Code := ⟨fun _ => rfl⟩

instance : NonNullJson Code := ⟨rfl⟩

instance : LawfulJson Scaling where
  recovers s := by
    refine Json.read_field rfl (recovers s.tier) ?_
    refine Json.read_field rfl (recovers s.level) ?_
    exact Json.read_field rfl (recovers s.rate) rfl

instance : LawfulJson Value where
  recovers
    | .integer n => congrArg (Option.map Value.integer) (recovers n)
    | .sequence indices => congrArg (Option.map Value.sequence) (recovers indices)
    | .literal s => congrArg (Option.map Value.literal) (recovers s)

instance : NonNullJson Value := ⟨rfl⟩

instance : LawfulJson TokenFault where
  recovers
    | .unknownBand number => congrArg (Option.map TokenFault.unknownBand) (recovers number)
    | .tooManyIndices requested limit => by
      refine Json.read_field rfl (recovers requested) ?_
      exact Json.read_field rfl (recovers limit) rfl

/-- A letter with its token is read back from the field that it was written as. -/
theorem tokenOfField?_field (entry : Char × String) :
    tokenOfField? (String.singleton entry.1, toJson entry.2) = some entry := by
  have hletter : singleChar? (String.singleton entry.1) = some entry.1 := by
    rw [singleChar?, String.toList_singleton]
  have htoken : (ofJson? (toJson entry.2) : Option String) = some entry.2 := recovers entry.2
  rw [tokenOfField?, hletter, htoken]
  rfl

instance : LawfulJson (SortedMap Char String) where
  recovers tokens := by
    have hentries : (tokens.entries.map fun e => (String.singleton e.1, toJson e.2)).mapM
        tokenOfField? = some tokens.entries :=
      mapM_map_eq_some fun entry _ => tokenOfField?_field entry
    change (List.mapM tokenOfField? _).map SortedMap.ofList = some tokens
    rw [hentries, Option.map_some, SortedMap.ofList_entries]

instance : LawfulJson Spell where
  recovers spell := by
    refine Json.read_field rfl (recovers spell.base) ?_
    refine Json.read_field rfl (recovers spell.first) ?_
    refine Json.read_field rfl (recovers spell.tokens) ?_
    refine Json.read_field rfl (recovers spell.scaling) ?_
    exact Json.read_field rfl (recovers spell.rollAgain) rfl

end DiceDuel
