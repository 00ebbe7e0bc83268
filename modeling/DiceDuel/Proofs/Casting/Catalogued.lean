import DiceDuel.Proofs.Casting.Series

/-!
# Castings take their bases from the catalog

There are more bases than the catalog has, since a die can have any byte as its face. A code is cast
with a base that was looked up, so no outcome names another one and no other one gets into a journal:
one casting keeps such a journal, and so does a series of them.
-/

namespace DiceDuel

namespace Outcome

/-- The base that an outcome names, if it is more than a text. -/
def base? : Outcome → Option Base
  | .cast base _ _ => some base
  | .rejected base _ => some base
  | .fizzled _ => none
  | .unknownBase _ => none

/-- Whether the base that an outcome names is in the catalog. -/
def Catalogued (outcome : Outcome) : Prop := ∀ base ∈ outcome.base?, base ∈ Base.all

variable {outcome : Outcome}

/-- The casting that an outcome tells of has the base that the outcome names. -/
theorem base?_of_casting? {caller : Caller} {casting : Casting}
    (hcasting : outcome.casting? caller = some casting) : outcome.base? = some casting.base := by
  cases outcome with
  | cast base arguments gate =>
    cases hcasting
    rfl
  | fizzled gate => cases hcasting
  | unknownBase base => cases hcasting
  | rejected base fault => cases hcasting

end Outcome

/-- However a spell goes, the base that its outcome names is in the catalog. -/
theorem Goes.catalogued {strictness : Strictness} {spell : Spell} {face : UInt8}
    {outcome : Outcome} (hgoes : Goes strictness spell face outcome) : outcome.Catalogued := by
  intro base hbase
  cases hgoes with
  | fizzled _ => cases hbase
  | unknownBase _ _ => cases hbase
  | rejected _ known _ _ =>
    cases hbase
    exact known
  | cast _ known _ _ =>
    cases hbase
    exact known

/-- Whether the bases of all castings of a journal are in the catalog. -/
def Journal.Catalogued (journal : Journal) : Prop :=
  ∀ casting ∈ journal.castings, casting.base ∈ Base.all

/-- There is no other base in the journal without castings. -/
theorem Journal.catalogued_empty : Journal.empty.Catalogued := fun _ hmem => nomatch hmem

namespace Casting

variable {δ : Type} [DieSource δ] (strictness : Strictness)

section Outcomes

variable {η : Type} [SpellHandler η]

/-- The outcome of casting a code names no base but one of the catalog. -/
theorem catalogued_castCode (code : Code) (caller : Caller) (dice : δ) (handler : η) :
    (castCode strictness code caller dice handler).1.Catalogued := by
  have hgoes := (castCode_eq_iff_goes strictness code caller dice handler _).mp rfl
  exact hgoes.catalogued

/-- No outcome of a series names another base. -/
theorem catalogued_of_mem_castAll (items : List (Code × Caller)) (dice : δ) (handler : η)
    {outcome : Outcome} (hmem : outcome ∈ (castAll strictness items dice handler).1) :
    outcome.Catalogued := by
  induction items generalizing dice handler with
  | nil => cases hmem
  | cons item rest ih =>
    obtain ⟨code, caller⟩ := item
    rw [castAll_cons] at hmem
    cases hmem with
    | head => exact catalogued_castCode strictness code caller dice handler
    | tail _ hrest => exact ih _ _ hrest

end Outcomes

variable {journal : Journal}

/-- Casting a code adds no casting with another base to a journal. -/
theorem catalogued_journal_castCode (code : Code) (caller : Caller) (dice : δ)
    (h : journal.Catalogued) :
    (castCode strictness code caller dice journal).2.2.Catalogued := by
  have houtcome := catalogued_castCode strictness code caller dice journal
  intro casting hmem
  rw [castings_castCode, List.mem_append, Option.mem_toList] at hmem
  cases hmem with
  | inl hbefore => exact h casting hbefore
  | inr hcasting => exact houtcome casting.base (Outcome.base?_of_casting? hcasting)

/-- Nor does a series of codes. -/
theorem catalogued_journal_castAll (items : List (Code × Caller)) (dice : δ)
    (h : journal.Catalogued) : (castAll strictness items dice journal).2.2.Catalogued := by
  induction items generalizing dice journal with
  | nil => exact h
  | cons item rest ih =>
    obtain ⟨code, caller⟩ := item
    rw [castAll_cons]
    exact ih _ (catalogued_journal_castCode strictness code caller dice h)

end Casting

end DiceDuel
