import DiceDuel.Proofs.Casting.Effects
import DiceDuel.Proofs.Spell.Catalog

/-!
# The ways in which a casting goes

A casting stops at its gate, at the catalog or at a token with a fault, or it is handed over. Which
of the four it is can be told from the spell, the strictness and the face at the gate, in the terms
of the catalog and of the arguments, without carrying the casting out. The four ways exclude each
other and one of them is always gone, so they are an account of all outcomes.
-/

namespace DiceDuel

/-- Whether a spell is stopped by its gate at a face: it is marked and the face is odd. -/
def Spell.FizzlesAt (spell : Spell) (face : UInt8) : Prop :=
  spell.rollAgain = true ∧ face % 2 = 1

/-- How the casting of a spell goes when its gate shows a face. A spell without a mark has no gate,
and then the face plays no part. -/
inductive Goes (strictness : Strictness) (spell : Spell) (face : UInt8) : Outcome → Prop
  /-- The gate stops the spell. -/
  | fizzled (stopped : spell.FizzlesAt face) : Goes strictness spell face (.fizzled face)
  /-- The gate lets the spell through, and no base of the catalog is written like its base. -/
  | unknownBase (passed : ¬spell.FizzlesAt face)
      (unknown : ∀ base ∈ Base.all, base.code ≠ spell.base) :
      Goes strictness spell face (.unknownBase spell.base)
  /-- The base is known, and a token that it takes has a fault. -/
  | rejected {base : Base} {fault : TokenFault} (passed : ¬spell.FizzlesAt face)
      (known : base ∈ Base.all) (written : base.code = spell.base)
      (faulty : Arguments.ofSpell strictness base spell = .error fault) :
      Goes strictness spell face (.rejected base fault)
  /-- The base is known and takes its arguments; a face is reported if there was a gate. -/
  | cast {base : Base} {arguments : Arguments} (passed : ¬spell.FizzlesAt face)
      (known : base ∈ Base.all) (written : base.code = spell.base)
      (resolved : Arguments.ofSpell strictness base spell = .ok arguments) :
      Goes strictness spell face
        (.cast base arguments (if spell.rollAgain = true then some face else none))

namespace Casting

variable {δ η : Type} [DieSource δ] [SpellHandler η] {strictness : Strictness} {spell : Spell}
  {face : UInt8} {outcome : Outcome}

/-- A spell that its gate lets through is handed over in one of the three ways that are left. -/
theorem goes_handOver (hpassed : ¬spell.FizzlesAt face) (caller : Caller) (handler : η) :
    Goes strictness spell face (handOver strictness spell caller
      (if spell.rollAgain = true then some face else none) handler).1 := by
  unfold handOver
  cases hknown : spell.knownBase? with
  | none => exact .unknownBase hpassed (Base.ofCode?_eq_none_iff.mp hknown)
  | some base =>
    obtain ⟨hbase, hwritten⟩ := Base.ofCode?_eq_some_iff.mp hknown
    dsimp only
    cases harguments : Arguments.ofSpell strictness base spell with
    | error fault => exact .rejected hpassed hbase hwritten harguments
    | ok arguments => exact .cast hpassed hbase hwritten harguments

/-- A spell that its gate lets through is handed over in no other way than the one it can go. -/
theorem handOver_of_goes (hpassed : ¬spell.FizzlesAt face) (caller : Caller) (handler : η)
    (hgoes : Goes strictness spell face outcome) :
    (handOver strictness spell caller (if spell.rollAgain = true then some face else none)
      handler).1 = outcome := by
  unfold handOver
  cases hgoes with
  | fizzled stopped => exact absurd stopped hpassed
  | unknownBase _ unknown =>
    have hknown : spell.knownBase? = none := Base.ofCode?_eq_none_iff.mpr unknown
    simp only [hknown]
  | @rejected base fault _ known written faulty =>
    have hknown : spell.knownBase? = some base := Base.ofCode?_eq_some_iff.mpr ⟨known, written⟩
    simp only [hknown, faulty]
  | @cast base arguments _ known written resolved =>
    have hknown : spell.knownBase? = some base := Base.ofCode?_eq_some_iff.mpr ⟨known, written⟩
    simp only [hknown, resolved]

variable (strictness) (code : Code) (caller : Caller) (dice : δ) (handler : η)

/-- A code that its gate stops fizzles. -/
theorem castCode_of_fizzlesAt (hstopped : (Spell.ofCode code).FizzlesAt (gateFace dice)) :
    (castCode strictness code caller dice handler).1 = .fizzled (gateFace dice) := by
  rw [castCode_of_odd _ _ hstopped.1 hstopped.2]

/-- A code that its gate lets through is handed over, with the face if there was a gate. -/
theorem castCode_of_not_fizzlesAt (hpassed : ¬(Spell.ofCode code).FizzlesAt (gateFace dice)) :
    (castCode strictness code caller dice handler).1 =
      (handOver strictness (Spell.ofCode code) caller
        (if (Spell.ofCode code).rollAgain = true then some (gateFace dice) else none) handler).1 := by
  cases hgated : (Spell.ofCode code).rollAgain with
  | false =>
    rw [castCode_of_plain _ _ hgated]
    rfl
  | true =>
    have heven : ¬gateFace dice % 2 = 1 := fun hodd => hpassed ⟨hgated, hodd⟩
    rw [castCode_of_even _ _ hgated heven]
    rfl

/-- The outcome of a casting is the one way that it can go with the face that the dice show. -/
theorem castCode_eq_iff_goes (outcome : Outcome) :
    (castCode strictness code caller dice handler).1 = outcome ↔
      Goes strictness (Spell.ofCode code) (gateFace dice) outcome := by
  by_cases hgate : (Spell.ofCode code).FizzlesAt (gateFace dice)
  · rw [castCode_of_fizzlesAt strictness code caller dice handler hgate]
    constructor
    · rintro rfl
      exact .fizzled hgate
    · intro hgoes
      cases hgoes with
      | fizzled _ => rfl
      | unknownBase passed _ => exact absurd hgate passed
      | rejected passed _ _ _ => exact absurd hgate passed
      | cast passed _ _ _ => exact absurd hgate passed
  · rw [castCode_of_not_fizzlesAt strictness code caller dice handler hgate]
    constructor
    · rintro rfl
      exact goes_handOver hgate caller handler
    · exact handOver_of_goes hgate caller handler

end Casting

end DiceDuel
