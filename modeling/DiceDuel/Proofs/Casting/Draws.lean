import DiceDuel.Proofs.Casting.Ways

/-!
# The draws of a casting

Dice that write down what they give answer like the dice that they hold, so the bytes that a casting
draws can be read off afterwards, whatever the dice are. A casting draws one byte for a gate and no
other. The face that an outcome reports is that of the byte that was drawn; but an outcome without a
base or with a fault has no place for it, and then the draw behind it is not reported.
-/

namespace DiceDuel

/-- Dice that write down every byte they give. -/
structure Noted (δ : Type) where
  /-- The dice that are drawn from. -/
  dice : δ
  /-- The bytes that were given, oldest first. -/
  given : List UInt8 := []

namespace Noted

variable {δ : Type} [DieSource δ]

/-- Draws a byte and writes it down. -/
def roll (noted : Noted δ) : UInt8 × Noted δ :=
  let (roll, dice) := DieSource.roll noted.dice
  (roll, ⟨dice, noted.given ++ [roll]⟩)

instance : DieSource (Noted δ) := ⟨roll⟩

/-- What is drawn is what the dice inside give, and it is written down. -/
theorem roll_eq (noted : Noted δ) :
    DieSource.roll noted = ((DieSource.roll noted.dice).1,
      ⟨(DieSource.roll noted.dice).2, noted.given ++ [(DieSource.roll noted.dice).1]⟩) := rfl

end Noted

namespace Casting

variable {δ η : Type} [DieSource δ] [SpellHandler η] (strictness : Strictness) (code : Code)
  (caller : Caller)

/-- The bytes that are drawn for the gate of a code: one if it is marked. -/
def gateDraws (dice : δ) : List UInt8 :=
  if (Spell.ofCode code).rollAgain = true then [(DieSource.roll dice).1] else []

/-- A code is cast with noted dice as with the dice inside, and the draw for its gate is written
down. -/
theorem castCode_noted (noted : Noted δ) (handler : η) :
    castCode strictness code caller noted handler =
      ((castCode strictness code caller noted.dice handler).1,
        ⟨(castCode strictness code caller noted.dice handler).2.1,
          noted.given ++ gateDraws code noted.dice⟩,
        (castCode strictness code caller noted.dice handler).2.2) := by
  have hface : gateFace noted = gateFace noted.dice := rfl
  unfold gateDraws
  cases hgated : (Spell.ofCode code).rollAgain with
  | false =>
    rw [castCode_of_plain _ _ hgated, castCode_of_plain _ _ hgated, if_neg Bool.false_ne_true,
      List.append_nil]
  | true =>
    rw [if_pos rfl]
    by_cases hodd : gateFace noted.dice % 2 = 1
    · rw [castCode_of_odd _ _ hgated (hface ▸ hodd), castCode_of_odd _ _ hgated hodd,
        Noted.roll_eq, hface]
    · rw [castCode_of_even _ _ hgated (hface ▸ hodd), castCode_of_even _ _ hgated hodd,
        Noted.roll_eq, hface]

/-- The bytes that are drawn while a code is cast. -/
def drawn (dice : δ) (handler : η) : List UInt8 :=
  (castCode strictness code caller (⟨dice, []⟩ : Noted δ) handler).2.1.given

/-- The only byte that is drawn is that for the gate. -/
theorem drawn_eq (dice : δ) (handler : η) :
    drawn strictness code caller dice handler = gateDraws code dice := by
  rw [drawn, castCode_noted, List.nil_append]

end Casting

/-- Outcomes that have no place for the face of a gate. -/
def Outcome.HidesGate (outcome : Outcome) : Prop :=
  (∃ base, outcome = .unknownBase base) ∨ ∃ base fault, outcome = .rejected base fault

/-- However a spell goes, the face of its gate is reported if the outcome has a place for it. -/
theorem Goes.gateFace?_eq_some_iff {strictness : Strictness} {spell : Spell} {face : UInt8}
    {outcome : Outcome} (hgoes : Goes strictness spell face outcome) (shown : UInt8) :
    outcome.gateFace? = some shown ↔
      (spell.rollAgain = true ∧ face = shown) ∧ ¬outcome.HidesGate := by
  cases hgoes with
  | fizzled stopped =>
    have hplace : ¬(Outcome.fizzled face).HidesGate := by simp [Outcome.HidesGate]
    simp only [Outcome.gateFace?, Option.some.injEq, stopped.1, true_and, hplace, not_false_eq_true,
      and_true]
  | unknownBase _ _ =>
    have hhides : (Outcome.unknownBase spell.base).HidesGate := .inl ⟨spell.base, rfl⟩
    simp only [Outcome.gateFace?, reduceCtorEq, hhides, not_true_eq_false, and_false]
  | @rejected base fault _ _ _ _ =>
    have hhides : (Outcome.rejected base fault).HidesGate := .inr ⟨base, fault, rfl⟩
    simp only [Outcome.gateFace?, reduceCtorEq, hhides, not_true_eq_false, and_false]
  | @cast base arguments _ _ _ _ =>
    have hplace (gate : Option UInt8) : ¬(Outcome.cast base arguments gate).HidesGate := by
      simp [Outcome.HidesGate]
    simp only [Outcome.gateFace?, Option.ite_none_right_eq_some, Option.some.injEq, hplace,
      not_false_eq_true, and_true]

namespace Casting

variable {δ η : Type} [DieSource δ] [SpellHandler η] (strictness : Strictness) (code : Code)
  (caller : Caller)

/-- What a casting reports of its gate is what it drew: the outcome tells a face exactly if one byte
was drawn, the face is that of the byte, and the outcome has a place for it. No byte is drawn but
for the gate of a marked code, whatever the dice and whoever carries spells out. -/
theorem gateFace?_castCode (dice : δ) (handler : η) :
    drawn strictness code caller dice handler = gateDraws code dice ∧
      let outcome := (castCode strictness code caller dice handler).1
      ∀ face, outcome.gateFace? = some face ↔
        (∃ roll, drawn strictness code caller dice handler = [roll] ∧ Die.clamp roll = face) ∧
          ¬outcome.HidesGate := by
  have hdraws := drawn_eq strictness code caller dice handler
  refine ⟨hdraws, ?_⟩
  intro outcome face
  have hgoes : Goes strictness (Spell.ofCode code) (gateFace dice) outcome :=
    (castCode_eq_iff_goes strictness code caller dice handler outcome).mp rfl
  have hshown : (∃ roll, drawn strictness code caller dice handler = [roll] ∧
      Die.clamp roll = face) ↔ (Spell.ofCode code).rollAgain = true ∧ gateFace dice = face := by
    rw [hdraws, gateDraws]
    cases hgated : (Spell.ofCode code).rollAgain with
    | false => simp
    | true => simp [gateFace]
  rw [hgoes.gateFace?_eq_some_iff, hshown]

/-- A draw is not always reported: a marked code whose base is in no catalog draws a die, and an
even face is lost with it. -/
theorem not_forall_gateFace?_castCode :
    ¬∀ (strictness : Strictness) (code : Code) (caller : Caller) (dice : ScriptedDice)
        (journal : Journal) (face : UInt8),
      (castCode strictness code caller dice journal).1.gateFace? = some face ↔
        ∃ roll, drawn strictness code caller dice journal = [roll] ∧ Die.clamp roll = face := by
  intro hreported
  have hdrawn : drawn .lenient ⟨"RAXYZ"⟩ ⟨.player, none⟩ (ScriptedDice.ofRolls [2])
      Journal.empty = [2] := by
    decide
  have hlost : (castCode .lenient ⟨"RAXYZ"⟩ ⟨.player, none⟩ (ScriptedDice.ofRolls [2])
      Journal.empty).1.gateFace? = none := by
    decide
  have htold := (hreported .lenient ⟨"RAXYZ"⟩ ⟨.player, none⟩ (ScriptedDice.ofRolls [2])
    Journal.empty 2).mpr ⟨2, hdrawn, by decide⟩
  rw [hlost] at htold
  cases htold

end Casting

end DiceDuel
