import DiceDuel.Casting.Outcome

/-!
# What casting a code does

A code without a mark is handed over and draws no die. A marked one draws exactly one die, and is
handed over if its face is even. What carries spells out has no say in how a casting goes, and it is
used exactly when the outcome says so. All of this holds for any dice and any handler of spells.
-/

namespace DiceDuel

/-- The casting that was handed over, if the outcome tells of one. -/
def Outcome.casting? (caller : Caller) : Outcome → Option Casting
  | .cast base arguments _ => some ⟨base, arguments, caller⟩
  | .fizzled _ | .unknownBase _ | .rejected .. => none

namespace Casting

variable {δ η θ : Type} [SpellHandler η] [SpellHandler θ] (strictness : Strictness)
  (caller : Caller)

/-- Whoever carries spells out, the outcome is the same. -/
theorem handOver_fst_eq (spell : Spell) (gate : Option UInt8) (handler : η) (other : θ) :
    (handOver strictness spell caller gate handler).1 =
      (handOver strictness spell caller gate other).1 := by
  unfold handOver
  cases spell.knownBase? with
  | none => rfl
  | some base =>
    dsimp only
    cases Arguments.ofSpell strictness base spell with
    | error fault => rfl
    | ok arguments => rfl

/-- A spell is carried out exactly if the outcome tells of its casting. -/
theorem handOver_snd (spell : Spell) (gate : Option UInt8) (handler : η) :
    (handOver strictness spell caller gate handler).2 =
      ((handOver strictness spell caller gate handler).1.casting? caller).elim handler
        (SpellHandler.carryOut handler) := by
  unfold handOver
  cases spell.knownBase? with
  | none => rfl
  | some base =>
    dsimp only
    cases Arguments.ofSpell strictness base spell with
    | error fault => rfl
    | ok arguments => rfl

variable [DieSource δ]

/-- The face that a gate shows with some dice. -/
def gateFace (dice : δ) : UInt8 := Die.clamp (DieSource.roll dice).1

variable {code : Code}

/-- A code without a mark is handed over. -/
theorem castCode_of_plain (hplain : (Spell.ofCode code).rollAgain = false) (dice : δ)
    (handler : η) :
    castCode strictness code caller dice handler =
      ((handOver strictness (Spell.ofCode code) caller none handler).1, dice,
        (handOver strictness (Spell.ofCode code) caller none handler).2) := by
  unfold castCode
  dsimp only
  rw [hplain]
  rfl

/-- A marked code fizzles at an odd face. -/
theorem castCode_of_odd (hgated : (Spell.ofCode code).rollAgain = true) {dice : δ}
    (hodd : gateFace dice % 2 = 1) (handler : η) :
    castCode strictness code caller dice handler =
      (.fizzled (gateFace dice), (DieSource.roll dice).2, handler) := by
  have hdraw : Verdict.draw dice = (.cancel (gateFace dice), (DieSource.roll dice).2) :=
    congrArg (·, (DieSource.roll dice).2) (if_pos hodd)
  unfold castCode
  dsimp only
  rw [if_pos hgated, hdraw]

/-- A marked code is handed over at an even face. -/
theorem castCode_of_even (hgated : (Spell.ofCode code).rollAgain = true) {dice : δ}
    (heven : ¬gateFace dice % 2 = 1) (handler : η) :
    castCode strictness code caller dice handler =
      ((handOver strictness (Spell.ofCode code) caller (some (gateFace dice)) handler).1,
        (DieSource.roll dice).2,
        (handOver strictness (Spell.ofCode code) caller (some (gateFace dice)) handler).2) := by
  have hdraw : Verdict.draw dice = (.proceed (gateFace dice), (DieSource.roll dice).2) :=
    congrArg (·, (DieSource.roll dice).2) (if_neg heven)
  unfold castCode
  dsimp only
  rw [if_pos hgated, hdraw]

/-- A code of a known base whose arguments resolve is stopped by its gate alone. -/
theorem castCode_of_ofSpell {base : Base} {arguments : Arguments}
    (hbase : (Spell.ofCode code).knownBase? = some base)
    (harguments : Arguments.ofSpell strictness base (Spell.ofCode code) = .ok arguments)
    (dice : δ) (handler : η) :
    (castCode strictness code caller dice handler).1 =
      if (Spell.ofCode code).rollAgain = true ∧ gateFace dice % 2 = 1 then
        .fizzled (gateFace dice)
      else .cast base arguments
        (if (Spell.ofCode code).rollAgain then some (gateFace dice) else none) := by
  have hover (gate : Option UInt8) :
      (handOver strictness (Spell.ofCode code) caller gate handler).1 =
        .cast base arguments gate := by
    unfold handOver
    simp only [hbase, harguments]
  cases hgated : (Spell.ofCode code).rollAgain with
  | false =>
    rw [castCode_of_plain _ _ hgated, hover]
    rfl
  | true =>
    by_cases hodd : gateFace dice % 2 = 1
    · rw [castCode_of_odd _ _ hgated hodd, if_pos ⟨rfl, hodd⟩]
    · rw [castCode_of_even _ _ hgated hodd, hover, if_neg fun h => hodd h.2, if_pos rfl]

variable (code)

/-- Whoever carries spells out, a code is cast with the same outcome. -/
theorem castCode_fst_eq (dice : δ) (handler : η) (other : θ) :
    (castCode strictness code caller dice handler).1 =
      (castCode strictness code caller dice other).1 := by
  cases hgated : (Spell.ofCode code).rollAgain with
  | false =>
    rw [castCode_of_plain _ _ hgated, castCode_of_plain _ _ hgated]
    exact handOver_fst_eq strictness caller _ _ handler other
  | true =>
    by_cases hodd : gateFace dice % 2 = 1
    · rw [castCode_of_odd _ _ hgated hodd, castCode_of_odd _ _ hgated hodd]
    · rw [castCode_of_even _ _ hgated hodd, castCode_of_even _ _ hgated hodd]
      exact handOver_fst_eq strictness caller _ _ handler other

/-- One die is drawn for a marked code and none for any other. -/
theorem castCode_dice (dice : δ) (handler : η) :
    (castCode strictness code caller dice handler).2.1 =
      if (Spell.ofCode code).rollAgain then (DieSource.roll dice).2 else dice := by
  cases hgated : (Spell.ofCode code).rollAgain with
  | false => rw [castCode_of_plain _ _ hgated, if_neg Bool.false_ne_true]
  | true =>
    rw [if_pos rfl]
    by_cases hodd : gateFace dice % 2 = 1
    · rw [castCode_of_odd _ _ hgated hodd]
    · rw [castCode_of_even _ _ hgated hodd]

/-- What carries spells out is used exactly if the outcome tells of a casting. -/
theorem castCode_handler (dice : δ) (handler : η) :
    (castCode strictness code caller dice handler).2.2 =
      ((castCode strictness code caller dice handler).1.casting? caller).elim handler
        (SpellHandler.carryOut handler) := by
  cases hgated : (Spell.ofCode code).rollAgain with
  | false =>
    rw [castCode_of_plain _ _ hgated]
    exact handOver_snd strictness caller _ _ handler
  | true =>
    by_cases hodd : gateFace dice % 2 = 1
    · rw [castCode_of_odd _ _ hgated hodd]
      rfl
    · rw [castCode_of_even _ _ hgated hodd]
      exact handOver_snd strictness caller _ _ handler

/-- A journal grows by the casting that the outcome tells of, and by nothing else. -/
theorem castings_castCode (dice : δ) (journal : Journal) :
    (castCode strictness code caller dice journal).2.2.castings =
      journal.castings
        ++ ((castCode strictness code caller dice journal).1.casting? caller).toList := by
  rw [castCode_handler]
  cases (castCode strictness code caller dice journal).1.casting? caller with
  | none => exact (List.append_nil _).symm
  | some casting => rfl

end Casting

end DiceDuel
