import DiceDuel.Proofs.Casting.Draws
import DiceDuel.Proofs.Die.Script

/-!
# Casting one code after another

A series of codes is cast with the same dice and the same handler of spells. Which die a marked code
gets depends only on how many marked codes came before it, and what it does with that die depends on
nothing that came before. So the outcome at a place, the draws and the journal of a whole series can
be told from its codes, its callers and the script of the dice.
-/

namespace DiceDuel.Casting

open ScriptedDice

variable {δ η : Type} [DieSource δ] [SpellHandler η] (strictness : Strictness)

/-- Casts codes one after another, each with what the one before it left of the dice and the
handler. -/
def castAll : List (Code × Caller) → δ → η → List Outcome × δ × η
  | [], dice, handler => ([], dice, handler)
  | (code, caller) :: rest, dice, handler =>
    let (outcome, dice, handler) := castCode strictness code caller dice handler
    let (outcomes, dice, handler) := castAll rest dice handler
    (outcome :: outcomes, dice, handler)

/-- A series is its first casting and then the others. -/
theorem castAll_cons (code : Code) (caller : Caller) (rest : List (Code × Caller)) (dice : δ)
    (handler : η) :
    castAll strictness ((code, caller) :: rest) dice handler =
      let first := castCode strictness code caller dice handler
      let others := castAll strictness rest first.2.1 first.2.2
      (first.1 :: others.1, others.2) := rfl

/-- How many of some codes are marked. -/
def marked (items : List (Code × Caller)) : Nat :=
  items.countP fun item => (Spell.ofCode item.1).rollAgain

/-- One more code in front counts if it is marked. -/
theorem marked_cons (code : Code) (caller : Caller) (rest : List (Code × Caller)) :
    marked ((code, caller) :: rest) =
      (if (Spell.ofCode code).rollAgain = true then 1 else 0) + marked rest := by
  rw [marked, List.countP_cons, Nat.add_comm]
  rfl

/-- There is one outcome for each code. -/
theorem length_castAll (items : List (Code × Caller)) (dice : δ) (handler : η) :
    (castAll strictness items dice handler).1.length = items.length := by
  induction items generalizing dice handler with
  | nil => rfl
  | cons item rest ih =>
    obtain ⟨code, caller⟩ := item
    rw [castAll_cons, List.length_cons, List.length_cons, ih]

/-- A journal grows by the castings that the outcomes tell of, in their order. -/
theorem castings_castAll (items : List (Code × Caller)) (dice : δ) (journal : Journal) :
    (castAll strictness items dice journal).2.2.castings = journal.castings ++
      (items.zip (castAll strictness items dice journal).1).filterMap
        fun entry => entry.2.casting? entry.1.2 := by
  induction items generalizing dice journal with
  | nil => exact (List.append_nil _).symm
  | cons item rest ih =>
    obtain ⟨code, caller⟩ := item
    rw [castAll_cons]
    dsimp only
    rw [ih, castings_castCode, List.append_assoc, List.zip_cons_cons, List.filterMap_cons]
    cases (castCode strictness code caller dice journal).1.casting? caller <;> rfl

section Scripted

variable (rolls : List UInt8)

/-- A marked code takes the next draw of a script, and any other code takes none. -/
theorem dice_castCode_afterDraws (code : Code) (caller : Caller) (before : Nat) (handler : η) :
    (castCode strictness code caller (afterDraws rolls before) handler).2.1 =
      afterDraws rolls (before + if (Spell.ofCode code).rollAgain = true then 1 else 0) := by
  rw [castCode_dice]
  cases (Spell.ofCode code).rollAgain with
  | false => rw [if_neg Bool.false_ne_true, if_neg Bool.false_ne_true, Nat.add_zero]
  | true => rfl

/-- The draw for the gate of a marked code is the next one of the script. -/
theorem gateDraws_afterDraws (code : Code) (before : Nat) :
    gateDraws code (afterDraws rolls before) =
      (List.range' before (if (Spell.ofCode code).rollAgain = true then 1 else 0)).map
        (answerAt rolls) := by
  unfold gateDraws
  cases (Spell.ofCode code).rollAgain with
  | false => rfl
  | true =>
    rw [if_pos rfl, if_pos rfl, List.range'_one, List.map_singleton, ← roll_afterDraws]
    rfl

/-- The face at a gate is that of the next draw of the script. -/
theorem gateFace_afterDraws (before : Nat) :
    gateFace (afterDraws rolls before) = Die.clamp (answerAt rolls before) := by
  rw [← roll_afterDraws]
  rfl

/-- A series moves a script on by one draw for each marked code. -/
theorem dice_castAll (items : List (Code × Caller)) (before : Nat) (handler : η) :
    (castAll strictness items (afterDraws rolls before) handler).2.1 =
      afterDraws rolls (before + marked items) := by
  induction items generalizing before handler with
  | nil => rfl
  | cons item rest ih =>
    obtain ⟨code, caller⟩ := item
    rw [castAll_cons]
    dsimp only
    rw [dice_castCode_afterDraws, ih, marked_cons, Nat.add_assoc]

/-- With noted dice a series goes as with the script itself, and the draws that are written down are
the next ones of the script, one for each marked code. -/
theorem castAll_noted (items : List (Code × Caller)) (before : Nat) (given : List UInt8)
    (handler : η) :
    let plain := castAll strictness items (afterDraws rolls before) handler
    castAll strictness items (⟨afterDraws rolls before, given⟩ : Noted ScriptedDice) handler =
      (plain.1,
        ⟨plain.2.1, given ++ (List.range' before (marked items)).map (answerAt rolls)⟩,
        plain.2.2) := by
  induction items generalizing before given handler with
  | nil =>
    change _ = ([], Noted.mk (afterDraws rolls before) (given ++ []), handler)
    rw [List.append_nil]
    rfl
  | cons item rest ih =>
    obtain ⟨code, caller⟩ := item
    have hdraws := gateDraws_afterDraws rolls code before
    have hdice := dice_castCode_afterDraws strictness rolls code caller before handler
    dsimp only
    rw [castAll_cons, castAll_cons, castCode_noted]
    dsimp only
    rw [hdice, ih, hdraws, List.append_assoc, ← List.map_append, List.range'_append_1,
      ← marked_cons code caller rest]

/-- The outcome at a place of a series is the one way that its code can go with the draw whose
number is that of the marked codes before it. -/
theorem getElem?_castAll (items : List (Code × Caller)) (before : Nat) (handler : η) (i : Nat)
    (hi : i < items.length) (outcome : Outcome) :
    (castAll strictness items (afterDraws rolls before) handler).1[i]? = some outcome ↔
      Goes strictness (Spell.ofCode items[i].1)
        (Die.clamp (answerAt rolls (before + marked (items.take i)))) outcome := by
  induction items generalizing before handler i with
  | nil => exact absurd hi (Nat.not_lt_zero i)
  | cons item rest ih =>
    obtain ⟨code, caller⟩ := item
    rw [castAll_cons]
    cases i with
    | zero =>
      rw [List.getElem?_cons_zero, Option.some_inj, castCode_eq_iff_goes, gateFace_afterDraws]
      rfl
    | succ i =>
      dsimp only
      rw [List.getElem?_cons_succ, dice_castCode_afterDraws,
        ih _ _ i (Nat.lt_of_succ_lt_succ hi), List.take_succ_cons, marked_cons, Nat.add_assoc]
      rfl

/-- A series of codes that is cast with a script from its start and an empty journal. One die is
drawn for each marked code, and the draws are those of the script round and round, or ones from an
empty script. The outcome at a place is the one way that its code can go with its draw, and the
journal holds the castings that the outcomes tell of and no others, each with its own caller. -/
theorem castAll_script (items : List (Code × Caller)) :
    let draw (before : Nat) : UInt8 := rolls[before % rolls.length]?.getD 1
    let (outcomes, dice, journal) := castAll strictness items (ofRolls rolls) Journal.empty
    dice.draws = marked items ∧
      castAll strictness items (⟨ofRolls rolls, []⟩ : Noted ScriptedDice) Journal.empty =
        (outcomes, ⟨dice, (List.range (marked items)).map draw⟩, journal) ∧
      outcomes.length = items.length ∧
      (∀ i (hi : i < items.length) outcome, outcomes[i]? = some outcome ↔
        Goes strictness (Spell.ofCode items[i].1) (Die.clamp (draw (marked (items.take i))))
          outcome) ∧
      journal.castings =
        (items.zip outcomes).filterMap fun entry => entry.2.casting? entry.1.2 := by
  intro draw
  have hdice := dice_castAll strictness rolls items 0 Journal.empty
  have hnoted := castAll_noted strictness rolls items 0 [] Journal.empty
  have hlength := length_castAll strictness items (ofRolls rolls) Journal.empty
  have houtcome := getElem?_castAll strictness rolls items 0 Journal.empty
  have hjournal := castings_castAll strictness items (ofRolls rolls) Journal.empty
  refine ⟨?_, ?_, hlength, ?_, hjournal⟩
  · rw [show ofRolls rolls = afterDraws rolls 0 from rfl, hdice, draws_afterDraws, Nat.zero_add]
  · rw [List.range_eq_range']
    exact hnoted
  · intro i hi outcome
    have hplace := houtcome i hi outcome
    rw [Nat.zero_add] at hplace
    exact hplace

end Scripted

end DiceDuel.Casting
