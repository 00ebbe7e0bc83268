import DiceDuel.Proofs.Casting.Effects
import DiceDuel.Proofs.Casting.Strictness
import DiceDuel.Proofs.Spell.Writing

/-!
# Casting what was drafted

A code that was written from a draft is cast with the draft's own base and scaling and with what
the trimmed values resolve to. Only the gate of a marked draft can stop it, and a fault in a value
if faults are not allowed.
-/

namespace DiceDuel

/-! ## Arguments from inputs -/

/-- Whether an input is a class, which is a text and is not resolved. -/
def Slot.isClass (slot : Slot) : Bool := slot.key = "buff_class" ∨ slot.key = "charge_class"

/-- The arguments of a family from the values of its inputs. -/
def Params.ofInputs (scaling : Scaling) (input? : String → Option String) : Family → Params
  | .amount => .amount (Value.ofToken? scaling (input? "amount"))
  | .duration => .duration (Value.ofToken? scaling (input? "duration"))
  | .confuse => .confuse (Value.ofToken? scaling (input? "marked_slots"))
      (Value.ofToken? scaling (input? "damage_amount"))
  | .buff => .buff (Value.ofToken? scaling (input? "buff_amount"))
      (Value.ofToken? scaling (input? "duration")) (Value.ofToken? scaling (input? "target_tier"))
      (input? "buff_class")
  | .charge => .charge (Value.ofToken? scaling (input? "charge_amount"))
      (Value.ofToken? scaling (input? "target_tier")) (input? "charge_class")
  | .diceTrigger => .diceTrigger

namespace Arguments

variable {strictness : Strictness}

/-- A family takes its arguments from a spell as from the values of its inputs, if the spell has
those values where the inputs say, no token M, and every token resolves. -/
theorem ofFamily_of_inputs {spell : Spell} {family : Family} {input? : String → Option String}
    (hfirst : ∀ slot ∈ family.slots, slot.letter = none → spell.first = input? slot.key)
    (htoken : ∀ slot ∈ family.slots, ∀ letter, slot.letter = some letter →
      spell.token? letter = input? slot.key)
    (hmarked : spell.token? 'M' = none)
    (hresolve : ∀ slot ∈ family.slots, slot.isClass = false →
      resolve strictness spell.scaling (input? slot.key) =
        .ok (Value.ofToken? spell.scaling (input? slot.key))) :
    ofFamily strictness spell family = .ok (.ofInputs spell.scaling input? family) := by
  unfold ofFamily
  cases family with
  | amount =>
    dsimp only
    rw [hfirst ⟨"amount", none⟩ (by decide) rfl, hresolve ⟨"amount", none⟩ (by decide) rfl]
    rfl
  | duration =>
    dsimp only
    rw [hfirst ⟨"duration", none⟩ (by decide) rfl, hresolve ⟨"duration", none⟩ (by decide) rfl]
    rfl
  | confuse =>
    dsimp only
    rw [hfirst ⟨"marked_slots", none⟩ (by decide) rfl,
      htoken ⟨"damage_amount", some 'D'⟩ (by decide) 'D' rfl, hmarked,
      hresolve ⟨"marked_slots", none⟩ (by decide) rfl,
      hresolve ⟨"damage_amount", some 'D'⟩ (by decide) rfl]
    -- Without a token M a leading one that gives no slots leaves them out.
    rw [Params.ofInputs]
    cases Value.ofToken? spell.scaling (input? "marked_slots") <;> rfl
  | buff =>
    dsimp only
    rw [hfirst ⟨"buff_amount", none⟩ (by decide) rfl,
      htoken ⟨"duration", some 'D'⟩ (by decide) 'D' rfl,
      htoken ⟨"target_tier", some 'T'⟩ (by decide) 'T' rfl,
      htoken ⟨"buff_class", some 'C'⟩ (by decide) 'C' rfl,
      hresolve ⟨"buff_amount", none⟩ (by decide) rfl,
      hresolve ⟨"duration", some 'D'⟩ (by decide) rfl,
      hresolve ⟨"target_tier", some 'T'⟩ (by decide) rfl]
    rfl
  | charge =>
    dsimp only
    rw [hfirst ⟨"charge_amount", none⟩ (by decide) rfl,
      htoken ⟨"target_tier", some 'T'⟩ (by decide) 'T' rfl,
      htoken ⟨"charge_class", some 'C'⟩ (by decide) 'C' rfl,
      hresolve ⟨"charge_amount", none⟩ (by decide) rfl,
      hresolve ⟨"target_tier", some 'T'⟩ (by decide) rfl]
    rfl
  | diceTrigger => rfl

/-- A spell with everything of a draft gets its arguments from the inputs. -/
theorem ofSpell_of_hasDraft (strictness : Strictness) {draft : Draft} {spell : Spell}
    (h : spell.HasDraft draft)
    (hresolve : ∀ slot ∈ draft.base.slots, slot.isClass = false →
      resolve strictness spell.scaling (draft.input? slot.key) =
        .ok (Value.ofToken? spell.scaling (draft.input? slot.key))) :
    ofSpell strictness draft.base spell =
      .ok ⟨spell.scaling, .ofInputs spell.scaling draft.input? draft.base.family⟩ := by
  have hleading : ∀ slot ∈ draft.base.slots, slot.letter = none →
      spell.first = draft.input? slot.key := by
    intro slot hslot hletter
    rw [h.first, ← hletter, Draft.inputAt?_letter hslot]
  have hlettered : ∀ slot ∈ draft.base.slots, ∀ letter, slot.letter = some letter →
      spell.token? letter = draft.input? slot.key := by
    intro slot hslot letter hletter
    rw [h.token, ← hletter, Draft.inputAt?_letter hslot]
  have hmarked : spell.token? 'M' = none := by
    have hnone : draft.base.slots.find? (fun slot => slot.letter = some 'M') = none := by
      unfold Base.slots
      cases draft.base.family <;> decide
    rw [h.token, Draft.inputAt?, hnone, Option.bind_none]
  rw [ofSpell, ofFamily_of_inputs hleading hlettered hmarked hresolve]
  rfl

end Arguments

/-! ## Values supplied one after the other -/

namespace Draft

/-- A draft with values for keys, where a later value replaces an earlier one. -/
def withValues (draft : Draft) (entries : List (String × String)) : Draft :=
  entries.foldl (fun draft entry => draft.withValue entry.1 entry.2) draft

/-- Values are all that is supplied with them. -/
theorem withValues_eq (draft : Draft) (entries : List (String × String)) :
    draft.withValues entries =
      { draft with
        values := entries.foldl (fun t entry => t.insert entry.1 entry.2) draft.values } := by
  induction entries generalizing draft with
  | nil => rfl
  | cons entry rest ih => exact ih (draft.withValue entry.1 entry.2)

/-- A draft of a base with values, a scaling and a mark. -/
def ofParts (base : Base) (entries : List (String × String)) (tier level rate : UInt8)
    (mark : Bool) : Draft :=
  ((({ base } : Draft).withValues entries).withScaling tier level rate).withRollAgain mark

variable (base : Base) (entries : List (String × String)) (tier level rate : UInt8) (mark : Bool)

/-- The parts of a draft. -/
theorem ofParts_eq : ofParts base entries tier level rate mark =
    { base
      values := entries.foldl (fun t entry => t.insert entry.1 entry.2) .empty
      scaling := some (tier, level, rate)
      rollAgain := mark } := by
  rw [ofParts, withValues_eq]
  rfl

/-- The input of a key is the last value that was supplied for it, trimmed. -/
theorem input?_ofParts (key : String) : (ofParts base entries tier level rate mark).input? key =
    (entries.reverse.lookup key).map Text.trim := by
  rw [ofParts_eq, input?, HashTable.get?_foldl_insert, HashTable.get?_empty, Option.or_none]

end Draft

/-! ## Casting the code of a draft -/

namespace Casting

variable {δ η : Type} [DieSource δ] [SpellHandler η]

/-- The code of a draft is cast with what was put into the draft. Each input has a value, and what
it resolves to is the argument of its family, while a class is the value itself. Leniently only the
gate of a mark stops it, and so it is strictly if every value but that of a class resolves. -/
theorem castCode_of_write {base : Base} (hbase : base ∈ Base.all)
    {entries : List (String × String)} {tier level rate : UInt8} {mark : Bool} {code : Code}
    (hwrite : (Draft.ofParts base entries tier level rate mark).write = .ok code) (caller : Caller)
    (dice : δ) (handler : η) :
    let input? (key : String) : Option String := (entries.reverse.lookup key).map Text.trim
    let scaling := Scaling.of tier level rate
    let outcome : Outcome :=
      if mark = true ∧ gateFace dice % 2 = 1 then .fizzled (gateFace dice)
      else .cast base ⟨scaling, .ofInputs scaling input? base.family⟩
        (if mark then some (gateFace dice) else none)
    (∀ slot ∈ base.slots, (input? slot.key).isSome = true) ∧
      (castCode .lenient code caller dice handler).1 = outcome ∧
      ((∀ slot ∈ base.slots, slot.isClass = false →
          (Value.ofToken? scaling (input? slot.key)).isSome = true) →
        (castCode .strict code caller dice handler).1 = outcome) := by
  intro input? scaling outcome
  have hinput : (Draft.ofParts base entries tier level rate mark).input? = input? :=
    funext (Draft.input?_ofParts base entries tier level rate mark)
  have hmem : (Draft.ofParts base entries tier level rate mark).base ∈ Base.all := by
    rwa [Draft.ofParts_eq]
  have hread := Draft.ofCode_of_write hmem hwrite
  have hinputs := hread.inputs
  have hmark := hread.rollAgain
  have hscaling : (Spell.ofCode code).scaling = scaling := by
    have hdigits := hread.scaling
    rw [Draft.ofParts_eq] at hdigits
    exact (Option.some.inj hdigits).symm
  have hknown : (Spell.ofCode code).knownBase? = some base := by
    rw [Spell.knownBase?, hread.base, Draft.ofParts_eq]
    exact Base.ofCode?_code hbase
  have harguments (strictness : Strictness) := Arguments.ofSpell_of_hasDraft strictness hread
  rw [hinput] at hinputs harguments
  simp only [Draft.ofParts_eq] at hinputs hmark harguments
  have houtcome {strictness : Strictness}
      (hresolve : ∀ slot ∈ base.slots, slot.isClass = false →
        Arguments.resolve strictness scaling (input? slot.key) =
          .ok (Value.ofToken? scaling (input? slot.key))) :
      (castCode strictness code caller dice handler).1 = outcome := by
    have hresolved := harguments strictness (by rwa [hscaling])
    rw [castCode_of_ofSpell _ _ hknown hresolved, hmark, hscaling]
  refine ⟨hinputs, houtcome fun slot _ _ => Arguments.resolve_lenient _ _, fun hsome => ?_⟩
  exact houtcome fun slot hslot hclass => Arguments.resolve_of_isSome (hsome slot hslot hclass)

/-- A marked buff with one value replaced, blanks around others and a class that looks like the end
of a code is cast at an even face, with its class as it was put in. -/
theorem castCode_of_write_buff :
    let base : Base := .buff .attack .left
    let entries := [("duration", "R"), ("buff_amount", " R2 "), ("duration", "2"),
      ("target_tier", "max(2)"), ("buff_class", "\tT\x7bmage-123 ")]
    let code : Code := ⟨"RABAL\x7bR2\x7dD\x7b2\x7dT\x7bmax(2)\x7dC\x7bT\x7bmage-123\x7d-241"⟩
    let dice := ScriptedDice.ofRolls [4]
    let input? (key : String) : Option String := (entries.reverse.lookup key).map Text.trim
    let outcome : Outcome := .cast base ⟨.of 2 4 1, .ofInputs (.of 2 4 1) input? .buff⟩ (some 4)
    (Draft.ofParts base entries 2 4 1 true).write = .ok code ∧
      input? "buff_class" = some "T\x7bmage-123" ∧
      (castCode .lenient code ⟨.player, none⟩ dice Journal.empty).1 = outcome ∧
      (castCode .strict code ⟨.player, none⟩ dice Journal.empty).1 = outcome := by
  intro base entries code dice input? outcome
  have hbase : base ∈ Base.all := by decide
  have hwrite : (Draft.ofParts base entries 2 4 1 true).write = .ok code := by decide
  have heven : ¬(true = true ∧ gateFace dice % 2 = 1) := by decide
  obtain ⟨-, hlenient, hstrict⟩ :=
    castCode_of_write hbase hwrite ⟨.player, none⟩ dice Journal.empty
  rw [if_neg heven] at hlenient hstrict
  have hresolve : ∀ slot ∈ base.slots, slot.isClass = false →
      (Value.ofToken? (.of 2 4 1) (input? slot.key)).isSome = true := by decide
  exact ⟨hwrite, by decide, hlenient, hstrict hresolve⟩

end Casting

end DiceDuel
