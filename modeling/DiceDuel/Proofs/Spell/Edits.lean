import DiceDuel.Proofs.SortedMap
import DiceDuel.Proofs.Spell.Writing

/-!
# Drafts, edit by edit

A draft is filled in by edits in any order and any number. Each part of it is what the last edit of
that part made it, and earlier ones leave no trace. If such a draft can be written, then the spell
that is read from its code has the base, the last scaling, the last mark and the last value for each
input, trimmed, and nothing else.
-/

namespace DiceDuel

namespace Draft

/-- One step in filling in a draft. -/
inductive Edit where
  /-- Supplies a value for a key, in place of any other. -/
  | value (key value : String)
  /-- Sets tier, level and progression rate. -/
  | scaling (tier level rate : UInt8)
  /-- Sets the roll-again mark or takes it away. -/
  | mark (enabled : Bool)
deriving DecidableEq

/-- A draft after one more edit. -/
def edited (draft : Draft) : Edit → Draft
  | .value key value => draft.withValue key value
  | .scaling tier level rate => draft.withScaling tier level rate
  | .mark enabled => draft.withRollAgain enabled

/-- The draft of a base after edits, the first edit first. -/
def ofEdits (base : Base) (edits : List Edit) : Draft := edits.foldl edited { base }

namespace Edit

/-- The value that an edit supplies for a key. -/
def value? (key : String) : Edit → Option String
  | .value other text => if other = key then some text else none
  | .scaling .. | .mark _ => none

/-- The scaling that an edit sets. -/
def scaling? : Edit → Option (UInt8 × UInt8 × UInt8)
  | .scaling tier level rate => some (tier, level, rate)
  | .value .. | .mark _ => none

/-- The mark that an edit sets. -/
def mark? : Edit → Option Bool
  | .mark enabled => some enabled
  | .value .. | .scaling .. => none

/-- The value that was supplied last for a key. -/
def lastValue? (edits : List Edit) (key : String) : Option String :=
  (edits.filterMap (value? key)).getLast?

/-- The scaling that was set last. -/
def lastScaling? (edits : List Edit) : Option (UInt8 × UInt8 × UInt8) :=
  (edits.filterMap scaling?).getLast?

/-- The mark that was set last. -/
def lastMark? (edits : List Edit) : Option Bool := (edits.filterMap mark?).getLast?

end Edit

/-! ## The last edit of each part -/

variable (base : Base) (edits : List Edit)

/-- A part of a draft that an edit either replaces or leaves alone is the last of its
replacements. -/
theorem part_foldl_edited {α : Type} (part : Draft → Option α) (replaced : Edit → Option α)
    (hpart : ∀ draft edit, part (edited draft edit) = (replaced edit).or (part draft))
    (draft : Draft) :
    part (edits.foldl edited draft) = (edits.filterMap replaced).getLast?.or (part draft) := by
  induction edits generalizing draft with
  | nil => rfl
  | cons edit rest ih =>
    rw [List.foldl_cons, ih, hpart]
    cases hedit : replaced edit with
    | none => rw [List.filterMap_cons_none hedit, Option.none_or]
    | some new =>
      rw [List.filterMap_cons_some hedit, List.getLast?_cons, Option.some_or, Option.some_or]
      cases (rest.filterMap replaced).getLast? <;> rfl

/-- Edits leave the base alone. -/
theorem base_foldl_edited (draft : Draft) : (edits.foldl edited draft).base = draft.base := by
  induction edits generalizing draft with
  | nil => rfl
  | cons edit rest ih =>
    rw [List.foldl_cons, ih]
    cases edit <;> rfl

/-- A draft that was filled in by edits has the base that it was made for. -/
theorem base_ofEdits : (ofEdits base edits).base = base := base_foldl_edited edits { base }

/-- A key has the value that was supplied last for it. -/
theorem get?_ofEdits (key : String) :
    (ofEdits base edits).values.get? key = Edit.lastValue? edits key := by
  have hvalue (draft : Draft) (edit : Edit) :
      (edited draft edit).values.get? key = (edit.value? key).or (draft.values.get? key) := by
    cases edit with
    | value other text =>
      rw [edited, withValue, HashTable.get?_insert, Edit.value?]
      by_cases hkey : other = key
      · rw [if_pos hkey, if_pos hkey.symm, Option.some_or]
      · rw [if_neg hkey, if_neg (Ne.symm hkey), Option.none_or]
    | scaling tier level rate => rw [edited, withScaling, Edit.value?, Option.none_or]
    | mark enabled => rw [edited, withRollAgain, Edit.value?, Option.none_or]
  have hlast := part_foldl_edited edits (fun draft => draft.values.get? key) (Edit.value? key)
    hvalue { base }
  have hempty : ({ base } : Draft).values.get? key = none := HashTable.get?_empty key
  rw [hempty, Option.or_none] at hlast
  exact hlast

/-- The scaling is the one that was set last. -/
theorem scaling_ofEdits : (ofEdits base edits).scaling = Edit.lastScaling? edits := by
  have hscaling (draft : Draft) (edit : Edit) :
      (edited draft edit).scaling = edit.scaling?.or draft.scaling := by
    cases edit <;> rfl
  have hlast := part_foldl_edited edits Draft.scaling Edit.scaling? hscaling { base }
  rwa [Option.or_none] at hlast

/-- The mark is the one that was set last; without such an edit there is none. -/
theorem rollAgain_ofEdits :
    (ofEdits base edits).rollAgain = (Edit.lastMark? edits).getD false := by
  have hmark (draft : Draft) (edit : Edit) :
      some (edited draft edit).rollAgain = edit.mark?.or (some draft.rollAgain) := by
    cases edit <;> rfl
  have hlast :=
    part_foldl_edited edits (fun draft => some draft.rollAgain) Edit.mark? hmark { base }
  rw [Option.or_some] at hlast
  exact Option.some.inj hlast

end Draft

/-! ## The spell of inputs -/

/-- The token of an input: its letter and the value of its key, if it has both. -/
def Slot.token? (input? : String → Option String) (slot : Slot) : Option (Char × String) :=
  slot.letter.bind fun letter => (input? slot.key).map fun value => (letter, value)

/-- The spell of a base with a value for each of its keys. The value of the input without a letter
is the leading token, and each other value is the token with the letter of its input. -/
def Spell.ofInputs (base : Base) (input? : String → Option String) (scaling : Scaling)
    (rollAgain : Bool) : Spell where
  base := base.code
  first := (base.slots.find? fun slot => slot.letter = none).bind fun slot => input? slot.key
  tokens := .ofList (base.slots.filterMap (Slot.token? input?))
  scaling := scaling
  rollAgain := rollAgain

/-- Among inputs with different letters, a letter has the value of its input. -/
theorem lookup_filterMap_slotToken? {slots : List Slot}
    (hdistinct : slots.Pairwise fun slot other => slot.letter ≠ other.letter)
    (input? : String → Option String) (letter : Char) :
    (slots.filterMap (Slot.token? input?)).reverse.lookup letter =
      (slots.find? fun slot => slot.letter = some letter).bind fun slot => input? slot.key := by
  induction slots with
  | nil => rfl
  | cons slot rest ih =>
    obtain ⟨hhead, hrest⟩ := List.pairwise_cons.mp hdistinct
    by_cases hletter : slot.letter = some letter
    · -- No later input has the letter, so only the value of this one is found.
      have hlater : rest.find? (fun other => other.letter = some letter) = none := by
        refine List.find?_eq_none.mpr fun other hmem hother => hhead other hmem ?_
        rw [hletter, of_decide_eq_true hother]
      have hnothing := ih hrest
      rw [hlater, Option.bind_none] at hnothing
      rw [List.find?_cons_of_pos (by simp [hletter]), Option.bind_some]
      cases hvalue : input? slot.key with
      | none =>
        have htoken : slot.token? input? = none := by simp [Slot.token?, hvalue]
        rw [List.filterMap_cons_none htoken, hnothing]
      | some value =>
        have htoken : slot.token? input? = some (letter, value) := by
          simp [Slot.token?, hletter, hvalue]
        rw [List.filterMap_cons_some htoken, List.reverse_cons, List.lookup_append, hnothing,
          Option.none_or, List.lookup_cons, beq_self_eq_true]
    · rw [List.find?_cons_of_neg (by simp [hletter]), ← ih hrest]
      cases htoken : slot.token? input? with
      | none => rw [List.filterMap_cons_none htoken]
      | some token =>
        have hother : letter ≠ token.1 := by
          rintro rfl
          obtain ⟨other, hslot, hvalue⟩ := Option.bind_eq_some_iff.mp htoken
          obtain ⟨value, -, rfl⟩ := Option.map_eq_some_iff.mp hvalue
          exact hletter hslot
        rw [List.filterMap_cons_some htoken, List.reverse_cons, List.lookup_append,
          List.lookup_cons, beq_false_of_ne hother, List.lookup_nil, Option.or_none]

/-- A spell with everything of a draft and nothing else is the spell of the inputs of the draft. -/
theorem Spell.HasDraft.eq_ofInputs {spell : Spell} {draft : Draft} (h : spell.HasDraft draft) :
    spell = .ofInputs draft.base draft.input? spell.scaling draft.rollAgain := by
  obtain ⟨-, -, hdistinct⟩ := draft.base.family.slots_letters
  change draft.base.slots.Pairwise _ at hdistinct
  have htokens : spell.tokens =
      .ofList (draft.base.slots.filterMap (Slot.token? draft.input?)) := by
    refine SortedMap.eq_of_get?_eq fun letter => ?_
    rw [SortedMap.get?_ofList, lookup_filterMap_slotToken? hdistinct]
    exact h.token letter
  have hbase := h.base
  have hfirst := h.first
  have hmark := h.rollAgain
  cases spell with
  | mk base first tokens scaling rollAgain =>
    dsimp only at hbase hfirst hmark htokens
    rw [hbase, hfirst, hmark, htokens]
    rfl

/-! ## Reading what was edited -/

namespace Draft

/-- If edits leave a draft that can be written, then its code is read as exactly the spell of the
base with the scaling and the mark that were set last and, for each input, the value that was
supplied last for its key, trimmed. The base is read as the base, a letter has the value of the
input with it, and no input is without a value. -/
theorem ofCode_of_edits {base : Base} (hbase : base ∈ Base.all) {edits : List Edit} {code : Code}
    (hwrite : (ofEdits base edits).write = .ok code) :
    let input? (key : String) : Option String := (Edit.lastValue? edits key).map Text.trim
    ∃ tier level rate, Edit.lastScaling? edits = some (tier, level, rate) ∧
      Spell.ofCode code =
        .ofInputs base input? (.of tier level rate) ((Edit.lastMark? edits).getD false) ∧
      (Spell.ofCode code).knownBase? = some base ∧
      (∀ letter, (Spell.ofCode code).token? letter =
        (base.slots.find? fun slot => slot.letter = some letter).bind fun slot =>
          input? slot.key) ∧
      ∀ slot ∈ base.slots, (input? slot.key).isSome = true := by
  intro input?
  have hmem : (ofEdits base edits).base ∈ Base.all := by rwa [base_ofEdits]
  have hread := ofCode_of_write hmem hwrite
  have hinput : (ofEdits base edits).input? = input? := by
    funext key
    rw [Draft.input?, get?_ofEdits]
  have hspell := hread.eq_ofInputs
  have hscaling := hread.scaling
  have hinputs := hread.inputs
  have htoken := hread.token
  unfold inputAt? at htoken
  rw [base_ofEdits, hinput, rollAgain_ofEdits] at hspell
  rw [scaling_ofEdits] at hscaling
  rw [base_ofEdits, hinput] at hinputs htoken
  obtain ⟨⟨tier, level, rate⟩, hlast, hdigits⟩ := Option.map_eq_some_iff.mp hscaling
  rw [← hdigits] at hspell
  refine ⟨tier, level, rate, hlast, hspell, ?_, htoken, hinputs⟩
  rw [hspell]
  exact Base.ofCode?_code hbase

/-- A charge with a value and a scaling set twice, a mark taken away again, and values that look
like a mark, a group and the end of a code is read with the last of each. -/
theorem ofCode_of_edits_charge :
    let base : Base := .charge .both .greater
    let edits : List Edit := [.mark true, .value "charge_amount" "R7", .scaling 9 9 9,
      .value "charge_class" "knight", .value "target_tier" "\tRA\x7b2-123 ",
      .value "charge_class" "D\x7bT", .scaling 3 1 5, .mark false]
    let code : Code := ⟨"CHG\x7bR7\x7dT\x7bRA\x7b2-123\x7dC\x7bD\x7bT\x7d-315"⟩
    let input? (key : String) : Option String := (Edit.lastValue? edits key).map Text.trim
    (ofEdits base edits).write = .ok code ∧
      Spell.ofCode code = .ofInputs base input? (.of 3 1 5) false ∧
      (Spell.ofCode code).knownBase? = some base ∧
      (Spell.ofCode code).token? 'C' = some "D\x7bT" := by
  intro base edits code input?
  have hbase : base ∈ Base.all := by decide
  have hwrite : (ofEdits base edits).write = .ok code := by decide
  obtain ⟨tier, level, rate, hscaling, hspell, hknown, -, -⟩ := ofCode_of_edits hbase hwrite
  have hdigits : (3, 1, 5) = (tier, level, rate) := Option.some.inj hscaling
  cases hdigits
  have hclass : (Spell.ofInputs base input? (.of 3 1 5) false).token? 'C' = some "D\x7bT" := by
    decide
  exact ⟨hwrite, hspell, hknown, (congrArg (·.token? 'C') hspell).trans hclass⟩

end Draft

end DiceDuel
