import DiceDuel.Proofs.Spell.Catalog
import DiceDuel.Proofs.Spell.Grammar
import DiceDuel.Spell.Draft
import Mathlib.Data.List.Nodup

/-!
# Codes of drafts

A draft that can be written has a value for each of its inputs, and its code has the layout that
one expects: mark, base, one chunk for each input and the digits of the scaling. Whatever texts the
values are, the spell that is read from the code has them where the inputs say, and nothing else.
-/

namespace DiceDuel

/-- From an end a list is searched like from the other if one entry at most is found. -/
theorem find?_reverse_of_pairwise {α : Type} {p : α → Bool} {l : List α}
    (hl : l.Pairwise fun a b => ¬(p a = true ∧ p b = true)) : l.reverse.find? p = l.find? p := by
  induction l with
  | nil => rfl
  | cons a rest ih =>
    obtain ⟨hhead, hrest⟩ := List.pairwise_cons.mp hl
    rw [List.reverse_cons, List.find?_append, ih hrest]
    by_cases ha : p a = true
    · have hnone : rest.find? p = none :=
        List.find?_eq_none.mpr fun b hb hfound => hhead b hb ⟨ha, hfound⟩
      rw [hnone, List.find?_cons_of_pos ha, List.find?_cons_of_pos ha, Option.none_or]
    · rw [List.find?_cons_of_neg ha, List.find?_cons_of_neg ha, List.find?_nil, Option.or_none]

namespace Draft

/-- The value of a key, trimmed. -/
def input? (draft : Draft) (key : String) : Option String :=
  (draft.values.get? key).map Text.trim

/-- The value of the input with a letter or, without a letter, of the leading one. -/
def inputAt? (draft : Draft) (letter : Option Char) : Option String :=
  (draft.base.slots.find? fun slot => slot.letter = letter).bind fun slot => draft.input? slot.key

/-- The characters of a value, trimmed; none without a value. -/
def inputChars (draft : Draft) (slot : Slot) : List Char :=
  Text.trimChars ((draft.values.get? slot.key).getD "").toList

/-- The chunk of an input. -/
def chunk (draft : Draft) (slot : Slot) : Chunk Char := ⟨slot.letter.toList, draft.inputChars slot⟩

/-- The layout of the code of a draft with a scaling. -/
def layout (draft : Draft) (tier level rate : UInt8) : Layout Char where
  mark := draft.rollAgain
  base := draft.base.letters
  chunks := draft.base.slots.map draft.chunk
  tail := []
  suffix := some (Nat.digitChar tier.toNat, Nat.digitChar level.toNat, Nat.digitChar rate.toNat)

/-! ## What is written -/

variable {draft : Draft}

/-- A value that can be written is not blank and has no closing brace, and it is written as the
chunk of its input. -/
theorem of_slotChars {slot : Slot} {cs : List Char} (hslot : draft.slotChars slot = .ok cs) :
    draft.input? slot.key = some (String.ofList (draft.inputChars slot)) ∧
      '}' ∉ draft.inputChars slot ∧ cs = (draft.chunk slot).text Signs.chars := by
  unfold slotChars at hslot
  split at hslot
  · cases hslot
  · rename_i hvalue
    split at hslot
    · cases hslot
    · rename_i hclosing
      have hthere : draft.input? slot.key = some (String.ofList (draft.inputChars slot)) := by
        unfold input? inputChars
        cases hget : draft.values.get? slot.key with
        | none =>
          rw [hget] at hvalue
          exact (hvalue rfl).elim
        | some value => rfl
      have hgroup : Spell.group (String.ofList (draft.inputChars slot)) =
          '{' :: (draft.inputChars slot ++ ['}']) := by
        rw [Spell.group, String.toList_ofList, List.cons_append]
      refine ⟨hthere, fun hmem => hclosing (List.contains_iff_mem.mpr hmem), ?_⟩
      rw [Chunk.text, chunk, ← Except.ok.inj hslot]
      exact congrArg (slot.letter.toList ++ ·) hgroup

/-- The inputs that can be written are written as their chunks, one behind the other. -/
theorem of_slotsChars {slots : List Slot} {cs : List Char}
    (hslots : draft.slotsChars slots = .ok cs) :
    (∀ slot ∈ slots, draft.input? slot.key = some (String.ofList (draft.inputChars slot)) ∧
      '}' ∉ draft.inputChars slot) ∧
      cs = (slots.map draft.chunk).flatMap (Chunk.text Signs.chars) := by
  induction slots generalizing cs with
  | nil =>
    cases hslots
    exact ⟨fun _ hmem => (List.not_mem_nil hmem).elim, rfl⟩
  | cons slot rest ih =>
    rw [slotsChars] at hslots
    cases hslot : draft.slotChars slot with
    | error fault =>
      rw [hslot] at hslots
      cases hslots
    | ok chars =>
      rw [hslot] at hslots
      cases hrest : draft.slotsChars rest with
      | error fault =>
        simp only [hrest] at hslots
        cases hslots
      | ok more =>
        simp only [hrest] at hslots
        cases hslots
        obtain ⟨hinput, hclosing, rfl⟩ := of_slotChars hslot
        obtain ⟨hothers, rfl⟩ := ih hrest
        exact ⟨List.forall_mem_cons.mpr ⟨⟨hinput, hclosing⟩, hothers⟩, rfl⟩

/-- Scaling values that all fit one digit. -/
theorem le_nine_of_wideField? {tier level rate : UInt8}
    (hnone : wideField? tier level rate = none) : tier ≤ 9 ∧ level ≤ 9 ∧ rate ≤ 9 := by
  unfold wideField? at hnone
  simpa using hnone

/-- A draft that can be written has everything that it needs, and its code has its layout. -/
theorem of_write {code : Code} (hwrite : draft.write = .ok code) :
    ∃ tier level rate : UInt8, draft.scaling = some (tier, level, rate) ∧
      (tier ≤ 9 ∧ level ≤ 9 ∧ rate ≤ 9) ∧
      (∀ slot ∈ draft.base.slots,
        draft.input? slot.key = some (String.ofList (draft.inputChars slot)) ∧
          '}' ∉ draft.inputChars slot) ∧
      code.text.toList = (draft.layout tier level rate).text Signs.chars := by
  unfold write at hwrite
  cases hkey : draft.unknownKey? with
  | some key =>
    rw [hkey] at hwrite
    cases hwrite
  | none =>
    cases hscaling : draft.scaling with
    | none =>
      rw [hkey, hscaling] at hwrite
      cases hwrite
    | some values =>
      obtain ⟨tier, level, rate⟩ := values
      rw [hkey, hscaling] at hwrite
      cases hwide : wideField? tier level rate with
      | some field =>
        simp only [hwide] at hwrite
        cases hwrite
      | none =>
        simp only [hwide] at hwrite
        cases hinputs : draft.slotsChars draft.base.slots with
        | error fault =>
          simp only [hinputs] at hwrite
          cases hwrite
        | ok inputs =>
          simp only [hinputs] at hwrite
          cases hwrite
          have hnine := le_nine_of_wideField? hwide
          obtain ⟨hslots, rfl⟩ := of_slotsChars hinputs
          refine ⟨tier, level, rate, rfl, hnine, hslots, ?_⟩
          have hfront : Signs.chars.front draft.rollAgain =
              if draft.rollAgain then Spell.rollAgainMark else [] := rfl
          rw [String.toList_ofList, Spell.scalingSuffix_of hnine.1 hnine.2.1 hnine.2.2, ← hfront]
          simp [Layout.text, Layout.body, Layout.rest, Layout.behind, layout, Signs.ending,
            Signs.chars]

end Draft

/-! ## What is read -/

/-- A spell with everything that was put into a draft, and nothing else. -/
structure Spell.HasDraft (spell : Spell) (draft : Draft) : Prop where
  /-- The base is written as in the catalog. -/
  base : spell.base = draft.base.code
  /-- The spell is gated if the draft was. -/
  rollAgain : spell.rollAgain = draft.rollAgain
  /-- The scaling is that of the draft. -/
  scaling : draft.scaling.map (fun digits => Scaling.of digits.1 digits.2.1 digits.2.2) =
    some spell.scaling
  /-- Each input has a value. -/
  inputs : ∀ slot ∈ draft.base.slots, (draft.input? slot.key).isSome = true
  /-- The leading token is the value of the input without a letter. -/
  first : spell.first = draft.inputAt? none
  /-- A letter has the value of its input. -/
  token : ∀ letter, spell.token? letter = draft.inputAt? (some letter)

/-- The letters of a base hold no brace and do not begin with the mark. -/
theorem Base.letters_of_mem_all : ∀ base ∈ Base.all, '{' ∉ base.letters ∧
    Spell.rollAgainMark.length ≤ base.letters.length ∧ ¬Spell.rollAgainMark <+: base.letters := by
  decide

/-- The first input of a family has no letter, and the others have different capitals. -/
theorem Family.slots_letters (family : Family) :
    (∀ slot ∈ family.slots.head?, slot.letter = none) ∧
      (∀ slot ∈ family.slots, ∀ letter ∈ slot.letter, letter.isUpper = true) ∧
      family.slots.Pairwise fun slot other => slot.letter ≠ other.letter := by
  cases family <;> simp [slots]

namespace Draft

variable {draft : Draft} {tier level rate : UInt8}

/-- The layout of a draft is proper. -/
theorem layout_proper (hbase : draft.base ∈ Base.all) (hnine : tier ≤ 9 ∧ level ≤ 9 ∧ rate ≤ 9)
    (hslots : ∀ slot ∈ draft.base.slots, '}' ∉ draft.inputChars slot) :
    (draft.layout tier level rate).Proper Signs.chars := by
  obtain ⟨hbrace, hlength, hmark⟩ := Base.letters_of_mem_all draft.base hbase
  obtain ⟨hfirst, hcapitals, -⟩ := draft.base.family.slots_letters
  exact {
    digits := by
      intro t l p hsuffix
      cases hsuffix
      exact ⟨(Spell.digitValue_digitChar hnine.1).1, (Spell.digitValue_digitChar hnine.2.1).1,
        (Spell.digitValue_digitChar hnine.2.2).1⟩
    ending := fun hnone => nomatch hnone
    mark := by
      intro _ hfront
      exact hmark (List.prefix_of_prefix_length_le hfront (List.prefix_append _ _) hlength)
    base := hbrace
    chunks := by
      intro chunk hmem
      obtain ⟨slot, hslot, rfl⟩ := List.mem_map.mp hmem
      refine ⟨fun hgap => ?_, hslots slot hslot⟩
      have hupper := hcapitals slot hslot '{' (Option.mem_toList.mp hgap)
      exact absurd hupper (by decide)
    first := by
      intro chunk hhead
      unfold layout at hhead
      rw [List.head?_map] at hhead
      obtain ⟨slot, hslot, rfl⟩ := Option.map_eq_some_iff.mp hhead
      rw [chunk, hfirst slot hslot]
      rfl
    tail := List.not_mem_nil
    bare := fun _ => .inl rfl }

/-- The leading input is the first. -/
theorem head?_slots_eq_inputAt? (hinputs : ∀ slot ∈ draft.base.slots,
      draft.input? slot.key = some (String.ofList (draft.inputChars slot))) :
    (draft.layout tier level rate).chunks.head?.map (fun chunk => String.ofList chunk.raw) =
      draft.inputAt? none := by
  obtain ⟨hfirst, -, -⟩ := draft.base.family.slots_letters
  unfold layout inputAt?
  rw [List.head?_map, Option.map_map]
  change ∀ slot ∈ draft.base.slots.head?, slot.letter = none at hfirst
  cases hslots : draft.base.slots with
  | nil => rfl
  | cons slot others =>
    rw [hslots] at hinputs hfirst
    have hnone : slot.letter = none := hfirst slot rfl
    rw [List.find?_cons_of_pos (by simp [hnone]), Option.bind_some,
      hinputs slot List.mem_cons_self]
    rfl

/-- The last group with a letter is that of the input with the letter. -/
theorem lettered?_layout (hinputs : ∀ slot ∈ draft.base.slots,
      draft.input? slot.key = some (String.ofList (draft.inputChars slot))) (letter : Char) :
    (if letter.isUpper then
      ((draft.layout tier level rate).lettered? letter).map fun chunk => String.ofList chunk.raw
      else none) = draft.inputAt? (some letter) := by
  obtain ⟨hfirst, hcapitals, hdistinct⟩ := draft.base.family.slots_letters
  change ∀ slot ∈ draft.base.slots.head?, slot.letter = none at hfirst
  change ∀ slot ∈ draft.base.slots, _ at hcapitals
  change draft.base.slots.Pairwise _ at hdistinct
  -- The first input has no letter, and no letter occurs twice.
  have hfind : draft.base.slots.tail.reverse.find? (fun slot => slot.letter = some letter) =
      draft.base.slots.find? fun slot => slot.letter = some letter := by
    rw [find?_reverse_of_pairwise]
    · cases hslots : draft.base.slots with
      | nil => rfl
      | cons slot others =>
        rw [hslots] at hfirst
        have hnone : slot.letter = none := hfirst slot rfl
        rw [List.find?_cons_of_neg (by simp [hnone]), List.tail_cons]
    · refine hdistinct.tail.imp fun hne hboth => hne ?_
      rw [of_decide_eq_true hboth.1, of_decide_eq_true hboth.2]
  have hgap (slot : Slot) : (draft.chunk slot).gap.getLast? = slot.letter := by
    rw [chunk]
    cases slot.letter <;> rfl
  have hlettered : (draft.layout tier level rate).lettered? letter =
      (draft.base.slots.find? fun slot => slot.letter = some letter).map draft.chunk := by
    rw [← hfind, Layout.lettered?, layout, ← List.map_tail, ← List.map_reverse, List.find?_map]
    simp only [Function.comp_def, hgap]
  rw [hlettered, inputAt?]
  cases hfound : draft.base.slots.find? fun slot => slot.letter = some letter with
  | none => cases letter.isUpper <;> rfl
  | some slot =>
    have hslot : slot ∈ draft.base.slots := List.mem_of_find?_eq_some hfound
    have hletter : slot.letter = some letter := by simpa using List.find?_some hfound
    rw [if_pos (hcapitals slot hslot letter hletter), Option.bind_some, hinputs slot hslot]
    rfl

/-- The value under the letter of an input is the value of the input. -/
theorem inputAt?_letter {slot : Slot} (hslot : slot ∈ draft.base.slots) :
    draft.inputAt? slot.letter = draft.input? slot.key := by
  obtain ⟨-, -, hdistinct⟩ := draft.base.family.slots_letters
  have hnodup : (draft.base.slots.map Slot.letter).Nodup := List.pairwise_map.mpr hdistinct
  unfold inputAt?
  cases hfound : draft.base.slots.find? fun other => other.letter = slot.letter with
  | none =>
    have hother := List.find?_eq_none.mp hfound slot hslot
    exact absurd (decide_eq_true rfl) hother
  | some other =>
    have hmem : other ∈ draft.base.slots := List.mem_of_find?_eq_some hfound
    have hletter : other.letter = slot.letter := by simpa using List.find?_some hfound
    rw [List.inj_on_of_nodup_map hnodup hmem hslot hletter, Option.bind_some]

/-- The spell that is read from the code of a draft has everything that was put into the draft. -/
theorem ofCode_of_write {code : Code} (hbase : draft.base ∈ Base.all)
    (hwrite : draft.write = .ok code) : (Spell.ofCode code).HasDraft draft := by
  obtain ⟨tier, level, rate, hscaling, hnine, hslots, htext⟩ := of_write hwrite
  have hinputs : ∀ slot ∈ draft.base.slots,
      draft.input? slot.key = some (String.ofList (draft.inputChars slot)) :=
    fun slot hslot => (hslots slot hslot).1
  have hproper := layout_proper hbase hnine fun slot hslot => (hslots slot hslot).2
  have hread : (Spell.ofCode code).HasLayout (draft.layout tier level rate) := by
    rw [Spell.ofCode, htext]
    exact hproper.hasLayout
  have hdigits : (draft.layout tier level rate).scaling = .of tier level rate := by
    unfold Layout.scaling layout
    dsimp only
    rw [(Spell.digitValue_digitChar hnine.1).2, (Spell.digitValue_digitChar hnine.2.1).2,
      (Spell.digitValue_digitChar hnine.2.2).2]
  exact {
    base := hread.base
    rollAgain := hread.rollAgain
    scaling := by
      rw [hscaling, hread.scaling, hdigits]
      rfl
    inputs := by
      intro slot hslot
      rw [hinputs slot hslot]
      rfl
    first := by rw [hread.first, head?_slots_eq_inputAt? hinputs]
    token := by
      intro letter
      rw [hread.token, lettered?_layout hinputs] }

end Draft

end DiceDuel
