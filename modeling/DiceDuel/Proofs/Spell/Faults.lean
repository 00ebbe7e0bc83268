import DiceDuel.Proofs.Spell.Edits

/-!
# Which drafts can be written

A draft can be written exactly if its base takes every key that was supplied, its scaling is set and
fits three digits, and each input has a value that is not blank and has no closing brace. Any other
draft is refused with its first fault: a key that the base does not take, whichever of them, then
the scaling, then the inputs in the order of the code.
-/

namespace DiceDuel

/-- Whether a text has nothing but white space. -/
def Text.Blank (s : String) : Prop := ∀ c ∈ s.toList, isBlank c = true

namespace Draft

/-! ## What a draft needs -/

/-- A key was supplied that the base does not take. -/
def Unknown (draft : Draft) (key : String) : Prop :=
  (draft.values.get? key).isSome = true ∧ ∀ slot ∈ draft.base.slots, slot.key ≠ key

/-- The scaling is set and each of its values fits one digit. -/
def Scaled (draft : Draft) : Prop :=
  ∃ tier level rate, draft.scaling = some (tier, level, rate) ∧ tier ≤ 9 ∧ level ≤ 9 ∧ rate ≤ 9

/-- An input has a value that is not blank and has no closing brace. -/
def Filled (draft : Draft) (slot : Slot) : Prop :=
  ∃ value, draft.values.get? slot.key = some value ∧ ¬Text.Blank value ∧ '}' ∉ value.toList

/-- A draft with everything that it needs to be written, and nothing else. -/
structure Writable (draft : Draft) : Prop where
  /-- The base takes every key that was supplied. -/
  known : ∀ key, ¬draft.Unknown key
  /-- The scaling fits three digits. -/
  scaled : draft.Scaled
  /-- Each input has a value that can be written. -/
  filled : ∀ slot ∈ draft.base.slots, draft.Filled slot

/-- What is wrong with an input. -/
inductive InputFault (draft : Draft) (slot : Slot) : Fault → Prop
  /-- There is no value, or a blank one. -/
  | missing (blank : ∀ value, draft.values.get? slot.key = some value → Text.Blank value) :
      InputFault draft slot (.missingValue draft.base slot.key)
  /-- The value has a closing brace. -/
  | closing {value : String} (supplied : draft.values.get? slot.key = some value)
      (brace : '}' ∈ value.toList) : InputFault draft slot (.closingBrace slot.key)

/-- What is wrong first with a draft whose keys its base takes: the scaling, or the first input at
fault. -/
inductive FirstFault (draft : Draft) : Fault → Prop
  /-- There is no scaling. -/
  | missingScaling (unset : draft.scaling = none) : FirstFault draft .missingScaling
  /-- A value of the scaling does not fit one digit, and those before it do. -/
  | notOneDigit {tier level rate : UInt8} {field : String} {value : UInt8}
      {before after : List (String × UInt8)} (set : draft.scaling = some (tier, level, rate))
      (order : [("tier", tier), ("level", level), ("progression_rate", rate)] =
        before ++ (field, value) :: after)
      (digits : ∀ other ∈ before, other.2 ≤ 9) (wide : 9 < value) :
      FirstFault draft (.notOneDigit field value)
  /-- The scaling is in order, an input is at fault, and those before it are not. -/
  | input {before after : List Slot} {slot : Slot} {fault : Fault} (scaled : draft.Scaled)
      (order : draft.base.slots = before ++ slot :: after)
      (filled : ∀ other ∈ before, draft.Filled other) (faulty : draft.InputFault slot fault) :
      FirstFault draft fault

/-! ## One input -/

/-- The fault of an attempt to write, if it has one. -/
def faultOf? {α : Type} : Except Fault α → Option Fault
  | .error fault => some fault
  | .ok _ => none

/-- The fault of an input, if it has one. -/
def inputFault? (draft : Draft) (slot : Slot) : Option Fault := faultOf? (draft.slotChars slot)

variable (draft : Draft)

/-- An input is missing, or has a closing brace, or can be written. -/
theorem inputFault?_cases (slot : Slot) :
    (∀ value, draft.values.get? slot.key = some value → Text.Blank value) ∧
        draft.inputFault? slot = some (.missingValue draft.base slot.key) ∨
      (∃ value, draft.values.get? slot.key = some value ∧ '}' ∈ value.toList) ∧
        draft.inputFault? slot = some (.closingBrace slot.key) ∨
      draft.Filled slot ∧ draft.inputFault? slot = none := by
  have hbrace : Text.isBlank '}' = false := by decide
  unfold inputFault? slotChars
  cases hget : draft.values.get? slot.key with
  | none =>
    refine .inl ⟨fun value hvalue => (Option.some_ne_none value hvalue.symm).elim, ?_⟩
    rfl
  | some value =>
    rw [Option.getD_some]
    cases htrim : Text.trimChars value.toList with
    | nil =>
      have hblank : Text.Blank value := Text.trimChars_eq_nil_iff.mp htrim
      exact .inl ⟨fun other hother => Option.some.inj hother ▸ hblank, rfl⟩
    | cons c cs =>
      have hwritten : ¬Text.Blank value := by
        intro hblank
        rw [Text.trimChars_eq_nil_iff.mpr hblank] at htrim
        cases htrim
      have hclosing : '}' ∈ c :: cs ↔ '}' ∈ value.toList := by
        rw [← htrim]
        exact Text.mem_trimChars hbrace
      dsimp only
      by_cases hmem : '}' ∈ value.toList
      · have hcontains : (c :: cs).contains '}' = true :=
          List.contains_iff_mem.mpr (hclosing.mpr hmem)
        rw [if_pos hcontains]
        exact .inr (.inl ⟨⟨value, rfl, hmem⟩, rfl⟩)
      · have hcontains : ¬(c :: cs).contains '}' = true :=
          fun hfound => hmem (hclosing.mp (List.contains_iff_mem.mp hfound))
        rw [if_neg hcontains]
        exact .inr (.inr ⟨⟨value, hget, hwritten, hmem⟩, rfl⟩)

variable {draft} {slot : Slot} {fault : Fault}

/-- A closing brace is no white space. -/
theorem notMem_of_blank {value : String} (hblank : Text.Blank value) : '}' ∉ value.toList := by
  intro hmem
  have hbrace : Text.isBlank '}' = true := hblank '}' hmem
  exact absurd hbrace (by decide)

/-- Nothing is wrong with an input that has a value that can be written. -/
theorem Filled.not_inputFault (hfilled : draft.Filled slot) : ¬draft.InputFault slot fault := by
  obtain ⟨value, hvalue, hwritten, hopen⟩ := hfilled
  intro hwrong
  cases hwrong with
  | missing hblank => exact hwritten (hblank value hvalue)
  | closing hother hbrace =>
    have hsame := Option.some.inj (hvalue.symm.trans hother)
    exact hopen (hsame ▸ hbrace)

/-- An input has a fault exactly if something is wrong with it. -/
theorem inputFault?_eq_some_iff : draft.inputFault? slot = some fault ↔
    draft.InputFault slot fault := by
  rcases draft.inputFault?_cases slot with
    ⟨hblank, hfault⟩ | ⟨⟨value, hvalue, hbrace⟩, hfault⟩ | ⟨hfilled, hfault⟩
  · rw [hfault, Option.some.injEq]
    constructor
    · rintro rfl
      exact .missing hblank
    · intro hwrong
      cases hwrong with
      | missing _ => rfl
      | closing hother hbrace => exact absurd hbrace (notMem_of_blank (hblank _ hother))
  · rw [hfault, Option.some.injEq]
    constructor
    · rintro rfl
      exact .closing hvalue hbrace
    · intro hwrong
      cases hwrong with
      | missing hblank => exact absurd hbrace (notMem_of_blank (hblank _ hvalue))
      | closing _ _ => rfl
  · rw [hfault]
    exact iff_of_false (Option.some_ne_none fault).symm hfilled.not_inputFault

/-- An input has no fault exactly if it has a value that can be written. -/
theorem inputFault?_eq_none_iff : draft.inputFault? slot = none ↔ draft.Filled slot := by
  constructor
  · intro hnone
    rcases draft.inputFault?_cases slot with ⟨-, hfault⟩ | ⟨-, hfault⟩ | ⟨hfilled, -⟩
    · exact absurd (hfault.symm.trans hnone) (Option.some_ne_none _)
    · exact absurd (hfault.symm.trans hnone) (Option.some_ne_none _)
    · exact hfilled
  · intro hfilled
    refine Option.eq_none_iff_forall_ne_some.mpr fun fault hfault => ?_
    exact hfilled.not_inputFault (inputFault?_eq_some_iff.mp hfault)

/-! ## All of a draft -/

/-- The fault of several inputs is that of the first with one. -/
theorem faultOf?_slotsChars (slots : List Slot) :
    faultOf? (draft.slotsChars slots) = slots.findSome? draft.inputFault? := by
  induction slots with
  | nil => rfl
  | cons slot rest ih =>
    rw [slotsChars, List.findSome?_cons, ← ih, inputFault?]
    cases draft.slotChars slot with
    | error fault => rfl
    | ok chars =>
      dsimp only [faultOf?]
      cases draft.slotsChars rest <;> rfl

variable {tier level rate : UInt8}

/-- A scaling fits three digits exactly if no field of it is too wide. -/
theorem wideField?_eq_none_iff :
    wideField? tier level rate = none ↔ tier ≤ 9 ∧ level ≤ 9 ∧ rate ≤ 9 := by
  refine ⟨le_nine_of_wideField?, fun hnine => ?_⟩
  unfold wideField?
  simpa using hnine

/-- The field that is too wide is the first such. -/
theorem wideField?_eq_some_iff {value : UInt8} {field : String} :
    wideField? tier level rate = some (field, value) ↔
      ∃ before after,
        [("tier", tier), ("level", level), ("progression_rate", rate)] =
          before ++ (field, value) :: after ∧
        (∀ other ∈ before, other.2 ≤ 9) ∧ 9 < value := by
  unfold wideField?
  rw [List.find?_eq_some_iff_append]
  constructor
  · rintro ⟨hwide, before, after, horder, hdigits⟩
    exact ⟨before, after, horder, fun other hmem => by simpa using hdigits other hmem,
      of_decide_eq_true hwide⟩
  · rintro ⟨before, after, horder, hdigits, hwide⟩
    exact ⟨decide_eq_true hwide, before, after, horder, fun other hmem => by
      simpa using hdigits other hmem⟩

/-- A base takes exactly the keys of its inputs. -/
theorem takes_eq_true_iff {base : Base} {key : String} :
    takes base key = true ↔ ∃ slot ∈ base.slots, slot.key = key := by
  simp only [takes, List.any_eq_true, beq_iff_eq]

/-- A key that is named as unknown was supplied and is not taken. -/
theorem unknown_of_unknownKey? {key : String} (hkey : draft.unknownKey? = some key) :
    draft.Unknown key := by
  obtain ⟨entry, hfound, rfl⟩ := Option.map_eq_some_iff.mp hkey
  have hentry := HashTable.get?_eq_some_iff.mpr (List.mem_of_find?_eq_some hfound)
  have hrefused := List.find?_some hfound
  refine ⟨by rw [hentry]; rfl, fun slot hslot hsame => ?_⟩
  rw [takes_eq_true_iff.mpr ⟨slot, hslot, hsame⟩] at hrefused
  cases hrefused

/-- No key is named as unknown exactly if every key that was supplied is taken. -/
theorem unknownKey?_eq_none_iff : draft.unknownKey? = none ↔ ∀ key, ¬draft.Unknown key := by
  constructor
  · rintro hnone key ⟨hsupplied, hrefused⟩
    obtain ⟨value, hvalue⟩ := Option.isSome_iff_exists.mp hsupplied
    have hfind := List.find?_eq_none.mp (Option.map_eq_none_iff.mp hnone) (key, value)
      (HashTable.get?_eq_some_iff.mp hvalue)
    have htakes : ¬takes draft.base key = true := by
      rw [takes_eq_true_iff]
      rintro ⟨slot, hslot, hsame⟩
      exact hrefused slot hslot hsame
    simp [htakes] at hfind
  · intro hknown
    refine Option.eq_none_iff_forall_ne_some.mpr fun key hkey => ?_
    exact hknown key (unknown_of_unknownKey? hkey)

/-- With known keys and a scaling, a draft has the fault of the scaling or else that of its
inputs. -/
theorem faultOf?_write (hkey : draft.unknownKey? = none)
    (hscaling : draft.scaling = some (tier, level, rate)) :
    faultOf? draft.write =
      ((wideField? tier level rate).map fun field => .notOneDigit field.1 field.2).or
        (draft.base.slots.findSome? draft.inputFault?) := by
  unfold write
  rw [hkey, hscaling, ← faultOf?_slotsChars]
  dsimp only
  cases wideField? tier level rate with
  | some field => rfl
  | none =>
    rw [Option.map_none, Option.none_or]
    cases draft.slotsChars draft.base.slots <;> rfl

/-- Without a scaling that is what is wrong first. -/
theorem firstFault_iff_of_unset (hunset : draft.scaling = none) :
    draft.FirstFault fault ↔ fault = .missingScaling := by
  constructor
  · intro hfirst
    cases hfirst with
    | missingScaling _ => rfl
    | notOneDigit hset _ _ _ => exact nomatch hunset.symm.trans hset
    | input hscaled _ _ _ =>
      obtain ⟨tier, level, rate, hset, -⟩ := hscaled
      exact nomatch hunset.symm.trans hset
  · rintro rfl
    exact .missingScaling hunset

/-- With a scaling that does not fit, the first field that is too wide is wrong first. -/
theorem firstFault_iff_of_wide {field : String × UInt8}
    (hset : draft.scaling = some (tier, level, rate))
    (hwide : wideField? tier level rate = some field) :
    draft.FirstFault fault ↔ fault = .notOneDigit field.1 field.2 := by
  constructor
  · intro hfirst
    cases hfirst with
    | missingScaling hunset => exact nomatch hunset.symm.trans hset
    | notOneDigit hother horder hdigits hvalue =>
      cases hset.symm.trans hother
      have hfound := wideField?_eq_some_iff.mpr ⟨_, _, horder, hdigits, hvalue⟩
      cases hwide.symm.trans hfound
      rfl
    | input hscaled _ _ _ =>
      obtain ⟨tier', level', rate', hother, hnine⟩ := hscaled
      cases hset.symm.trans hother
      exact nomatch hwide.symm.trans (wideField?_eq_none_iff.mpr hnine)
  · rintro rfl
    obtain ⟨before, after, horder, hdigits, hvalue⟩ := wideField?_eq_some_iff.mp hwide
    exact .notOneDigit hset horder hdigits hvalue

/-- With a scaling that fits, the first input at fault is wrong first. -/
theorem firstFault_iff_of_fits (hset : draft.scaling = some (tier, level, rate))
    (hwide : wideField? tier level rate = none) :
    draft.FirstFault fault ↔ draft.base.slots.findSome? draft.inputFault? = some fault := by
  rw [List.findSome?_eq_some_iff]
  constructor
  · intro hfirst
    cases hfirst with
    | missingScaling hunset => exact nomatch hunset.symm.trans hset
    | notOneDigit hother horder hdigits hvalue =>
      cases hset.symm.trans hother
      have hfound := wideField?_eq_some_iff.mpr ⟨_, _, horder, hdigits, hvalue⟩
      exact nomatch hwide.symm.trans hfound
    | input _ horder hfilled hfaulty =>
      exact ⟨_, _, _, horder, inputFault?_eq_some_iff.mpr hfaulty,
        fun other hmem => inputFault?_eq_none_iff.mpr (hfilled other hmem)⟩
  · rintro ⟨before, slot, after, horder, hfault, hbefore⟩
    have hscaled : draft.Scaled := ⟨tier, level, rate, hset, wideField?_eq_none_iff.mp hwide⟩
    exact .input hscaled horder
      (fun other hmem => inputFault?_eq_none_iff.mp (hbefore other hmem))
      (inputFault?_eq_some_iff.mp hfault)

/-- With known keys, a draft has the fault that is wrong first with it. -/
theorem faultOf?_write_eq_some_iff (hkey : draft.unknownKey? = none) :
    faultOf? draft.write = some fault ↔ draft.FirstFault fault := by
  cases hscaling : draft.scaling with
  | none =>
    have hwrite : draft.write = .error .missingScaling := by
      unfold write
      rw [hkey, hscaling]
    rw [firstFault_iff_of_unset hscaling, hwrite, faultOf?, Option.some.injEq, eq_comm]
  | some values =>
    obtain ⟨tier, level, rate⟩ := values
    rw [faultOf?_write hkey hscaling]
    cases hwide : wideField? tier level rate with
    | some field =>
      rw [firstFault_iff_of_wide hscaling hwide, Option.map_some, Option.some_or,
        Option.some.injEq, eq_comm]
    | none => rw [firstFault_iff_of_fits hscaling hwide, Option.map_none, Option.none_or]

/-- A draft can be written exactly if it has everything that it needs. -/
theorem exists_write_iff : (∃ code, draft.write = .ok code) ↔ draft.Writable := by
  constructor
  · rintro ⟨code, hwrite⟩
    obtain ⟨tier, level, rate, hscaling, hnine, -, -⟩ := of_write hwrite
    have hkey : draft.unknownKey? = none := by
      refine Option.eq_none_iff_forall_ne_some.mpr fun key hkey => ?_
      unfold write at hwrite
      rw [hkey] at hwrite
      cases hwrite
    have hfault := faultOf?_write hkey hscaling
    rw [hwrite, wideField?_eq_none_iff.mpr hnine, Option.map_none, Option.none_or, faultOf?,
      eq_comm, List.findSome?_eq_none_iff] at hfault
    exact {
      known := unknownKey?_eq_none_iff.mp hkey
      scaled := ⟨tier, level, rate, hscaling, hnine⟩
      filled := fun slot hslot => inputFault?_eq_none_iff.mp (hfault slot hslot) }
  · rintro ⟨hknown, ⟨tier, level, rate, hscaling, hnine⟩, hfilled⟩
    have hinputs : draft.base.slots.findSome? draft.inputFault? = none :=
      List.findSome?_eq_none_iff.mpr fun slot hslot =>
        inputFault?_eq_none_iff.mpr (hfilled slot hslot)
    have hfault := faultOf?_write (unknownKey?_eq_none_iff.mpr hknown) hscaling
    rw [wideField?_eq_none_iff.mpr hnine, hinputs] at hfault
    cases hwrite : draft.write with
    | ok code => exact ⟨code, rfl⟩
    | error fault =>
      rw [hwrite] at hfault
      cases hfault

/-- A draft with an unknown key is refused with an unknown key, whatever else is wrong. -/
theorem write_of_unknown {key : String} (hunknown : draft.Unknown key) :
    ∃ named, draft.Unknown named ∧ draft.write = .error (.unknownKey draft.base named) := by
  cases hkey : draft.unknownKey? with
  | none => exact absurd hunknown (unknownKey?_eq_none_iff.mp hkey key)
  | some named =>
    refine ⟨named, unknown_of_unknownKey? hkey, ?_⟩
    unfold write
    rw [hkey]

/-! ## Drafts with the same contents -/

/-- Two drafts hold the same, though their tables may have it in different orders. -/
structure Alike (draft other : Draft) : Prop where
  /-- They have one base. -/
  base : draft.base = other.base
  /-- Each key has one value in both, or in neither. -/
  values : ∀ key, draft.values.get? key = other.values.get? key
  /-- They have one scaling. -/
  scaling : draft.scaling = other.scaling
  /-- They have one mark. -/
  rollAgain : draft.rollAgain = other.rollAgain

namespace Alike

variable {other : Draft}

/-- Edits keep two drafts alike. -/
theorem foldl_edited (h : draft.Alike other) (edits : List Edit) :
    (edits.foldl edited draft).Alike (edits.foldl edited other) := by
  induction edits generalizing draft other with
  | nil => exact h
  | cons edit rest ih =>
    refine ih ?_
    cases edit with
    | value key value =>
      refine ⟨h.base, fun searched => ?_, h.scaling, h.rollAgain⟩
      rw [edited, edited, withValue, withValue, HashTable.get?_insert, HashTable.get?_insert,
        h.values]
    | scaling tier level rate => exact ⟨h.base, h.values, rfl, h.rollAgain⟩
    | mark enabled => exact ⟨h.base, h.values, h.scaling, rfl⟩

/-- The unknown keys are among the contents. -/
theorem unknown_iff (h : draft.Alike other) {key : String} :
    draft.Unknown key ↔ other.Unknown key := by
  rw [Unknown, Unknown, h.values, h.base]

/-- The characters of the inputs are among the contents. -/
theorem slotsChars_eq (h : draft.Alike other) (slots : List Slot) :
    draft.slotsChars slots = other.slotsChars slots := by
  induction slots with
  | nil => rfl
  | cons slot rest ih =>
    rw [slotsChars, slotsChars, ih, slotChars, slotChars, h.values, h.base]

/-- Without unknown keys the code, or the first fault, is among the contents. -/
theorem write_eq_of_known (h : draft.Alike other) (hknown : ∀ key, ¬draft.Unknown key) :
    draft.write = other.write := by
  have hkey : draft.unknownKey? = none := unknownKey?_eq_none_iff.mpr hknown
  have hother : other.unknownKey? = none :=
    unknownKey?_eq_none_iff.mpr fun key hunknown => hknown key (h.unknown_iff.mpr hunknown)
  rw [write, write, hkey, hother, h.scaling, h.slotsChars_eq, h.base, h.rollAgain]

/-- Two drafts with the same contents are written alike. They can only differ in the unknown key
that they name, and only if there are two for them to name. -/
theorem write_eq_or (h : draft.Alike other) :
    draft.write = other.write ∨ ∃ key key', key ≠ key' ∧ draft.Unknown key ∧ draft.Unknown key' ∧
      draft.write = .error (.unknownKey draft.base key) ∧
      other.write = .error (.unknownKey draft.base key') := by
  by_cases hknown : ∀ key, ¬draft.Unknown key
  · exact .inl (h.write_eq_of_known hknown)
  · obtain ⟨unknown, hunknown⟩ := Classical.not_forall_not.mp hknown
    obtain ⟨key, hkey, hwrite⟩ := write_of_unknown hunknown
    obtain ⟨key', hkey', hwrite'⟩ := write_of_unknown (h.unknown_iff.mp hunknown)
    rw [← h.base] at hwrite'
    by_cases hsame : key = key'
    · refine .inl ?_
      rw [hwrite, hwrite', hsame]
    · exact .inr ⟨key, key', hsame, hkey, h.unknown_iff.mpr hkey', hwrite, hwrite'⟩

/-- Two drafts with the same contents are complete together. -/
theorem isComplete_eq (h : draft.Alike other) : draft.isComplete = other.isComplete := by
  unfold isComplete
  rcases h.write_eq_or with hsame | ⟨key, key', -, -, -, hwrite, hwrite'⟩
  · rw [hsame]
  · rw [hwrite, hwrite']
    rfl

end Alike

/-- Values for different keys leave the same contents in either order. -/
theorem alike_of_swapped (draft : Draft) {key other : String} (hkeys : key ≠ other)
    (value text : String) :
    ((draft.withValue key value).withValue other text).Alike
      ((draft.withValue other text).withValue key value) := by
  refine ⟨rfl, fun searched => ?_, rfl, rfl⟩
  simp only [withValue, HashTable.get?_insert]
  by_cases hother : searched = other
  · have hkey : ¬searched = key := fun hsame => hkeys (hsame.symm.trans hother)
    rw [if_pos hother, if_neg hkey, if_pos hother]
  · rw [if_neg hother, if_neg hother]

/-- A draft that is filled in by edits holds the last value of each key and the last scaling. It can
be written exactly if it has everything that it needs, and it is complete exactly then. An unknown
key stops it first of all; with known keys it is refused with exactly the fault that is wrong first.
Values for different keys may be supplied in either order, whatever edits follow: the contents are
the same, the draft is complete in both cases or in neither, and it is written alike, except that of
two or more unknown keys another one may be named. -/
theorem write_of_edits (base : Base) (edits : List Edit) :
    let draft := ofEdits base edits
    (draft.base = base ∧ (∀ key, draft.values.get? key = Edit.lastValue? edits key) ∧
        draft.scaling = Edit.lastScaling? edits) ∧
      ((∃ code, draft.write = .ok code) ↔ draft.Writable) ∧
      (draft.isComplete = true ↔ ∃ code, draft.write = .ok code) ∧
      (∀ key, draft.Unknown key →
        ∃ named, draft.Unknown named ∧ draft.write = .error (.unknownKey base named)) ∧
      ((∀ key, ¬draft.Unknown key) →
        ∀ fault, draft.write = .error fault ↔ draft.FirstFault fault) ∧
      ∀ (key other value text : String) (later : List Edit), key ≠ other →
        let one := later.foldl edited ((draft.withValue key value).withValue other text)
        let two := later.foldl edited ((draft.withValue other text).withValue key value)
        one.Alike two ∧ one.isComplete = two.isComplete ∧
          (one.write = two.write ∨ ∃ named named', named ≠ named' ∧ one.Unknown named ∧
            one.Unknown named' ∧ one.write = .error (.unknownKey base named) ∧
            two.write = .error (.unknownKey base named')) := by
  intro draft
  have hbase : draft.base = base := base_ofEdits base edits
  refine ⟨⟨hbase, get?_ofEdits base edits, scaling_ofEdits base edits⟩, exists_write_iff, ?_, ?_,
    ?_, ?_⟩
  · unfold isComplete
    cases draft.write <;> simp [Except.toBool]
  · intro key hunknown
    have hnamed := write_of_unknown hunknown
    rwa [hbase] at hnamed
  · intro hknown fault
    rw [← faultOf?_write_eq_some_iff (unknownKey?_eq_none_iff.mpr hknown)]
    cases draft.write <;> simp [faultOf?]
  · intro key other value text later hkeys one two
    have halike : one.Alike two := (alike_of_swapped draft hkeys value text).foldl_edited later
    have hsame : one.base = base := (base_foldl_edited later _).trans hbase
    have hwrite := halike.write_eq_or
    rw [hsame] at hwrite
    exact ⟨halike, halike.isComplete_eq, hwrite⟩

/-- A confusion whose first value was replaced is refused for the closing brace in its second; with
a key of another family it is refused for the key. -/
theorem write_of_edits_confuse :
    let edits : List Edit := [.value "marked_slots" "1\x7d", .value "damage_amount" "1\x7d2",
      .scaling 1 9 0, .value "marked_slots" " max(2) "]
    let strange : List Edit := [.value "amount" "3"]
    let one := ((ofEdits .confuse edits).withValue "marked_slots" "1").withValue "damage_amount" "2"
    let two := ((ofEdits .confuse edits).withValue "damage_amount" "2").withValue "marked_slots" "1"
    (ofEdits .confuse edits).write = .error (.closingBrace "damage_amount") ∧
      (∃ named, (ofEdits .confuse strange).write = .error (.unknownKey .confuse named)) ∧
      one.Alike two ∧ one.isComplete = two.isComplete := by
  intro edits strange one two
  obtain ⟨⟨-, hvalue, hscaling⟩, -, -, -, hfirst, hcomm⟩ := write_of_edits .confuse edits
  obtain ⟨-, -, -, hunknown, -, -⟩ := write_of_edits .confuse strange
  have hknown : ∀ key, ¬(ofEdits .confuse edits).Unknown key :=
    unknownKey?_eq_none_iff.mp (by decide)
  have hslots : (ofEdits .confuse edits).base.slots =
      [⟨"marked_slots", none⟩] ++ ⟨"damage_amount", some 'D'⟩ :: [] := rfl
  have hwritten : ¬Text.Blank " max(2) " := fun hblank =>
    absurd (hblank 'm' (by decide)) (by decide)
  have hfilled : (ofEdits .confuse edits).Filled ⟨"marked_slots", none⟩ :=
    ⟨" max(2) ", hvalue _, hwritten, by decide⟩
  have hfaulty : (ofEdits .confuse edits).InputFault ⟨"damage_amount", some 'D'⟩
      (.closingBrace "damage_amount") := .closing (hvalue _) (by decide)
  obtain ⟨halike, hcomplete, -⟩ :=
    hcomm "marked_slots" "damage_amount" "1" "2" [] (by decide)
  refine ⟨(hfirst hknown _).mpr ?_, ?_, halike, hcomplete⟩
  · have hscaled : (ofEdits .confuse edits).Scaled := ⟨1, 9, 0, hscaling, by decide⟩
    exact .input hscaled hslots (List.forall_mem_singleton.mpr hfilled) hfaulty
  · obtain ⟨named, -, hwrite⟩ := hunknown "amount" ⟨by decide, by decide⟩
    exact ⟨named, hwrite⟩

/-- An attack takes neither a power nor a range. Their hashes name one cell, so that the key that
comes first is the one that was supplied first, and it is the one that is named. -/
theorem write_swapped_ne :
    let draft := ofEdits .attack [.scaling 1 1 1]
    let one := (draft.withValue "power" "1").withValue "range" "1"
    let two := (draft.withValue "range" "1").withValue "power" "1"
    one.write = .error (.unknownKey .attack "power") ∧
      two.write = .error (.unknownKey .attack "range") ∧ one.write ≠ two.write := by
  decide

end Draft

end DiceDuel
