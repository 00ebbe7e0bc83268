import DiceDuel.Proofs.Spell.Groups
import DiceDuel.Proofs.Spell.Suffix

/-!
# Reading canonical codes

A spell that was read from a code is legible: the base ends before the first brace, the mark is
taken off, the groups can be written, and the scaling is missing or has three digits. The canonical
code of a legible spell is read as that spell, with one exception. Where only a base is written,
and the base ends in a hyphen and three digits, that end is read as a scaling. A code whose brace
is never closed leaves such a base, since the brace hides the end of the base from the reader.
-/

namespace DiceDuel

namespace Spell

/-- A spell with the form that reading gives. -/
structure Legible (spell : Spell) : Prop where
  /-- The base ends before the first brace. -/
  base : '{' ∉ spell.base.toList
  /-- A mark at the front of the base would have been taken off. -/
  mark : spell.rollAgain = true ∨ ¬rollAgainMark <+: spell.base.toList
  /-- The first group has no letter, so there are no lettered tokens before a leading one. -/
  leading : spell.first = none → spell.tokens = ∅
  /-- The leading token ends at its closing brace. -/
  first : ∀ raw ∈ spell.first, '}' ∉ raw.toList
  /-- Letters are capitals, and their tokens end at their closing braces. -/
  tokens : ∀ letter raw, spell.token? letter = some raw →
    letter.isUpper = true ∧ '}' ∉ raw.toList
  /-- The suffix gives three digits or nothing. -/
  scaling : HasDigits spell.scaling ∨ spell.scaling = {}

/-- A spell of which only the base is written, and whose base ends like a code with a scaling. -/
structure EndsLikeScaled (spell : Spell) : Prop where
  /-- No leading token stands behind the base. -/
  first : spell.first = none
  /-- There is no scaling to stand at the end. -/
  scaling : spell.scaling = {}
  /-- The base ends in a hyphen and three digits. -/
  base : EndsInDigits spell.base.toList

/-! ## What reading gives -/

/-- A mark was taken off, or what is left does not begin with one. -/
theorem splitMark_mark (body : List Char) :
    (splitMark body).2 = true ∨ ¬rollAgainMark <+: (splitMark body).1 := by
  unfold splitMark
  split
  · exact .inl rfl
  · rename_i hfront
    refine .inr ?_
    rintro ⟨rest, hrest⟩
    exact hfront rest hrest.symm

/-- A text without a mark keeps its front. -/
theorem splitMark_of_not_mark {body : List Char} (hbody : ¬rollAgainMark <+: body) :
    splitMark body = (body, false) := by
  unfold splitMark
  split
  · rename_i rest
    exact absurd ⟨rest, rfl⟩ hbody
  · rfl

/-- What is left behind the base is empty or begins with a brace. -/
theorem dropWhile_brace (body : List Char) :
    body.dropWhile (· != '{') = [] ∨ ∃ rest, body.dropWhile (· != '{') = '{' :: rest := by
  have hhead := List.head?_dropWhile_not (· != '{') body
  cases hdrop : body.dropWhile (· != '{') with
  | nil => exact .inl rfl
  | cons c rest =>
    rw [hdrop, List.head?_cons] at hhead
    have hbrace : c = '{' := by simpa using hhead
    exact .inr ⟨rest, by rw [hbrace]⟩

/-- What begins with a brace if it is not empty is split off from a text without one. -/
theorem takeWhile_dropWhile_brace {front behind : List Char} (hfront : '{' ∉ front)
    (hbehind : behind = [] ∨ ∃ rest, behind = '{' :: rest) :
    (front ++ behind).takeWhile (· != '{') = front ∧
      (front ++ behind).dropWhile (· != '{') = behind := by
  have hother : ∀ c ∈ front, (c != '{') = true := by
    intro c hc
    rw [bne_iff_ne]
    intro hbrace
    rw [hbrace] at hc
    exact hfront hc
  rw [List.takeWhile_append_of_pos hother, List.dropWhile_append_of_pos hother]
  cases hbehind with
  | inl hempty =>
    rw [hempty]
    exact ⟨List.append_nil _, rfl⟩
  | inr hbrace =>
    obtain ⟨rest, hrest⟩ := hbrace
    rw [hrest]
    exact ⟨List.append_nil _, rfl⟩

/-- Without a leading token nothing behind the base is a group. -/
theorem scan_eq_nil (body : List Char)
    (hfirst : Group.first? (Group.scan (.between none) (body.dropWhile (· != '{'))) = none) :
    Group.scan (.between none) (body.dropWhile (· != '{')) = [] := by
  cases dropWhile_brace body with
  | inl hempty =>
    rw [hempty]
    rfl
  | inr hbrace =>
    obtain ⟨rest, hrest⟩ := hbrace
    rw [hrest] at hfirst ⊢
    exact Group.scan_eq_nil_of_first? hfirst

/-- The leading token of writable groups is the text of one of them. -/
theorem not_mem_of_first? {groups : List Group} (hgroups : ∀ g ∈ groups, g.Writable) {raw : String}
    (hraw : Group.first? groups = some raw) : '}' ∉ raw.toList := by
  obtain ⟨g, hg, rfl⟩ := Option.map_eq_some_iff.mp hraw
  rw [String.toList_ofList]
  exact (hgroups g (List.mem_of_find?_eq_some hg)).raw

/-- The lettered tokens of writable groups have the letters and the texts of some of them. -/
theorem writable_of_tokens {groups : List Group} (hgroups : ∀ g ∈ groups, g.Writable)
    {letter : Char} {raw : String} (hraw : (Group.tokens groups).get? letter = some raw) :
    letter.isUpper = true ∧ '}' ∉ raw.toList := by
  obtain ⟨g, hg, hentry⟩ := List.mem_filterMap.mp (SortedMap.mem_of_get?_ofList hraw)
  obtain ⟨c, hletter, hpair⟩ := Option.map_eq_some_iff.mp hentry
  cases hpair
  rw [String.toList_ofList]
  exact ⟨(hgroups g hg).letter letter hletter, (hgroups g hg).raw⟩

/-- Whatever the text, the spell that is read is legible. -/
theorem legible_ofChars (cs : List Char) : (ofChars cs).Legible := by
  have hgroups : ∀ g ∈ Group.scan (.between none)
      ((splitMark (splitScaling cs).1).1.dropWhile (· != '{')), g.Writable :=
    fun g => Group.writable_of_mem_scan Group.writable_between_none
  refine ⟨?_, ?_, ?_, ?_, ?_, ?_⟩
  · change '{' ∉ (String.ofList (List.takeWhile (· != '{') _)).toList
    rw [String.toList_ofList]
    intro hbrace
    exact absurd (List.all_eq_true.mp List.all_takeWhile '{' hbrace) (by decide)
  · change _ ∨ ¬rollAgainMark <+: (String.ofList (List.takeWhile (· != '{') _)).toList
    rw [String.toList_ofList]
    exact (splitMark_mark _).imp id fun hmark hbase =>
      hmark (hbase.trans (List.takeWhile_prefix _))
  · intro hfirst
    change Group.tokens (Group.scan (.between none) _) = ∅
    rw [scan_eq_nil _ hfirst]
    rfl
  · exact fun raw hraw => not_mem_of_first? hgroups hraw
  · exact fun letter raw hraw => writable_of_tokens hgroups hraw
  · exact (splitScaling_scaling cs).imp And.right And.right

/-! ## What is read of a canonical code -/

/-- The characters of a canonical code before its suffix. -/
def stem (spell : Spell) : List Char :=
  (if spell.rollAgain then rollAgainMark else [])
    ++ (spell.base.toList ++ spell.groups.flatMap Group.chars)

/-- A canonical code is its stem and its suffix. -/
theorem chars_eq_stem_append (spell : Spell) :
    spell.chars = spell.stem ++ scalingSuffix spell.scaling := by
  rw [chars, stem, flatMap_chars_groups]
  simp only [List.append_assoc]

/-- The groups of a canonical code are empty or begin with a brace. -/
theorem flatMap_chars_brace (spell : Spell) (hleading : spell.first = none → spell.tokens = ∅) :
    spell.groups.flatMap Group.chars = [] ∨
      ∃ rest, spell.groups.flatMap Group.chars = '{' :: rest := by
  cases hfirst : spell.first with
  | none =>
    rw [(groups_eq_nil_iff spell hleading).mpr hfirst]
    exact .inl rfl
  | some raw =>
    rw [flatMap_chars_groups, hfirst]
    exact .inr ⟨_, rfl⟩

namespace Legible

variable {spell : Spell}

/-- The mark in front of a base is read back, and nothing else is taken for one, whatever begins
with a brace behind the base. -/
theorem splitMark_append (h : spell.Legible) {behind : List Char}
    (hbehind : behind = [] ∨ ∃ rest, behind = '{' :: rest) :
    splitMark ((if spell.rollAgain then rollAgainMark else []) ++ (spell.base.toList ++ behind)) =
      (spell.base.toList ++ behind, spell.rollAgain) := by
  cases hroll : spell.rollAgain with
  | true => rfl
  | false =>
    refine splitMark_of_not_mark fun hmark => ?_
    have hbase : ¬rollAgainMark <+: spell.base.toList := by
      cases h.mark with
      | inl hrolled =>
        rw [hroll] at hrolled
        cases hrolled
      | inr hbase => exact hbase
    cases hbehind with
    | inl hempty =>
      rw [hempty, List.append_nil] at hmark
      exact hbase hmark
    | inr hbrace =>
      obtain ⟨rest, hrest⟩ := hbrace
      rw [hrest] at hmark
      exact hbase (prefix_of_prefix_append_cons (by decide) hmark)

/-- Behind the mark a base ends at the first brace. -/
theorem takeWhile_dropWhile (h : spell.Legible) {behind : List Char}
    (hbehind : behind = [] ∨ ∃ rest, behind = '{' :: rest) :
    (spell.base.toList ++ behind).takeWhile (· != '{') = spell.base.toList ∧
      (spell.base.toList ++ behind).dropWhile (· != '{') = behind :=
  takeWhile_dropWhile_brace h.base hbehind

/-- The groups of a legible spell can be written. -/
theorem writable_of_mem_groups (h : spell.Legible) {g : Group} (hg : g ∈ spell.groups) :
    g.Writable := by
  rw [groups, List.mem_append] at hg
  cases hg with
  | inl hleading =>
    obtain ⟨raw, hraw, rfl⟩ := Option.map_eq_some_iff.mp (Option.mem_toList.mp hleading)
    exact ⟨fun c hc => (Option.not_mem_none c hc).elim, h.first raw hraw⟩
  | inr hlettered =>
    obtain ⟨entry, hentry, rfl⟩ := List.mem_map.mp hlettered
    have htoken := h.tokens entry.1 entry.2 (SortedMap.get?_of_mem hentry)
    refine ⟨?_, htoken.2⟩
    intro c hc
    rw [← Option.mem_some.mp hc]
    exact htoken.1

/-- A text that splits into the mark, the base and the groups of a legible spell, with junk that
gives no further group, and a scaling is read as that spell with that scaling. -/
theorem ofChars_of_scan (h : spell.Legible) {cs behind : List Char} {scaling : Scaling}
    (hbehind : behind = [] ∨ ∃ rest, behind = '{' :: rest)
    (hscan : Group.scan (.between none) behind = spell.groups)
    (hsplit : splitScaling cs =
      ((if spell.rollAgain then rollAgainMark else []) ++ (spell.base.toList ++ behind), scaling)) :
    ofChars cs = { spell with scaling } := by
  unfold ofChars
  rw [hsplit]
  dsimp only
  rw [h.splitMark_append hbehind]
  dsimp only
  rw [(h.takeWhile_dropWhile hbehind).1, (h.takeWhile_dropWhile hbehind).2, String.ofList_toList,
    hscan, first?_groups spell h.leading, tokens_groups]

/-- A text that splits into the stem of a legible spell and a scaling is read as that spell with
that scaling. -/
theorem ofChars_of_splitScaling (h : spell.Legible) {cs : List Char} {scaling : Scaling}
    (hsplit : splitScaling cs = (spell.stem, scaling)) :
    ofChars cs = { spell with scaling } :=
  h.ofChars_of_scan (flatMap_chars_brace spell h.leading)
    (Group.scan_flatMap_chars fun _ => h.writable_of_mem_groups) hsplit

/-- An open brace behind the stem gives no group and keeps the end of the stem from being read as a
scaling, so that every legible spell without a scaling is read from some text. -/
theorem ofChars_stem_append_brace (h : spell.Legible) (hmissing : spell.scaling = {}) :
    ofChars (spell.stem ++ ['{']) = spell := by
  have hbehind : spell.groups.flatMap Group.chars ++ ['{'] = [] ∨
      ∃ rest, spell.groups.flatMap Group.chars ++ ['{'] = '{' :: rest := by
    cases flatMap_chars_brace spell h.leading with
    | inl hempty =>
      rw [hempty]
      exact .inr ⟨[], rfl⟩
    | inr hbrace =>
      obtain ⟨rest, hrest⟩ := hbrace
      rw [hrest]
      exact .inr ⟨rest ++ ['{'], rfl⟩
  have hscan : Group.scan (.between none) (spell.groups.flatMap Group.chars ++ ['{']) =
      spell.groups := by
    rw [Group.scan_flatMap_chars_append fun _ => h.writable_of_mem_groups]
    exact List.append_nil _
  have hends : ¬EndsInDigits (spell.stem ++ ['{']) := fun hends =>
    not_endsInDigits_nil (hends.of_append_cons (by decide) (by decide))
  have hsplit : splitScaling (spell.stem ++ ['{']) =
      ((if spell.rollAgain then rollAgainMark else [])
        ++ (spell.base.toList ++ (spell.groups.flatMap Group.chars ++ ['{'])), spell.scaling) := by
    rw [splitScaling_of_not_endsInDigits hends, hmissing, stem]
    simp only [List.append_assoc]
  exact h.ofChars_of_scan hbehind hscan hsplit

/-- The stem of a legible spell ends in a hyphen and three digits only where its base ends the
code. -/
theorem endsInDigits_stem_iff (h : spell.Legible) :
    EndsInDigits spell.stem ↔ spell.first = none ∧ EndsInDigits spell.base.toList := by
  constructor
  · intro hends
    cases Group.flatMap_chars_end spell.groups with
    | inl hempty =>
      refine ⟨(groups_eq_nil_iff spell h.leading).mp hempty, ?_⟩
      rw [stem, hempty, List.flatMap_nil, List.append_nil] at hends
      by_cases hroll : spell.rollAgain = true
      · rw [if_pos hroll] at hends
        have hfront : rollAgainMark ++ spell.base.toList = ['R'] ++ 'A' :: spell.base.toList := rfl
        rw [hfront] at hends
        exact hends.of_append_cons (by decide) (by decide)
      · rw [if_neg hroll] at hends
        exact hends
    | inr hgroups =>
      obtain ⟨front, hfront⟩ := hgroups
      rw [stem, hfront, ← List.append_assoc, ← List.append_assoc] at hends
      exact absurd (hends.of_append_cons (by decide) (by decide)) not_endsInDigits_nil
  · rintro ⟨hfirst, hends⟩
    rw [stem, (groups_eq_nil_iff spell h.leading).mpr hfirst, List.flatMap_nil, List.append_nil]
    exact hends.append _

/-- The canonical code of a legible spell is read as that spell, unless only a base is written and
the base ends like a code with a scaling. -/
theorem ofChars_chars_iff (h : spell.Legible) :
    ofChars spell.chars = spell ↔ ¬spell.EndsLikeScaled := by
  cases h.scaling with
  | inl hdigits =>
    have hsplit : splitScaling spell.chars = (spell.stem, spell.scaling) := by
      rw [chars_eq_stem_append, splitScaling_append_scalingSuffix _ hdigits]
    refine ⟨fun _ hscaled => hdigits.ne_missing hscaled.scaling, fun _ => ?_⟩
    exact h.ofChars_of_splitScaling hsplit
  | inr hmissing =>
    have hchars : spell.chars = spell.stem := by
      rw [chars_eq_stem_append, hmissing]
      exact List.append_nil _
    rw [hchars]
    -- without a suffix of its own the stem decides whether one is read
    constructor
    · intro hread hscaled
      have hends : EndsInDigits spell.stem :=
        h.endsInDigits_stem_iff.mpr ⟨hscaled.first, hscaled.base⟩
      have hscaling : (splitScaling spell.stem).2 = {} :=
        (congrArg Spell.scaling hread).trans hmissing
      cases splitScaling_scaling spell.stem with
      | inl hdigits => exact hdigits.2.ne_missing hscaling
      | inr hwhole => exact hwhole.1 hends
    · intro hplain
      have hends : ¬EndsInDigits spell.stem := by
        intro hends
        obtain ⟨hfirst, hbase⟩ := h.endsInDigits_stem_iff.mp hends
        exact hplain ⟨hfirst, hmissing, hbase⟩
      have hsplit : splitScaling spell.stem = (spell.stem, spell.scaling) := by
        rw [splitScaling_of_not_endsInDigits hends, hmissing]
      exact h.ofChars_of_splitScaling hsplit

end Legible

/-! ## What can be read -/

/-- A spell is read from some text exactly if it is legible. -/
theorem exists_ofChars_iff (spell : Spell) : (∃ cs, ofChars cs = spell) ↔ spell.Legible := by
  constructor
  · rintro ⟨cs, rfl⟩
    exact legible_ofChars cs
  · intro h
    cases h.scaling with
    | inl hdigits =>
      have hplain : ¬spell.EndsLikeScaled := fun hscaled => hdigits.ne_missing hscaled.scaling
      exact ⟨spell.chars, h.ofChars_chars_iff.mpr hplain⟩
    | inr hmissing => exact ⟨spell.stem ++ ['{'], h.ofChars_stem_append_brace hmissing⟩

/-- A spell is read from its own canonical code exactly if it is legible and is not one of which
only a base is written that ends like a code with a scaling. -/
theorem ofChars_chars_eq_iff (spell : Spell) :
    ofChars spell.chars = spell ↔ spell.Legible ∧ ¬spell.EndsLikeScaled := by
  constructor
  · intro hread
    have h : spell.Legible := (exists_ofChars_iff spell).mp ⟨spell.chars, hread⟩
    exact ⟨h, h.ofChars_chars_iff.mp hread⟩
  · rintro ⟨h, hplain⟩
    exact h.ofChars_chars_iff.mpr hplain

/-- Reading a canonical code is reading its characters. -/
theorem ofCode_code (spell : Spell) : ofCode spell.code = ofChars spell.chars := by
  rw [ofCode, Spell.code, String.toList_ofList]

/-- Among all spells, however they were made, the legible ones are those that some code is read as,
and those of them that do not end like scaled ones are the ones that their own code is read as. -/
theorem ofCode_eq_iff (spell : Spell) :
    ((∃ code, ofCode code = spell) ↔ spell.Legible) ∧
      (ofCode spell.code = spell ↔ spell.Legible ∧ ¬spell.EndsLikeScaled) := by
  refine ⟨?_, ?_⟩
  · rw [← exists_ofChars_iff]
    constructor
    · rintro ⟨code, hread⟩
      exact ⟨code.text.toList, hread⟩
    · rintro ⟨cs, hread⟩
      refine ⟨⟨String.ofList cs⟩, ?_⟩
      rw [ofCode, String.toList_ofList]
      exact hread
  · rw [ofCode_code, ofChars_chars_eq_iff]

/-- For every code, reading its canonical code again gives the same spell exactly when it is not
the case that only a base is written and the base ends like a code with a scaling. -/
theorem ofCode_code_ofCode_iff (code : Code) :
    ofCode (ofCode code).code = ofCode code ↔ ¬(ofCode code).EndsLikeScaled := by
  rw [ofCode_code]
  exact (legible_ofChars code.text.toList).ofChars_chars_iff

/-- An open brace hides the end of a base, so that the canonical code is read as another spell. -/
theorem not_forall_ofCode_code_ofCode :
    ¬∀ code : Code, ofCode (ofCode code).code = ofCode code := by
  intro hall
  exact absurd (hall ⟨"ATT-123\x7b"⟩) (by decide)

end Spell

end DiceDuel
