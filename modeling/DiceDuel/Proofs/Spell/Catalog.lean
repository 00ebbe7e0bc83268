import DiceDuel.Spell.Base

/-!
# The catalog of bases

The reader of letters and the writer of letters are two tables, one with the bases on its right and
one with them on its left. Over the bases of the catalog they are inverse to each other: a text is
read as a base exactly if the base is in the catalog and is written so.
-/

namespace DiceDuel

/-- The second letter of a buff is the one of its focus. -/
theorem Focus.buffLetter_of_ofBuffLetter? {letter : Char} {focus : Focus}
    (hread : Focus.ofBuffLetter? letter = some focus) : focus.buffLetter = letter := by
  unfold Focus.ofBuffLetter? at hread
  split at hread <;> cases hread <;> rfl

/-- The second letter of a charge is the one of its focus. -/
theorem Focus.chargeLetter_of_ofChargeLetter? {letter : Char} {focus : Focus}
    (hread : Focus.ofChargeLetter? letter = some focus) : focus.chargeLetter = letter := by
  unfold Focus.ofChargeLetter? at hread
  split at hread <;> cases hread <;> rfl

/-- The third letter of a buff or a charge is the one of its reach. -/
theorem Reach.letter_of_ofLetter? {letter : Char} {reach : Reach}
    (hread : Reach.ofLetter? letter = some reach) : reach.letter = letter := by
  unfold Reach.ofLetter? at hread
  split at hread <;> cases hread <;> rfl

namespace Base

/-- The catalog has the buffs and the charges of every focus and every reach. -/
theorem composed_mem_all (focus : Focus) (reach : Reach) :
    buff focus reach ∈ all ∧ charge focus reach ∈ all := by
  cases focus <;> cases reach <;> decide

/-- The catalog has the die of every face, and its third letter is the one of the face. -/
theorem of_faceOfLetter? {letter : Char} {face : UInt8}
    (hread : faceOfLetter? letter = some face) :
    dice face ∈ all ∧ (dice face).letters = ['I', 'D', letter] := by
  unfold faceOfLetter? at hread
  split at hread <;> cases hread <;> decide

/-- The letters of a base are read as the base. -/
theorem ofLetters?_letters : ∀ base ∈ all, ofLetters? base.letters = some base := by
  decide

/-- A base without parts is read from its letters. -/
theorem of_ofFixedLetters? {letters : List Char} {base : Base}
    (hread : ofFixedLetters? letters = some base) : base ∈ all ∧ base.letters = letters := by
  unfold ofFixedLetters? at hread
  split at hread <;> cases hread <;> decide

/-- A base with parts is read from its letters. -/
theorem of_ofComposedLetters? {letters : List Char} {base : Base}
    (hread : ofComposedLetters? letters = some base) : base ∈ all ∧ base.letters = letters := by
  unfold ofComposedLetters? at hread
  split at hread
  case h_1 f r =>
    obtain ⟨focus, hfocus, hrest⟩ := Option.bind_eq_some_iff.mp hread
    obtain ⟨reach, hreach, hbase⟩ := Option.bind_eq_some_iff.mp hrest
    cases hbase
    refine ⟨(composed_mem_all focus reach).1, ?_⟩
    rw [Base.letters, Focus.buffLetter_of_ofBuffLetter? hfocus, Reach.letter_of_ofLetter? hreach]
  case h_2 f r =>
    obtain ⟨focus, hfocus, hrest⟩ := Option.bind_eq_some_iff.mp hread
    obtain ⟨reach, hreach, hbase⟩ := Option.bind_eq_some_iff.mp hrest
    cases hbase
    refine ⟨(composed_mem_all focus reach).2, ?_⟩
    rw [Base.letters, Focus.chargeLetter_of_ofChargeLetter? hfocus,
      Reach.letter_of_ofLetter? hreach]
  case h_3 d =>
    obtain ⟨face, hface, hbase⟩ := Option.bind_eq_some_iff.mp hread
    cases hbase
    exact of_faceOfLetter? hface
  case h_4 => cases hread

/-- What is read from letters is a base of the catalog that is written with them. -/
theorem of_ofLetters? {letters : List Char} {base : Base}
    (hread : ofLetters? letters = some base) : base ∈ all ∧ base.letters = letters := by
  rw [ofLetters?, Option.or_eq_some_iff] at hread
  cases hread with
  | inl hfixed => exact of_ofFixedLetters? hfixed
  | inr hcomposed => exact of_ofComposedLetters? hcomposed.2

/-- The written form of a base is read as the base. -/
theorem ofCode?_code {base : Base} (hbase : base ∈ all) : ofCode? base.code = some base := by
  rw [ofCode?, code, String.toList_ofList]
  exact ofLetters?_letters base hbase

/-- A text is read as a base exactly if the base is in the catalog and is written so. -/
theorem ofCode?_eq_some_iff {text : String} {base : Base} :
    ofCode? text = some base ↔ base ∈ all ∧ base.code = text := by
  constructor
  · intro hread
    obtain ⟨hbase, hletters⟩ := of_ofLetters? hread
    refine ⟨hbase, ?_⟩
    rw [code, hletters, String.ofList_toList]
  · rintro ⟨hbase, rfl⟩
    exact ofCode?_code hbase

/-- A text is read as no base exactly if no base of the catalog is written so. -/
theorem ofCode?_eq_none_iff {text : String} :
    ofCode? text = none ↔ ∀ base ∈ all, base.code ≠ text := by
  rw [Option.eq_none_iff_forall_ne_some]
  simp only [ne_eq, ofCode?_eq_some_iff, not_and]

end Base

end DiceDuel
