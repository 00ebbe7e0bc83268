import DiceDuel.Proofs.Spell.Catalog
import DiceDuel.Proofs.Spell.Rereading
import DiceDuel.Proofs.Spell.Writing
import DiceDuel.Proofs.Text.Utf8

/-!
# Looking bases up

Bases may be looked up among the bytes of a text: the words of the bases without parts first, then
the patterns with a focus and a reach, and the faces of the die. All letters of the catalog are
ASCII characters, so a text of other characters that happens to have three bytes names nothing, and
the bytes name the base that the characters name. The texts that are found are the 44 words of the
catalog, each with its own base, and none of them begins with the mark of a gated spell.
-/

namespace DiceDuel

open Text

/-- What is found by a key has this key. -/
theorem eq_of_find?_beq {α β : Type} [BEq β] [LawfulBEq β] (key : α → β) {items : List α} {b : β}
    {a : α} (hread : items.find? (fun item => key item == b) = some a) : key a = b := by
  have hfound := List.find?_some hread
  exact eq_of_beq hfound

namespace Base

/-- The part whose letter has the given byte. -/
def partOfByte? {α : Type} (parts : List α) (letter : α → Char) (b : UInt8) : Option α :=
  parts.find? fun part => byte (letter part) == b

/-- A part that is found for a byte has a letter with this byte. -/
theorem byte_of_partOfByte? {α : Type} {parts : List α} {letter : α → Char} {b : UInt8} {part : α}
    (hread : partOfByte? parts letter b = some part) : byte (letter part) = b :=
  eq_of_find?_beq (fun part => byte (letter part)) hread

/-- The three bytes of a base. -/
def bytes (base : Base) : List UInt8 := base.letters.map byte

/-- The words of the bases without parts. -/
def fixedWords : List (String × Base) :=
  [("ATT", attack), ("PAT", prepAttack), ("GUA", guard), ("HEA", heal), ("STU", stun),
    ("FRZ", freeze), ("EMP", empower), ("CON", confuse)]

/-- The base without parts that the given bytes name, if there is one. -/
def ofFixedBytes? (bytes : List UInt8) : Option Base :=
  (fixedWords.find? fun entry => utf8 entry.1.toList == bytes).map (·.2)

/-- The base with a focus and a reach, or with a face, that the given bytes name, if there is
one. -/
def ofComposedBytes? : List UInt8 → Option Base
  | [kind, second, third] =>
    if kind = byte 'B' then do
      let focus ← partOfByte? Focus.all Focus.buffLetter second
      let reach ← partOfByte? Reach.all Reach.letter third
      return buff focus reach
    else if kind = byte 'C' then do
      let focus ← partOfByte? Focus.all Focus.chargeLetter second
      let reach ← partOfByte? Reach.all Reach.letter third
      return charge focus reach
    else if kind = byte 'I' ∧ second = byte 'D' ∧ byte '1' ≤ third ∧ third ≤ byte '6' then
      some (dice (third - byte '0'))
    else none
  | _ => none

/-- The base that the given bytes name, if there is one. The words of the bases without parts come
first, since one of them begins like a charge. -/
def ofBytes? (bytes : List UInt8) : Option Base :=
  (ofFixedBytes? bytes).or (ofComposedBytes? bytes)

/-! ## What bytes name -/

/-- The words of the bases without parts are in the catalog. -/
theorem mem_all_of_mem_fixedWords : ∀ entry ∈ fixedWords,
    entry.2 ∈ all ∧ entry.2.bytes = utf8 entry.1.toList := by
  decide

/-- The bytes of a base name the base. -/
theorem ofBytes?_bytes : ∀ base ∈ all, ofBytes? base.bytes = some base := by
  decide

/-- What bytes of a word name is a base of the catalog with these bytes. -/
theorem of_ofFixedBytes? {bytes : List UInt8} {base : Base}
    (hread : ofFixedBytes? bytes = some base) : base ∈ all ∧ base.bytes = bytes := by
  obtain ⟨entry, hentry, rfl⟩ := Option.map_eq_some_iff.mp hread
  obtain ⟨hbase, hbytes⟩ := mem_all_of_mem_fixedWords entry (List.mem_of_find?_eq_some hentry)
  have hkey : utf8 entry.1.toList = bytes :=
    eq_of_find?_beq (fun entry : String × Base => utf8 entry.1.toList) hentry
  exact ⟨hbase, hbytes.trans hkey⟩

/-- A byte from one to six is the last byte of the base of a face. -/
theorem of_dice_byte {b : UInt8} (hlow : byte '1' ≤ b) (hhigh : b ≤ byte '6') :
    dice (b - byte '0') ∈ all ∧ (dice (b - byte '0')).bytes = [byte 'I', byte 'D', b] := by
  have hfaces : ∀ n ∈ List.range' 49 6, dice (UInt8.ofNat n - byte '0') ∈ all ∧
      (dice (UInt8.ofNat n - byte '0')).bytes = [byte 'I', byte 'D', UInt8.ofNat n] := by
    decide
  have hrange : b.toNat ∈ List.range' 49 6 :=
    List.mem_range'_1.mpr ⟨UInt8.le_iff_toNat_le.mp hlow, Nat.lt_succ_of_le hhigh⟩
  simpa only [UInt8.ofNat_toNat] using hfaces b.toNat hrange

/-- What bytes of a pattern name is a base of the catalog with these bytes. -/
theorem of_ofComposedBytes? {bytes : List UInt8} {base : Base}
    (hread : ofComposedBytes? bytes = some base) : base ∈ all ∧ base.bytes = bytes := by
  unfold ofComposedBytes? at hread
  split at hread
  case h_2 => cases hread
  case h_1 kind second third =>
    split_ifs at hread with hbuff hcharge hdice
    · obtain ⟨focus, hfocus, hrest⟩ := Option.bind_eq_some_iff.mp hread
      obtain ⟨reach, hreach, hbase⟩ := Option.bind_eq_some_iff.mp hrest
      cases hbase
      have hsecond : byte focus.buffLetter = second := byte_of_partOfByte? hfocus
      have hthird : byte reach.letter = third := byte_of_partOfByte? hreach
      refine ⟨(composed_mem_all focus reach).1, ?_⟩
      rw [hbuff, ← hsecond, ← hthird]
      rfl
    · obtain ⟨focus, hfocus, hrest⟩ := Option.bind_eq_some_iff.mp hread
      obtain ⟨reach, hreach, hbase⟩ := Option.bind_eq_some_iff.mp hrest
      cases hbase
      have hsecond : byte focus.chargeLetter = second := byte_of_partOfByte? hfocus
      have hthird : byte reach.letter = third := byte_of_partOfByte? hreach
      refine ⟨(composed_mem_all focus reach).2, ?_⟩
      rw [hcharge, ← hsecond, ← hthird]
      rfl
    · obtain ⟨hkind, hsecond, hlow, hhigh⟩ := hdice
      cases hread
      rw [hkind, hsecond]
      exact of_dice_byte hlow hhigh

/-- Bytes name a base exactly if the base is in the catalog and has these bytes. -/
theorem ofBytes?_eq_some_iff {bytes : List UInt8} {base : Base} :
    ofBytes? bytes = some base ↔ base ∈ all ∧ base.bytes = bytes := by
  constructor
  · intro hread
    rw [ofBytes?, Option.or_eq_some_iff] at hread
    cases hread with
    | inl hfixed => exact of_ofFixedBytes? hfixed
    | inr hcomposed => exact of_ofComposedBytes? hcomposed.2
  · rintro ⟨hbase, rfl⟩
    exact ofBytes?_bytes base hbase

/-! ## Bytes and characters -/

/-- The letters of the catalog are one byte each. -/
theorem bytes_eq_utf8_letters : ∀ base ∈ all, base.bytes = utf8 base.letters := by
  decide

/-- A text has the bytes of a base exactly if it is written like the base. -/
theorem bytes_eq_utf8_iff {base : Base} (hbase : base ∈ all) {text : String} :
    base.bytes = utf8 text.toList ↔ base.code = text := by
  rw [bytes_eq_utf8_letters base hbase, utf8_inj, code, ← String.toList_inj, String.toList_ofList]

/-- The bytes of a text name the base that its characters name. -/
theorem ofBytes?_utf8 (text : String) : ofBytes? (utf8 text.toList) = ofCode? text := by
  apply Option.ext
  intro base
  rw [ofBytes?_eq_some_iff, ofCode?_eq_some_iff]
  exact and_congr_right fun hbase => bytes_eq_utf8_iff hbase

/-! ## The words of the catalog -/

/-- A base is written with three letters. -/
theorem length_letters (base : Base) : base.letters.length = 3 := by
  cases base <;> rfl

/-- Bases of the catalog that are written alike are the same. -/
theorem eq_of_code_eq {base other : Base} (hbase : base ∈ all) (hother : other ∈ all)
    (hsame : base.code = other.code) : base = other := by
  have hread : ofCode? other.code = some base := by
    rw [← hsame]
    exact ofCode?_code hbase
  rw [ofCode?_code hother] at hread
  exact (Option.some.inj hread).symm

/-- The spell of which only a base is written. -/
def bareSpell (base : Base) : Spell := ⟨base.code, none, ∅, {}, false⟩

/-- The bare spell of a base of the catalog has the form that reading gives. -/
theorem legible_bareSpell {base : Base} (hbase : base ∈ all) : base.bareSpell.Legible := by
  obtain ⟨hbrace, -, hmark⟩ := letters_of_mem_all base hbase
  have hlist : base.bareSpell.base.toList = base.letters := String.toList_ofList
  rw [← hlist] at hbrace hmark
  exact {
    base := hbrace
    mark := .inr hmark
    leading := fun _ => rfl
    first := fun _ hraw => nomatch hraw
    tokens := fun _ _ hraw => nomatch hraw
    scaling := .inr rfl }

/-- Three letters are too few for a scaling. -/
theorem not_endsLikeScaled_bareSpell (base : Base) : ¬base.bareSpell.EndsLikeScaled := by
  intro hends
  obtain ⟨t, l, p, -, -, -, hsuffix⟩ := hends.base
  have hlist : base.bareSpell.base.toList = base.letters := String.toList_ofList
  have hlength : 4 ≤ base.bareSpell.base.toList.length := hsuffix.length_le
  rw [hlist, length_letters] at hlength
  exact absurd hlength (by decide)

/-- The written form of a base of the catalog is read as its bare spell. -/
theorem ofCode_code {base : Base} (hbase : base ∈ all) :
    Spell.ofCode ⟨base.code⟩ = base.bareSpell := by
  have hchars : base.bareSpell.chars = base.code.toList := by
    have hnone : [] ++ base.code.toList ++ [] ++ [] ++ [] = base.code.toList := by
      simp only [List.nil_append, List.append_nil]
    exact hnone
  have hread : Spell.ofChars base.bareSpell.chars = base.bareSpell :=
    (legible_bareSpell hbase).ofChars_chars_iff.mpr (not_endsLikeScaled_bareSpell base)
  rw [hchars] at hread
  exact hread

/-- The catalog is the language of the lookup. A text of any characters names a base exactly if the
base is in the catalog and is written so, among the bytes of the text as well as among its
characters, and the texts outside the 44 words name nothing. The catalog lists no base twice and
writes no two alike, and the code of a base alone is the spell of that base, without the mark. -/
theorem ofCode?_exactly_catalog :
    (∀ (text : String) (base : Base), ofCode? text = some base ↔ base ∈ all ∧ base.code = text) ∧
      (∀ text : String, ofBytes? (utf8 text.toList) = ofCode? text) ∧
      (∀ text : String, ofCode? text = none ↔ text ∉ all.map code) ∧
      (all.map code).length = 44 ∧ all.Nodup ∧
      (∀ base ∈ all, ∀ other ∈ all, base.code = other.code → base = other) ∧
      ∀ base ∈ all, ¬Spell.rollAgainMark <+: base.code.toList ∧
        (Spell.ofCode ⟨base.code⟩).knownBase? = some base ∧
        (Spell.ofCode ⟨base.code⟩).rollAgain = false := by
  have hnone (text : String) : ofCode? text = none ↔ text ∉ all.map code := by
    rw [ofCode?_eq_none_iff, List.mem_map]
    constructor
    · rintro hother ⟨base, hbase, hcode⟩
      exact hother base hbase hcode
    · intro hmem base hbase hcode
      exact hmem ⟨base, hbase, hcode⟩
  have hspell : ∀ base ∈ all, ¬Spell.rollAgainMark <+: base.code.toList ∧
      (Spell.ofCode ⟨base.code⟩).knownBase? = some base ∧
      (Spell.ofCode ⟨base.code⟩).rollAgain = false := by
    intro base hbase
    have hlist : base.code.toList = base.letters := String.toList_ofList
    rw [ofCode_code hbase, hlist]
    exact ⟨(letters_of_mem_all base hbase).2.2, ofCode?_code hbase, rfl⟩
  exact ⟨fun _ _ => ofCode?_eq_some_iff, ofBytes?_utf8, hnone, rfl, by decide,
    fun _ hbase _ hother => eq_of_code_eq hbase hother, hspell⟩

/-- Two texts of three bytes that are not three characters, and a face outside the die. -/
example : ofCode? "愛" = none ∧ ofCode? "Bé" = none ∧ ofCode? "ID7" = none := by
  decide

end Base

end DiceDuel
