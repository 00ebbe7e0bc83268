import DiceDuel.Proofs.Spell.Grammar
import DiceDuel.Proofs.Text.Utf8

/-!
# Codes as bytes

All signs of a code are ASCII characters. So a reader may look for them among the bytes of a code:
the layout that a cursor finds there is the layout of the characters, part by part in bytes, and no
character is cut.
-/

namespace DiceDuel

open Text

/-- The signs of codes as bytes. -/
def Signs.bytes : Signs UInt8 where
  opening := byte '{'
  closing := byte '}'
  hyphen := byte '-'
  mark := Spell.rollAgainMark.map byte
  isDigit b := byte '0' ≤ b && b ≤ byte '9'
  closing_ne_opening := by decide

/-- The bytes of a chunk. -/
def Chunk.utf8 (chunk : Chunk Char) : Chunk UInt8 := ⟨Text.utf8 chunk.gap, Text.utf8 chunk.raw⟩

/-- The bytes of a layout, part by part. -/
def Layout.utf8 (layout : Layout Char) : Layout UInt8 where
  mark := layout.mark
  base := Text.utf8 layout.base
  chunks := layout.chunks.map Chunk.utf8
  tail := Text.utf8 layout.tail
  suffix := layout.suffix.map fun digits => (byte digits.1, byte digits.2.1, byte digits.2.2)

namespace Text

/-- Digits are ASCII characters. -/
theorem isAscii_of_isDigit {c : Char} (hc : c.isDigit = true) : IsAscii c :=
  Nat.le_trans (Char.isDigit_iff_toNat.mp hc).2 (by decide)

/-- The byte of a digit is a digit. -/
theorem isDigit_byte {c : Char} (hc : c.isDigit = true) : Signs.bytes.isDigit (byte c) = true := by
  have hrange := Char.isDigit_iff_toNat.mp hc
  have hvalue := toNat_byte (isAscii_of_isDigit hc)
  simp only [Signs.bytes, Bool.and_eq_true, decide_eq_true_eq, UInt8.le_iff_toNat_le, hvalue]
  exact hrange

/-- A digit among the bytes is the byte of a digit. -/
theorem exists_byte_of_isDigit {b : UInt8} (hb : Signs.bytes.isDigit b = true) :
    ∃ c : Char, c.isDigit = true ∧ byte c = b := by
  simp only [Signs.bytes, Bool.and_eq_true, decide_eq_true_eq, UInt8.le_iff_toNat_le] at hb
  have hrange : '0'.toNat ≤ b.toNat ∧ b.toNat ≤ '9'.toNat := hb
  have hvalue : (Char.ofUInt8 b).toNat = b.toNat := UInt8.toNat_toUInt32 b
  refine ⟨Char.ofUInt8 b, ?_, ?_⟩
  · rw [Char.isDigit_iff_toNat, hvalue]
    exact hrange
  · rw [byte, hvalue, UInt8.ofNat_toNat]

end Text

/-- The braces are ASCII characters. -/
theorem Signs.isAscii_braces : IsAscii '{' ∧ IsAscii '}' := by decide

/-- Bytes open a group where the characters do. -/
theorem Signs.opening_mem_utf8 {cs : List Char} :
    Signs.bytes.opening ∈ Text.utf8 cs ↔ Signs.chars.opening ∈ cs :=
  byte_mem_utf8 Signs.isAscii_braces.1

/-- Bytes close a group where the characters do. -/
theorem Signs.closing_mem_utf8 {cs : List Char} :
    Signs.bytes.closing ∈ Text.utf8 cs ↔ Signs.chars.closing ∈ cs :=
  byte_mem_utf8 Signs.isAscii_braces.2

/-- An opening brace is one byte. -/
theorem Signs.utf8_opening_cons (more : List Char) :
    Text.utf8 (Signs.chars.opening :: more) = Signs.bytes.opening :: Text.utf8 more :=
  utf8_cons Signs.isAscii_braces.1 more

/-- The bytes of a chunk as it is written. -/
theorem Chunk.text_utf8 (chunk : Chunk Char) :
    chunk.utf8.text Signs.bytes = Text.utf8 (chunk.text Signs.chars) := by
  have hclosing : Text.utf8 [Signs.chars.closing] = [Signs.bytes.closing] :=
    utf8_cons Signs.isAscii_braces.2 []
  rw [text, text, utf8_append, Signs.utf8_opening_cons, utf8_append, hclosing]
  rfl

namespace Layout

variable {layout : Layout Char}

/-- The bytes of what stands behind the base. -/
theorem behind_utf8 (layout : Layout Char) :
    layout.utf8.behind Signs.bytes = Text.utf8 (layout.behind Signs.chars) := by
  have hchunks : (layout.chunks.map Chunk.utf8).flatMap (Chunk.text Signs.bytes) =
      Text.utf8 (layout.chunks.flatMap (Chunk.text Signs.chars)) := by
    rw [List.flatMap_map]
    simp only [Chunk.text_utf8]
    exact List.flatMap_assoc.symm
  rw [behind, behind, utf8_append, ← hchunks]
  rfl

/-- The bytes of what stands behind the mark. -/
theorem rest_utf8 (layout : Layout Char) :
    layout.utf8.rest Signs.bytes = Text.utf8 (layout.rest Signs.chars) := by
  rw [rest, rest, utf8_append, behind_utf8]
  rfl

/-- The bytes of a suffix with digits. -/
theorem ending_byte {t l p : Char} (ht : t.isDigit = true) (hl : l.isDigit = true)
    (hp : p.isDigit = true) :
    (∀ c ∈ ['-', t, l, p], IsAscii c) ∧
      [byte '-', byte t, byte l, byte p] = Text.utf8 ['-', t, l, p] := by
  have hascii : ∀ c ∈ ['-', t, l, p], IsAscii c := by
    simp only [List.forall_mem_cons]
    exact ⟨by decide, isAscii_of_isDigit ht, isAscii_of_isDigit hl, isAscii_of_isDigit hp,
      fun _ hmem => (List.not_mem_nil hmem).elim⟩
  exact ⟨hascii, (utf8_of_ascii hascii).symm⟩

/-- The bytes of the whole text. -/
theorem Proper.text_utf8 (h : layout.Proper Signs.chars) :
    layout.utf8.text Signs.bytes = Text.utf8 (layout.text Signs.chars) := by
  have hfront : Signs.bytes.front layout.mark = Text.utf8 (Signs.chars.front layout.mark) := by
    cases layout.mark <;> rfl
  have hending : Signs.bytes.ending layout.utf8.suffix =
      Text.utf8 (Signs.chars.ending layout.suffix) := by
    unfold Layout.utf8
    cases hsuffix : layout.suffix with
    | none => rfl
    | some digits =>
      obtain ⟨t, l, p⟩ := digits
      obtain ⟨ht, hl, hp⟩ := h.digits t l p hsuffix
      exact (ending_byte ht hl hp).2
  rw [text, text, body, body, utf8_append, utf8_append, ← hfront, ← hending, ← rest_utf8]
  rfl

/-- Bytes end in a hyphen and three digits only if the characters do. -/
theorem endsInDigits_of_utf8 {cs : List Char} (hends : Signs.bytes.EndsInDigits (Text.utf8 cs)) :
    Signs.chars.EndsInDigits cs := by
  obtain ⟨bt, bl, bp, hbt, hbl, hbp, hsuffix⟩ := hends
  obtain ⟨t, ht, rfl⟩ := exists_byte_of_isDigit hbt
  obtain ⟨l, hl, rfl⟩ := exists_byte_of_isDigit hbl
  obtain ⟨p, hp, rfl⟩ := exists_byte_of_isDigit hbp
  obtain ⟨hascii, hbytes⟩ := ending_byte ht hl hp
  have hutf8 : Text.utf8 ['-', t, l, p] <:+ Text.utf8 cs := by
    rw [← hbytes]
    exact hsuffix
  exact ⟨t, l, p, ht, hl, hp, suffix_of_utf8 hascii hutf8⟩

/-- The bytes of a proper layout are a proper layout. -/
theorem Proper.utf8 (h : layout.Proper Signs.chars) : layout.utf8.Proper Signs.bytes where
  digits := by
    intro bt bl bp hsuffix
    obtain ⟨⟨t, l, p⟩, hdigits, hbytes⟩ := Option.map_eq_some_iff.mp hsuffix
    cases hbytes
    obtain ⟨ht, hl, hp⟩ := h.digits t l p hdigits
    exact ⟨isDigit_byte ht, isDigit_byte hl, isDigit_byte hp⟩
  ending := by
    intro hsuffix hends
    rw [h.text_utf8] at hends
    exact h.ending (Option.map_eq_none_iff.mp hsuffix) (endsInDigits_of_utf8 hends)
  mark := by
    intro hmark hfront
    have hascii : ∀ c ∈ Spell.rollAgainMark, IsAscii c := by
      simp only [Spell.rollAgainMark, List.forall_mem_cons]
      exact ⟨by decide, by decide, fun _ hmem => (List.not_mem_nil hmem).elim⟩
    rw [rest_utf8] at hfront
    exact h.mark hmark (prefix_of_utf8 hascii hfront)
  base := fun hmem => h.base (Signs.opening_mem_utf8.mp hmem)
  chunks := by
    intro bytes hmem
    obtain ⟨chunk, hchunk, rfl⟩ := List.mem_map.mp hmem
    have hproper := h.chunks chunk hchunk
    exact ⟨fun hgap => hproper.gap (Signs.opening_mem_utf8.mp hgap),
      fun hraw => hproper.raw (Signs.closing_mem_utf8.mp hraw)⟩
  first := by
    intro bytes hhead
    unfold Layout.utf8 at hhead
    rw [List.head?_map] at hhead
    obtain ⟨chunk, hchunk, rfl⟩ := Option.map_eq_some_iff.mp hhead
    rw [Chunk.utf8, h.first chunk hchunk]
    rfl
  tail := by
    change Signs.bytes.closing ∉ (Text.utf8 layout.tail).dropWhile (· != Signs.bytes.opening)
    rcases Signs.tail_cases h.tail with hnone | ⟨gap, more, htail, hgap, hmore⟩
    · have hopening : Signs.bytes.opening ∉ Text.utf8 layout.tail :=
        fun hmem => hnone (Signs.opening_mem_utf8.mp hmem)
      rw [Signs.dropWhile_of_notMem hopening]
      exact List.not_mem_nil
    · have hopening : Signs.bytes.opening ∉ Text.utf8 gap :=
        fun hmem => hgap (Signs.opening_mem_utf8.mp hmem)
      rw [htail, utf8_append, Signs.utf8_opening_cons, Signs.dropWhile_append_opening hopening,
        List.mem_cons, not_or]
      exact ⟨Signs.bytes.closing_ne_opening, fun hmem => hmore (Signs.closing_mem_utf8.mp hmem)⟩
  bare := by
    intro hnone
    change Text.utf8 layout.tail = [] ∨ ∃ more, Text.utf8 layout.tail = _ :: more
    rcases h.bare (List.map_eq_nil_iff.mp hnone) with hnil | ⟨more, hmore⟩
    · rw [hnil]
      exact .inl rfl
    · rw [hmore]
      exact .inr ⟨Text.utf8 more, Signs.utf8_opening_cons more⟩

end Layout

/-- Every code has exactly one proper layout. The spell that is read from the code has its parts,
and a cursor on the bytes of the code finds the bytes of each part. -/
theorem Spell.ofCode_hasLayout (code : Code) :
    ∃ layout : Layout Char,
      (∀ other : Layout Char, other.Proper Signs.chars ∧
        other.text Signs.chars = code.text.toList ↔ other = layout) ∧
      (ofCode code).HasLayout layout ∧
      Signs.bytes.read code.text.toUTF8.data.toList = layout.utf8 := by
  obtain ⟨layout, hlayout, htext⟩ := Layout.exists_proper Signs.chars code.text.toList
  refine ⟨layout, fun other => ⟨?_, ?_⟩, ?_, ?_⟩
  · rintro ⟨hother, hsame⟩
    exact hlayout.unique hother (hsame.trans htext.symm)
  · rintro rfl
    exact ⟨hlayout, htext⟩
  · rw [ofCode, ← htext]
    exact hlayout.hasLayout
  · rw [← utf8_toList, ← htext, ← hlayout.text_utf8]
    exact hlayout.utf8.read_text

end DiceDuel
