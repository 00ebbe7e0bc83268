import Mathlib.Data.List.Induction

/-!
# Bytes of a text

In UTF-8 an ASCII character is one byte, and no other character has a byte that small. So a search
for an ASCII character may look at bytes: it finds the same places, at the front, at the end and in
between.
-/

namespace DiceDuel.Text

/-- The bytes of a text. -/
def utf8 (cs : List Char) : List UInt8 := cs.flatMap String.utf8EncodeChar

/-- Whether a character is an ASCII character. -/
def IsAscii (c : Char) : Prop := c.toNat ≤ 127

instance (c : Char) : Decidable (IsAscii c) := inferInstanceAs (Decidable (c.toNat ≤ 127))

/-- The byte of an ASCII character. -/
def byte (c : Char) : UInt8 := UInt8.ofNat c.toNat

/-- The bytes of the characters of a string are its bytes. -/
theorem utf8_toList (s : String) : utf8 s.toList = s.toUTF8.data.toList := by
  have hencode : s.toUTF8 = s.toList.utf8Encode := String.utf8Encode_toList.symm
  rw [hencode, List.utf8Encode, List.data_toByteArray]
  rfl

/-- Texts with the same bytes are the same. -/
theorem utf8_inj {cs ds : List Char} : utf8 cs = utf8 ds ↔ cs = ds := by
  have hbytes (es : List Char) : utf8 es = (String.ofList es).toUTF8.data.toList := by
    rw [← utf8_toList, String.toList_ofList]
  rw [hbytes, hbytes, Array.toList_inj, ← ByteArray.ext_iff]
  exact String.toByteArray_inj.trans String.ofList_inj

/-- The bytes of two texts stand one behind the other. -/
@[simp] theorem utf8_append (cs ds : List Char) : utf8 (cs ++ ds) = utf8 cs ++ utf8 ds :=
  List.flatMap_append

variable {c d : Char} {cs : List Char}

theorem toNat_byte (hc : IsAscii c) : (byte c).toNat = c.toNat := by
  rw [byte, UInt8.toNat_ofNat']
  exact Nat.mod_eq_of_lt (Nat.lt_of_le_of_lt hc (by decide))

/-- ASCII characters have different bytes. -/
theorem byte_inj (hc : IsAscii c) (hd : IsAscii d) (hsame : byte c = byte d) : c = d := by
  have hvalue : c.toNat = d.toNat := by rw [← toNat_byte hc, hsame, toNat_byte hd]
  rw [← Char.ofNat_toNat c, hvalue, Char.ofNat_toNat]

/-- An ASCII character is one byte. -/
theorem encode_of_ascii (hc : IsAscii c) : String.utf8EncodeChar c = [byte c] := if_pos hc

/-- No byte of another character is that small. -/
theorem lt_of_mem_encode (hc : ¬IsAscii c) {b : UInt8} (hb : b ∈ String.utf8EncodeChar c) :
    127 < b.toNat := by
  have hlong : ¬c.val.toNat ≤ 127 := hc
  simp only [String.utf8EncodeChar, if_neg hlong] at hb
  split at hb
  · simp only [List.mem_cons, List.not_mem_nil, or_false] at hb
    rcases hb with rfl | rfl <;> simp only [UInt8.toNat_ofNat'] <;> omega
  · split at hb
    · simp only [List.mem_cons, List.not_mem_nil, or_false] at hb
      rcases hb with rfl | rfl | rfl <;> simp only [UInt8.toNat_ofNat'] <;> omega
    · simp only [List.mem_cons, List.not_mem_nil, or_false] at hb
      rcases hb with rfl | rfl | rfl | rfl <;> simp only [UInt8.toNat_ofNat'] <;> omega

/-- A small byte is the whole of a character. -/
theorem eq_of_mem_encode {b : UInt8} (hb : b.toNat ≤ 127) (hmem : b ∈ String.utf8EncodeChar c) :
    IsAscii c ∧ byte c = b := by
  by_cases hc : IsAscii c
  · rw [encode_of_ascii hc, List.mem_singleton] at hmem
    exact ⟨hc, hmem.symm⟩
  · exact absurd (lt_of_mem_encode hc hmem) (Nat.not_lt.mpr hb)

/-- The bytes of a text that begins with an ASCII character. -/
theorem utf8_cons (hc : IsAscii c) (cs : List Char) : utf8 (c :: cs) = byte c :: utf8 cs := by
  rw [utf8, List.flatMap_cons, encode_of_ascii hc]
  rfl

/-- The bytes of ASCII characters, one by one. -/
theorem utf8_of_ascii (hcs : ∀ c ∈ cs, IsAscii c) : utf8 cs = cs.map byte := by
  induction cs with
  | nil => rfl
  | cons c cs ih =>
    obtain ⟨hc, hothers⟩ := List.forall_mem_cons.mp hcs
    rw [utf8_cons hc, ih hothers, List.map_cons]

/-- The byte of an ASCII character stands for it alone. -/
theorem byte_mem_utf8 (hc : IsAscii c) : byte c ∈ utf8 cs ↔ c ∈ cs := by
  rw [utf8, List.mem_flatMap]
  constructor
  · rintro ⟨d, hd, hmem⟩
    have hbyte : (byte c).toNat ≤ 127 := by rwa [toNat_byte hc]
    obtain ⟨hascii, hsame⟩ := eq_of_mem_encode hbyte hmem
    rwa [byte_inj hc hascii hsame.symm]
  · intro hmem
    refine ⟨c, hmem, ?_⟩
    rw [encode_of_ascii hc]
    exact List.mem_singleton_self _

/-- Every character has bytes. -/
theorem encode_ne_nil (c : Char) : String.utf8EncodeChar c ≠ [] := by
  intro hnil
  have hlength := String.length_utf8EncodeChar c
  rw [hnil, List.length_nil] at hlength
  exact Nat.ne_of_gt c.utf8Size_pos hlength.symm

/-- A small byte at the front is the first character. -/
theorem exists_of_utf8_eq_cons {b : UInt8} {bytes : List UInt8} (hb : b.toNat ≤ 127)
    (hcs : utf8 cs = b :: bytes) :
    ∃ c rest, cs = c :: rest ∧ IsAscii c ∧ byte c = b ∧ utf8 rest = bytes := by
  cases cs with
  | nil => cases hcs
  | cons c rest =>
    have hmem : b ∈ String.utf8EncodeChar c := by
      obtain ⟨b', more, hencode⟩ := List.exists_cons_of_ne_nil (encode_ne_nil c)
      rw [utf8, List.flatMap_cons, hencode, List.cons_append, List.cons.injEq] at hcs
      rw [hencode, hcs.1]
      exact List.mem_cons_self
    obtain ⟨hc, hbyte⟩ := eq_of_mem_encode hb hmem
    rw [utf8_cons hc, List.cons.injEq] at hcs
    exact ⟨c, rest, rfl, hc, hcs⟩

/-- A small byte at the end is the last character. -/
theorem exists_of_utf8_eq_concat {b : UInt8} {bytes : List UInt8} (hb : b.toNat ≤ 127)
    (hcs : utf8 cs = bytes ++ [b]) :
    ∃ front c, cs = front ++ [c] ∧ IsAscii c ∧ byte c = b ∧ utf8 front = bytes := by
  rcases List.eq_nil_or_concat cs with rfl | ⟨front, c, rfl⟩
  · exact absurd hcs.symm (List.append_ne_nil_of_right_ne_nil _ (List.cons_ne_nil b []))
  · have hsingle : utf8 [c] = String.utf8EncodeChar c := List.flatMap_singleton ..
    rw [List.concat_eq_append, utf8_append, hsingle] at hcs
    have hmem : b ∈ String.utf8EncodeChar c := by
      obtain ⟨more, b', hencode⟩ := (List.eq_nil_or_concat _).resolve_left (encode_ne_nil c)
      rw [List.concat_eq_append] at hencode
      rw [hencode, ← List.append_assoc] at hcs
      rw [hencode, (List.append_inj' hcs rfl).2]
      exact List.mem_append_right more (List.mem_singleton_self b)
    obtain ⟨hc, hbyte⟩ := eq_of_mem_encode hb hmem
    rw [encode_of_ascii hc] at hcs
    obtain ⟨hfront, hlast⟩ := List.append_inj' hcs rfl
    exact ⟨front, c, List.concat_eq_append .., hc, (List.cons.inj hlast).1, hfront⟩

/-- ASCII characters are at the front of a text if their bytes are at the front of its bytes. -/
theorem prefix_of_utf8 {start : List Char} (hstart : ∀ c ∈ start, IsAscii c)
    (hstarts : utf8 start <+: utf8 cs) : start <+: cs := by
  induction start generalizing cs with
  | nil => exact List.nil_prefix
  | cons c start ih =>
    obtain ⟨hc, hothers⟩ := List.forall_mem_cons.mp hstart
    obtain ⟨more, hmore⟩ := hstarts
    rw [utf8_cons hc, List.cons_append] at hmore
    have hbyte : (byte c).toNat ≤ 127 := by rwa [toNat_byte hc]
    obtain ⟨d, rest, rfl, hd, hsame, hrest⟩ := exists_of_utf8_eq_cons hbyte hmore.symm
    rw [byte_inj hd hc hsame, List.cons_prefix_cons]
    exact ⟨rfl, ih hothers ⟨more, hrest.symm⟩⟩

/-- ASCII characters are at the end of a text if their bytes are at the end of its bytes. -/
theorem suffix_of_utf8 {ending : List Char} (hending : ∀ c ∈ ending, IsAscii c)
    (hsuffix : utf8 ending <:+ utf8 cs) : ending <:+ cs := by
  induction ending using List.reverseRecOn generalizing cs with
  | nil => exact List.nil_suffix
  | append_singleton ending c ih =>
    have hc : IsAscii c := hending c (List.mem_append_right _ (List.mem_singleton_self c))
    have hothers : ∀ d ∈ ending, IsAscii d := fun d hd => hending d (List.mem_append_left _ hd)
    obtain ⟨more, hmore⟩ := hsuffix
    have hlast : utf8 [c] = [byte c] := utf8_cons hc []
    rw [utf8_append, hlast, ← List.append_assoc] at hmore
    have hbyte : (byte c).toNat ≤ 127 := by rwa [toNat_byte hc]
    obtain ⟨front, d, rfl, hd, hsame, hfront⟩ := exists_of_utf8_eq_concat hbyte hmore.symm
    rw [byte_inj hd hc hsame]
    obtain ⟨before, rfl⟩ := ih hothers ⟨more, hfront.symm⟩
    exact ⟨before, (List.append_assoc ..).symm⟩

end DiceDuel.Text
