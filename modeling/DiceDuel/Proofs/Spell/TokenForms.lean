import DiceDuel.Spell.Value
import Mathlib.Data.List.Basic
import Mathlib.Data.List.Induction
import Mathlib.Data.Nat.Digits.Defs

/-!
# The forms of tokens

Three forms of tokens are special: a band, a bound of indices and a number within range. No token
has two of them, and one without any is plain text. What a token resolves to depends on its form and
on the mathematical value of its digits alone, however many zeros lead them.
-/

namespace DiceDuel

attribute [local instance (high)] instPowNat

/-! ## Numerals -/

namespace Text

/-- A run of at least one ASCII digit. -/
structure Digits (ds : List Char) : Prop where
  /-- There is a digit. -/
  nonempty : ds ≠ []
  /-- There is nothing else. -/
  digits : ∀ c ∈ ds, c.isDigit = true

/-- The number that decimal digits stand for, the last digit being that of the ones. -/
def decimal (ds : List Char) : Nat := Nat.ofDigits 10 (ds.map digitValue).reverse

variable {ds : List Char}

/-- A numeral is a run of digits. -/
theorem isNumeral_iff : isNumeral ds = true ↔ Digits ds := by
  have hall : ds.all Char.isDigit = true ↔ ∀ c ∈ ds, c.isDigit = true := List.all_eq_true
  rw [isNumeral, Bool.and_eq_true, hall, Bool.not_eq_true', List.isEmpty_eq_false_iff]
  exact ⟨fun h => ⟨h.1, h.2⟩, fun h => ⟨h.nonempty, h.digits⟩⟩

/-- A digit behind a number. -/
theorem decimal_concat (ds : List Char) (c : Char) :
    decimal (ds ++ [c]) = digitValue c + 10 * decimal ds := by
  simp only [decimal, List.map_append, List.map_singleton, List.reverse_concat, Nat.ofDigits_cons]

/-- The value that is read off a numeral from the left is the number it stands for. -/
theorem numeralValue_eq_decimal (ds : List Char) : numeralValue ds = decimal ds := by
  induction ds using List.reverseRecOn with
  | nil => rfl
  | append_singleton ds c ih =>
    rw [decimal_concat, ← ih]
    simp only [numeralValue, List.foldl_append, List.foldl_cons, List.foldl_nil]
    omega

/-- A digit stands for less than ten. -/
theorem digitValue_lt {c : Char} (hc : c.isDigit = true) : digitValue c < 10 := by
  have hrange : 48 ≤ c.toNat ∧ c.toNat ≤ 57 := Char.isDigit_iff_toNat.mp hc
  have hzero : '0'.toNat = 48 := rfl
  unfold digitValue
  omega

/-- A run of digits stands for less than the power of ten with as many zeros. -/
theorem decimal_lt (hds : Digits ds) : decimal ds < 10 ^ ds.length := by
  have hlt := Nat.ofDigits_lt_base_pow_length (b := 10) (l := (ds.map digitValue).reverse)
    (by decide) ?_
  · simpa [decimal] using hlt
  · intro d hd
    obtain ⟨c, hc, rfl⟩ := List.mem_map.mp (List.mem_reverse.mp hd)
    exact digitValue_lt (hds.digits c hc)

end Text

/-! ## Forms -/

namespace TokenForm

/-- The special forms of tokens. -/
inductive Special : List Char → TokenForm → Prop
  /-- The letter of bands and one or two digits. -/
  | band {ds : List Char} (digits : Text.Digits ds) (short : ds.length ≤ 2) :
      Special ('R' :: ds) (.band (Text.decimal ds))
  /-- The name of sequences and digits in parentheses. -/
  | upTo {ds : List Char} (digits : Text.Digits ds) :
      Special ("max(".toList ++ ds ++ [')']) (.upTo (Text.decimal ds))
  /-- Digits that stand for no more than the greatest integer. -/
  | number {ds : List Char} (digits : Text.Digits ds) (fits : Text.decimal ds ≤ 2 ^ 63 - 1) :
      Special ds (.number (Text.decimal ds))

/-- A token has a form: a special one, or plain text if there is no such. -/
def HasForm (cs : List Char) (form : TokenForm) : Prop :=
  Special cs form ∨ form = .text ∧ ∀ other, ¬Special cs other

variable {cs : List Char} {form : TokenForm}

/-- A token of a special form is found to have that form. -/
theorem ofChars_of_special (hspecial : Special cs form) : ofChars cs = form := by
  cases hspecial with
  | @band ds digits short =>
    have hnumeral : Text.isNumeral ds = true := Text.isNumeral_iff.mpr digits
    simp only [ofChars, hnumeral, short, decide_true, Bool.and_self, if_true,
      Text.numeralValue_eq_decimal]
  | @upTo ds digits =>
    have hnumeral : Text.isNumeral ds = true := Text.isNumeral_iff.mpr digits
    have hcs : "max(".toList ++ ds ++ [')'] = 'm' :: 'a' :: 'x' :: '(' :: (ds ++ [')']) := rfl
    simp only [hcs, ofChars, List.getLast?_concat, List.dropLast_concat, hnumeral, beq_self_eq_true,
      Bool.and_self, if_true, Text.numeralValue_eq_decimal]
  | number digits fits =>
    have hnumeral : Text.isNumeral cs = true := Text.isNumeral_iff.mpr digits
    have hfits : Text.decimal cs < 2 ^ 63 := by omega
    -- A digit is neither the letter of bands nor the first of the name of sequences.
    have hletter : ∀ c ∈ cs, c ≠ 'R' ∧ c ≠ 'm' := by
      intro c hc
      have hdigit := digits.digits c hc
      constructor <;> rintro rfl <;> exact absurd hdigit (by decide)
    unfold ofChars
    split
    · exact absurd rfl (hletter 'R' List.mem_cons_self).1
    · exact absurd rfl (hletter 'm' List.mem_cons_self).2
    · rw [Text.numeralValue_eq_decimal, hnumeral, decide_eq_true hfits, Bool.and_self, if_pos rfl]

/-- A form that is found is special or plain text. -/
theorem special_ofChars (htext : ofChars cs ≠ .text) : Special cs (ofChars cs) := by
  unfold ofChars at htext ⊢
  split at htext
  · rename_i ds
    by_cases hband : (Text.isNumeral ds && decide (ds.length ≤ 2)) = true
    · rw [if_pos hband, Text.numeralValue_eq_decimal]
      obtain ⟨hnumeral, hshort⟩ := Bool.and_eq_true_iff.mp hband
      exact .band (Text.isNumeral_iff.mp hnumeral) (of_decide_eq_true hshort)
    · exact absurd (if_neg hband) htext
  · rename_i rest
    by_cases hbound : (rest.getLast? == some ')' && Text.isNumeral rest.dropLast) = true
    · obtain ⟨hlast, hnumeral⟩ := Bool.and_eq_true_iff.mp hbound
      have hrest : rest.dropLast ++ [')'] = rest :=
        List.dropLast_append_getLast? ')' (beq_iff_eq.mp hlast)
      have hspecial := Special.upTo (Text.isNumeral_iff.mp hnumeral)
      rw [List.append_assoc, hrest] at hspecial
      rw [if_pos hbound, Text.numeralValue_eq_decimal]
      exact hspecial
    · exact absurd (if_neg hbound) htext
  · by_cases hnumber : (Text.isNumeral cs && decide (Text.numeralValue cs < 2 ^ (63 : Nat))) = true
    · rw [if_pos hnumber, Text.numeralValue_eq_decimal]
      obtain ⟨hnumeral, hfits⟩ := Bool.and_eq_true_iff.mp hnumber
      have hlt : Text.decimal cs < 2 ^ 63 :=
        Text.numeralValue_eq_decimal cs ▸ of_decide_eq_true hfits
      exact .number (Text.isNumeral_iff.mp hnumeral) (by omega)
    · exact absurd (if_neg hnumber) htext

/-- Plain text is no special form. -/
theorem Special.ne_text (hspecial : Special cs form) : form ≠ .text := by
  rintro rfl
  cases hspecial

/-- A token has exactly the form that it is found to have. -/
theorem hasForm_iff : HasForm cs form ↔ ofChars cs = form := by
  constructor
  · rintro (hspecial | ⟨rfl, hplain⟩)
    · exact ofChars_of_special hspecial
    · by_contra htext
      exact hplain _ (special_ofChars htext)
  · rintro rfl
    by_cases htext : ofChars cs = .text
    · refine .inr ⟨htext, fun other hspecial => hspecial.ne_text ?_⟩
      rw [← ofChars_of_special hspecial, htext]
    · exact .inl (special_ofChars htext)

/-- The number of a band has at most two digits. -/
theorem Special.band_lt {number : Nat} (hspecial : Special cs (.band number)) : number < 100 := by
  cases hspecial with
  | @band ds digits short =>
    calc Text.decimal ds < 10 ^ ds.length := Text.decimal_lt digits
      _ ≤ 10 ^ 2 := Nat.pow_le_pow_right (by decide) short

/-- A number is within the range of integers. -/
theorem Special.number_le {n : Nat} (hspecial : Special cs (.number n)) : n ≤ 2 ^ 63 - 1 := by
  cases hspecial with
  | number _ fits => exact fits

end TokenForm

/-! ## Bands -/

namespace Band

/-- The rows of the table are numbered from one. -/
theorem number_getElem_table {i : Nat} (hi : i < table.length) :
    (table[i]).number.toNat = i + 1 := by
  revert i
  decide

variable {n : Nat} {band : Band}

/-- The band with a number is the row that has it. -/
theorem ofNumber?_eq_some_iff : ofNumber? n = some band ↔ band ∈ table ∧ band.number.toNat = n := by
  constructor
  · intro hband
    cases n with
    | zero => cases hband
    | succ i =>
      obtain ⟨hi, rfl⟩ := List.getElem?_eq_some_iff.mp hband
      exact ⟨List.getElem_mem hi, number_getElem_table hi⟩
  · rintro ⟨hmem, rfl⟩
    obtain ⟨i, hi, rfl⟩ := List.getElem_of_mem hmem
    rw [number_getElem_table hi]
    exact List.getElem?_eq_getElem hi

/-- The numbers from one to ten are those with a row. -/
theorem exists_number_iff : (∃ band ∈ table, band.number.toNat = n) ↔ 1 ≤ n ∧ n ≤ 10 := by
  have hlength : table.length = 10 := rfl
  constructor
  · rintro ⟨band, hmem, rfl⟩
    obtain ⟨i, hi, rfl⟩ := List.getElem_of_mem hmem
    rw [number_getElem_table hi]
    omega
  · rintro ⟨hone, hten⟩
    have hi : n - 1 < table.length := by omega
    refine ⟨table[n - 1], List.getElem_mem hi, ?_⟩
    rw [number_getElem_table hi]
    omega

/-- A number has no band exactly if it is not between one and ten. -/
theorem ofNumber?_eq_none_iff : ofNumber? n = none ↔ ¬(1 ≤ n ∧ n ≤ 10) := by
  rw [← exists_number_iff, Option.eq_none_iff_forall_ne_some, not_exists]
  exact forall_congr' fun band => not_congr ofNumber?_eq_some_iff

end Band

/-! ## Values -/

namespace Value

/-- What a token resolves to, by its form and the number in it. -/
inductive Resolves (scaling : Scaling) (raw : String) : Except TokenFault Value → Prop
  /-- The band with the number, under the scaling. -/
  | band {number : Nat} {band : Band} (form : TokenForm.Special raw.toList (.band number))
      (listed : band ∈ Band.table) (numbered : band.number.toNat = number) :
      Resolves scaling raw (.ok (.integer (band.scaled scaling)))
  /-- There is no band with the number. -/
  | unknownBand {number : UInt32} (form : TokenForm.Special raw.toList (.band number.toNat))
      (unlisted : ¬(1 ≤ number.toNat ∧ number.toNat ≤ 10)) :
      Resolves scaling raw (.error (.unknownBand number))
  /-- The indices from one to the bound. -/
  | sequence {bound : Nat} {indices : List UInt32}
      (form : TokenForm.Special raw.toList (.upTo bound)) (within : bound ≤ 1024)
      (counted : indices.map UInt32.toNat = List.range' 1 bound) :
      Resolves scaling raw (.ok (.sequence indices))
  /-- The bound is too great; what is reported of it fits 64 bits. -/
  | tooManyIndices {bound : Nat} {requested : UInt64} {limit : UInt32}
      (form : TokenForm.Special raw.toList (.upTo bound)) (beyond : 1024 < bound)
      (reported : requested.toNat = min bound (2 ^ 64 - 1)) (limited : limit.toNat = 1024) :
      Resolves scaling raw (.error (.tooManyIndices requested limit))
  /-- The number itself. -/
  | number {n : Nat} {integer : Int64} (form : TokenForm.Special raw.toList (.number n))
      (same : integer.toInt = n) : Resolves scaling raw (.ok (.integer integer))
  /-- The text itself, as it has no special form. -/
  | literal (plain : ∀ form, ¬TokenForm.Special raw.toList form) :
      Resolves scaling raw (.ok (.literal raw))

/-- The indices to a bound that 32 bits hold, as numbers. -/
theorem map_toNat_indicesTo {bound : Nat} (hbound : bound ≤ 1024) :
    (indicesTo bound).map UInt32.toNat = List.range' 1 bound := by
  rw [indicesTo, List.map_map, List.range'_eq_map_range]
  refine List.map_congr_left fun i hi => ?_
  have hlt : i < bound := List.mem_range.mp hi
  have hsize : UInt32.size = 4294967296 := rfl
  rw [Function.comp_apply, UInt32.toNat_ofNat_of_lt' (by omega), Nat.add_comm]

variable {scaling : Scaling} {raw : String} {result : Except TokenFault Value}

/-- A token resolves to what its form says. -/
theorem ofToken_of_resolves (hresolves : Resolves scaling raw result) :
    ofToken scaling raw = result := by
  cases hresolves with
  | band form listed numbered =>
    have hband := Band.ofNumber?_eq_some_iff.mpr ⟨listed, numbered⟩
    simp only [ofToken, TokenForm.ofChars_of_special form, Band.scaledOfNumber?, hband,
      Option.map_some]
  | @unknownBand number form unlisted =>
    have hband := Band.ofNumber?_eq_none_iff.mpr unlisted
    simp only [ofToken, TokenForm.ofChars_of_special form, Band.scaledOfNumber?, hband,
      Option.map_none, UInt32.ofNat_toNat]
  | @sequence bound indices form within counted =>
    have hmax : ¬maxIndices.toNat < bound := Nat.not_lt.mpr within
    have hindices : indicesTo bound = indices := by
      refine (List.map_inj_right fun _ _ => UInt32.toNat_inj.mp).mp ?_
      rw [map_toNat_indicesTo within, counted]
    simp only [ofToken, TokenForm.ofChars_of_special form, if_neg hmax, hindices]
  | @tooManyIndices bound requested limit form beyond reported limited =>
    have hmax : maxIndices.toNat < bound := beyond
    have hrequested : UInt64.ofNat (min bound (UInt64.size - 1)) = requested := by
      rw [← UInt64.ofNat_toNat (x := requested), reported]
      rfl
    obtain rfl : maxIndices = limit := UInt32.toNat_inj.mp limited.symm
    simp only [ofToken, TokenForm.ofChars_of_special form, if_pos hmax, hrequested]
  | @number n integer form same =>
    have hinteger : Int64.ofNat n = integer := by
      have hfits := form.number_le
      rw [← Int64.toInt_inj, same]
      exact Int64.toInt_ofNat_of_lt (by omega)
    simp only [ofToken, TokenForm.ofChars_of_special form, hinteger]
  | literal plain =>
    have htext : TokenForm.ofChars raw.toList = .text :=
      TokenForm.hasForm_iff.mp (.inr ⟨rfl, plain⟩)
    simp only [ofToken, htext]

/-- A band without an entry is reported with its number. -/
theorem exists_unknownBand {number : Nat} (form : TokenForm.Special raw.toList (.band number))
    (unlisted : ¬(1 ≤ number ∧ number ≤ 10)) :
    ∃ reported, Resolves scaling raw (.error (.unknownBand reported)) := by
  have hlt := form.band_lt
  have hsize : UInt32.size = 4294967296 := rfl
  have hnumber : (UInt32.ofNat number).toNat = number := UInt32.toNat_ofNat_of_lt' (by omega)
  rw [← hnumber] at form unlisted
  exact ⟨_, .unknownBand form unlisted⟩

/-- A bound that is too great is reported, cut to 64 bits. -/
theorem exists_tooManyIndices {bound : Nat} (form : TokenForm.Special raw.toList (.upTo bound))
    (beyond : 1024 < bound) :
    ∃ requested, Resolves scaling raw (.error (.tooManyIndices requested maxIndices)) := by
  have hfits : min bound (2 ^ 64 - 1) < UInt64.size :=
    lt_of_le_of_lt (Nat.min_le_right ..) (by decide)
  exact ⟨_, .tooManyIndices form beyond (UInt64.toNat_ofNat_of_lt' hfits) rfl⟩

/-- Every token resolves to something, if only to a fault. -/
theorem exists_resolves (scaling : Scaling) (raw : String) :
    ∃ result, Resolves scaling raw result := by
  obtain ⟨found, hfound⟩ : ∃ found, TokenForm.HasForm raw.toList found :=
    ⟨_, TokenForm.hasForm_iff.mpr rfl⟩
  rcases hfound with form | ⟨-, plain⟩
  · cases found with
    | band number =>
      by_cases hlisted : 1 ≤ number ∧ number ≤ 10
      · obtain ⟨band, listed, numbered⟩ := Band.exists_number_iff.mpr hlisted
        exact ⟨_, .band form listed numbered⟩
      · obtain ⟨reported, hresolves⟩ := exists_unknownBand form hlisted
        exact ⟨_, hresolves⟩
    | upTo bound =>
      rcases Nat.lt_or_ge 1024 bound with hbeyond | hwithin
      · obtain ⟨requested, hresolves⟩ := exists_tooManyIndices form hbeyond
        exact ⟨_, hresolves⟩
      · exact ⟨_, .sequence form hwithin (map_toNat_indicesTo hwithin)⟩
    | number n =>
      have hfits := form.number_le
      exact ⟨_, .number form (Int64.toInt_ofNat_of_lt (by omega))⟩
    | text => exact absurd rfl form.ne_text
  · exact ⟨_, .literal plain⟩

/-- A token resolves to exactly what its form says. -/
theorem ofToken_eq_iff : ofToken scaling raw = result ↔ Resolves scaling raw result := by
  refine ⟨?_, ofToken_of_resolves⟩
  rintro rfl
  obtain ⟨result, hresolves⟩ := exists_resolves scaling raw
  rwa [ofToken_of_resolves hresolves]

/-- A token is at fault exactly if it is a band without an entry or a bound that is too great. -/
theorem exists_error_iff : (∃ fault, ofToken scaling raw = .error fault) ↔
    ∃ n, TokenForm.Special raw.toList (.band n) ∧ ¬(1 ≤ n ∧ n ≤ 10) ∨
      TokenForm.Special raw.toList (.upTo n) ∧ 1024 < n := by
  constructor
  · rintro ⟨fault, hfault⟩
    cases ofToken_eq_iff.mp hfault with
    | unknownBand form unlisted => exact ⟨_, .inl ⟨form, unlisted⟩⟩
    | tooManyIndices form beyond _ _ => exact ⟨_, .inr ⟨form, beyond⟩⟩
  · rintro ⟨n, ⟨form, unlisted⟩ | ⟨form, beyond⟩⟩
    · obtain ⟨reported, hresolves⟩ := exists_unknownBand form unlisted
      exact ⟨_, ofToken_of_resolves hresolves⟩
    · obtain ⟨requested, hresolves⟩ := exists_tooManyIndices form beyond
      exact ⟨_, ofToken_of_resolves hresolves⟩

/-- Every token has exactly one form and resolves to exactly what that form says. Only a band
without an entry and a bound that is too great are at fault. -/
theorem ofToken_by_form (scaling : Scaling) (raw : String) :
    (∃! form, TokenForm.HasForm raw.toList form) ∧
      (∀ result, ofToken scaling raw = result ↔ Resolves scaling raw result) ∧
      ((∃ fault, ofToken scaling raw = .error fault) ↔
        ∃ n, TokenForm.Special raw.toList (.band n) ∧ ¬(1 ≤ n ∧ n ≤ 10) ∨
          TokenForm.Special raw.toList (.upTo n) ∧ 1024 < n) := by
  refine ⟨?_, fun result => ofToken_eq_iff, exists_error_iff⟩
  refine ⟨TokenForm.ofChars raw.toList, TokenForm.hasForm_iff.mpr rfl, fun form hform => ?_⟩
  exact (TokenForm.hasForm_iff.mp hform).symm

-- Leading zeros do not count in a bound, but a band has no more than two digits.
example : ofToken {} "max(0002)" = .ok (.sequence [1, 2]) := rfl
example : ofToken {} "R003" = .ok (.literal "R003") := rfl

end Value

end DiceDuel
