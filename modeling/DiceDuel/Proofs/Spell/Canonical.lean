import DiceDuel.Proofs.Spell.Rereading

/-!
# Canonical codes

To take a code apart and write its spell down again gives the canonical form of the code. The spell
of the canonical form need not be the spell of the code: the end of a base that was hidden behind an
open brace stands at the end of the canonical form, and there it is read as a scaling. Both spells
are written alike, however, since the digits of that end are those of the scaling. So a canonical
form is its own canonical form, and the codes of legible spells are the codes that are.
-/

namespace DiceDuel

/-- The canonical form of a code: the canonical code of the spell that it is read as. -/
def Code.canonical (code : Code) : Code := (Spell.ofCode code).code

namespace Spell

/-- A digit is the one with which its own value is written. -/
theorem digitChar_of_digit? {c : Char} {n : UInt8} (hdigit : digit? c = some n) :
    Nat.digitChar n.toNat = c := by
  have hc : c.isDigit = true := (isDigit_of_digit? hdigit).1
  have hrange : '0'.toNat ≤ c.toNat ∧ c.toNat ≤ '9'.toNat := Char.isDigit_iff_toNat.mp hc
  have hzero : '0'.toNat = 48 := rfl
  have hnine : '9'.toNat = 57 := rfl
  have hvalue : n.toNat = c.toNat - 48 := by
    rw [digit?, if_pos hc] at hdigit
    rw [← Option.some.inj hdigit, UInt8.toNat_ofNat', Text.digitValue, hzero]
    omega
  have hlt : n.toNat < 10 := by omega
  apply Char.toNat_inj.mp
  rw [Nat.toNat_digitChar_of_lt_ten hlt]
  omega

/-- An end of a hyphen and three digits is the suffix of a scaling. -/
theorem EndsInDigits.exists_suffix {cs : List Char} (hends : EndsInDigits cs) :
    ∃ body scaling, HasDigits scaling ∧ cs = body ++ scalingSuffix scaling := by
  obtain ⟨t, l, p, ht, hl, hp, body, hbody⟩ := hends
  obtain ⟨tier, htier⟩ := digit?_of_isDigit ht
  obtain ⟨level, hlevel⟩ := digit?_of_isDigit hl
  obtain ⟨rate, hrate⟩ := digit?_of_isDigit hp
  have htier_le : tier ≤ 9 := (isDigit_of_digit? htier).2
  have hlevel_le : level ≤ 9 := (isDigit_of_digit? hlevel).2
  have hrate_le : rate ≤ 9 := (isDigit_of_digit? hrate).2
  refine ⟨body, .of tier level rate, ⟨tier, level, rate, htier_le, hlevel_le, hrate_le, rfl⟩, ?_⟩
  rw [scalingSuffix_of htier_le hlevel_le hrate_le, digitChar_of_digit? htier,
    digitChar_of_digit? hlevel, digitChar_of_digit? hrate, hbody]

namespace Legible

variable {spell : Spell}

/-- A spell whose base is cut short stays legible with any scaling of three digits. -/
theorem cut (h : spell.Legible) {body : List Char} (hbody : body <+: spell.base.toList)
    {scaling : Scaling} (hscaling : HasDigits scaling) :
    { spell with base := String.ofList body, scaling }.Legible := by
  have hlist : (String.ofList body).toList = body := String.toList_ofList
  have hbrace : '{' ∉ (String.ofList body).toList := by
    rw [hlist]
    exact fun hmem => h.base (hbody.subset hmem)
  have hmark : spell.rollAgain = true ∨ ¬rollAgainMark <+: (String.ofList body).toList := by
    rw [hlist]
    exact h.mark.imp id fun hfront hshort => hfront (hshort.trans hbody)
  exact ⟨hbrace, hmark, h.leading, h.first, h.tokens, .inl hscaling⟩

/-- Without a leading token nothing is written between the base and the suffix. -/
theorem chars_of_first_eq_none (h : spell.Legible) (hfirst : spell.first = none) :
    spell.chars = (if spell.rollAgain then rollAgainMark else []) ++
      (spell.base.toList ++ scalingSuffix spell.scaling) := by
  have hgroups : spell.groups = [] := (groups_eq_nil_iff spell h.leading).mpr hfirst
  rw [chars_eq_stem_append, stem, hgroups, List.flatMap_nil, List.append_nil, List.append_assoc]

/-- A spell that ends like a scaled one is written like a scaled one. -/
theorem exists_scaled (h : spell.Legible) (hscaled : spell.EndsLikeScaled) :
    ∃ other : Spell, other.Legible ∧ HasDigits other.scaling ∧ other.chars = spell.chars := by
  obtain ⟨body, scaling, hdigits, hbase⟩ := hscaled.base.exists_suffix
  let other : Spell := { spell with base := String.ofList body, scaling }
  have hother : other.Legible := h.cut ⟨scalingSuffix scaling, hbase.symm⟩ hdigits
  refine ⟨other, hother, hdigits, ?_⟩
  have hend : other.base.toList ++ scalingSuffix other.scaling =
      spell.base.toList ++ scalingSuffix spell.scaling := by
    have hlist : other.base.toList = body := String.toList_ofList
    have hnone : scalingSuffix {} = [] := rfl
    rw [hscaled.scaling, hnone, List.append_nil, hlist, hbase]
  rw [hother.chars_of_first_eq_none hscaled.first, h.chars_of_first_eq_none hscaled.first, hend]

/-- What is read of the canonical code of a legible spell has the same canonical code. -/
theorem chars_ofChars_chars (h : spell.Legible) : (ofChars spell.chars).chars = spell.chars := by
  by_cases hscaled : spell.EndsLikeScaled
  · obtain ⟨other, hother, hdigits, hchars⟩ := h.exists_scaled hscaled
    have hplain : ¬other.EndsLikeScaled := fun hends => hdigits.ne_missing hends.scaling
    have hread : ofChars other.chars = other := hother.ofChars_chars_iff.mpr hplain
    rw [← hchars, hread]
  · have hread : ofChars spell.chars = spell := h.ofChars_chars_iff.mpr hscaled
    rw [hread]

end Legible

end Spell

namespace Code

/-- The codes that are their own canonical forms are the canonical codes of legible spells. -/
theorem canonical_eq_self_iff (code : Code) :
    code.canonical = code ↔ ∃ spell : Spell, spell.Legible ∧ spell.code = code := by
  constructor
  · intro hself
    exact ⟨Spell.ofCode code, Spell.legible_ofChars _, hself⟩
  · intro hwritten
    obtain ⟨spell, hlegible, rfl⟩ := hwritten
    rw [canonical, Spell.ofCode_code]
    exact congrArg (fun cs => (⟨String.ofList cs⟩ : Code)) hlegible.chars_ofChars_chars

/-- The canonical form of a canonical form is that form itself, whatever the code was. -/
theorem canonical_canonical (code : Code) : code.canonical.canonical = code.canonical := by
  have hlegible : (Spell.ofCode code).Legible := Spell.legible_ofChars code.text.toList
  exact (canonical_eq_self_iff code.canonical).mpr ⟨Spell.ofCode code, hlegible, rfl⟩

/-- A code whose brace is never closed: its canonical form is read as a scaled spell, and is its own
canonical form all the same. -/
example : (⟨"ATT-123\x7b"⟩ : Code).canonical = ⟨"ATT-123"⟩ ∧
    (⟨"ATT-123"⟩ : Code).canonical = ⟨"ATT-123"⟩ := by
  decide

end Code

end DiceDuel
