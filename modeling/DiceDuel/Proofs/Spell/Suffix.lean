import DiceDuel.Spell.Reader

/-!
# The suffix of a code

A hyphen and three digits at the very end of a text are its scaling, and no other end is. A scaling
with three digits is written as such an end and read back from it. Two facts on separators say
where an end or a beginning of a text can lie when it does not hold the separator.
-/

namespace DiceDuel

namespace Spell

section Separators

variable {α : Type} {mid : α} {front rest : List α}

/-- An end without a separator lies behind the separator. -/
theorem suffix_of_suffix_append_cons {ending : List α} (hmid : mid ∉ ending)
    (hending : ending <:+ front ++ mid :: rest) : ending <:+ rest := by
  have hrest : mid :: rest <:+ front ++ mid :: rest := List.suffix_append front _
  cases List.suffix_or_suffix_of_suffix hending hrest with
  | inl hshort =>
    cases List.suffix_cons_iff.mp hshort with
    | inl hwhole =>
      rw [hwhole] at hmid
      exact absurd List.mem_cons_self hmid
    | inr hbehind => exact hbehind
  | inr hlong => exact absurd (hlong.subset List.mem_cons_self) hmid

/-- A beginning without a separator lies before the separator. -/
theorem prefix_of_prefix_append_cons {start : List α} (hmid : mid ∉ start)
    (hstart : start <+: front ++ mid :: rest) : start <+: front := by
  have hreverse : start.reverse <:+ rest.reverse ++ mid :: front.reverse := by
    have hwhole := List.reverse_suffix.mpr hstart
    rwa [List.reverse_append, List.reverse_cons, List.append_assoc] at hwhole
  have habsent : mid ∉ start.reverse := fun hmem => hmid (List.mem_reverse.mp hmem)
  exact List.reverse_suffix.mp (suffix_of_suffix_append_cons habsent hreverse)

end Separators

/-- A text ends like the code of a spell with a scaling: in a hyphen and three digits. -/
def EndsInDigits (cs : List Char) : Prop :=
  ∃ t l p : Char, t.isDigit = true ∧ l.isDigit = true ∧ p.isDigit = true ∧ ['-', t, l, p] <:+ cs

/-- A scaling with three digits. -/
def HasDigits (scaling : Scaling) : Prop :=
  ∃ t l p : UInt8, t ≤ 9 ∧ l ≤ 9 ∧ p ≤ 9 ∧ scaling = .of t l p

/-- A text that ends in a hyphen and three digits does so behind any other character. -/
theorem EndsInDigits.of_append_cons {front rest : List Char} {mid : Char}
    (hdigit : mid.isDigit = false) (hhyphen : mid ≠ '-')
    (hends : EndsInDigits (front ++ mid :: rest)) : EndsInDigits rest := by
  obtain ⟨t, l, p, ht, hl, hp, hsuffix⟩ := hends
  refine ⟨t, l, p, ht, hl, hp, suffix_of_suffix_append_cons ?_ hsuffix⟩
  have hne {c : Char} (hc : c.isDigit = true) : mid ≠ c := by
    intro hsame
    rw [hsame, hc] at hdigit
    cases hdigit
  simp only [List.mem_cons, List.not_mem_nil, or_false, not_or]
  exact ⟨hhyphen, hne ht, hne hl, hne hp⟩

/-- A text with a hyphen and three digits at its end has them there whatever stands before it. -/
theorem EndsInDigits.append (front : List Char) {rest : List Char} (hends : EndsInDigits rest) :
    EndsInDigits (front ++ rest) := by
  obtain ⟨t, l, p, ht, hl, hp, hsuffix⟩ := hends
  exact ⟨t, l, p, ht, hl, hp, hsuffix.trans (List.suffix_append front rest)⟩

/-- The empty text does not end in a hyphen and three digits. -/
theorem not_endsInDigits_nil : ¬EndsInDigits [] := by
  rintro ⟨t, l, p, -, -, -, hsuffix⟩
  cases List.suffix_nil.mp hsuffix

/-- A character with a digit is a digit, and the digit is at most nine. -/
theorem isDigit_of_digit? {c : Char} {n : UInt8} (hdigit : digit? c = some n) :
    c.isDigit = true ∧ n ≤ 9 := by
  unfold digit? at hdigit
  by_cases hc : c.isDigit = true
  · rw [if_pos hc] at hdigit
    have hrange : '0'.toNat ≤ c.toNat ∧ c.toNat ≤ '9'.toNat := Char.isDigit_iff_toNat.mp hc
    have hvalue : Text.digitValue c ≤ 9 := by
      have hnine : '9'.toNat - '0'.toNat = 9 := rfl
      unfold Text.digitValue
      omega
    rw [← Option.some.inj hdigit, UInt8.le_iff_toNat_le, UInt8.toNat_ofNat']
    exact ⟨hc, Nat.le_trans (Nat.mod_le _ _) hvalue⟩
  · rw [if_neg hc] at hdigit
    cases hdigit

/-- A digit is read from a digit. -/
theorem digit?_of_isDigit {c : Char} (hc : c.isDigit = true) : ∃ n, digit? c = some n :=
  ⟨_, if_pos hc⟩

/-- A number up to nine is written as one digit. -/
theorem numeral_of_le_nine {n : UInt8} (hn : n ≤ 9) :
    Text.numeral n.toNat = [Nat.digitChar n.toNat] :=
  Nat.toDigits_of_lt_base (Nat.lt_succ_of_le (UInt8.le_iff_toNat_le.mp hn))

/-- The digit of a number up to nine is read back. -/
theorem digit?_digitChar {n : UInt8} (hn : n ≤ 9) : digit? (Nat.digitChar n.toNat) = some n := by
  have hall : ∀ k : Fin 10, digit? (Nat.digitChar k) = some (UInt8.ofNat k) := by decide
  have hlt : n.toNat < 10 := Nat.lt_succ_of_le (UInt8.le_iff_toNat_le.mp hn)
  rw [hall ⟨n.toNat, hlt⟩, UInt8.ofNat_toNat]

/-- The digit of a number up to nine is a digit and has that value. -/
theorem digitValue_digitChar {n : UInt8} (hn : n ≤ 9) :
    (Nat.digitChar n.toNat).isDigit = true ∧
      UInt8.ofNat (Text.digitValue (Nat.digitChar n.toNat)) = n := by
  have hdigit := digit?_digitChar hn
  have hisDigit := (isDigit_of_digit? hdigit).1
  unfold digit? at hdigit
  rw [if_pos hisDigit] at hdigit
  exact ⟨hisDigit, Option.some.inj hdigit⟩

/-- A final hyphen with three digits is split off. -/
theorem splitScaling_append (body : List Char) {t l p : Char} {tier level rate : UInt8}
    (ht : digit? t = some tier) (hl : digit? l = some level) (hp : digit? p = some rate) :
    splitScaling (body ++ ['-', t, l, p]) = (body, .of tier level rate) := by
  have hreverse : (body ++ ['-', t, l, p]).reverse = p :: l :: t :: '-' :: body.reverse := by simp
  unfold splitScaling
  rw [hreverse]
  simp only [ht, hl, hp, List.reverse_reverse]

/-- A text that does not end in a hyphen and three digits stays whole. -/
theorem splitScaling_of_not_endsInDigits {cs : List Char} (hcs : ¬EndsInDigits cs) :
    splitScaling cs = (cs, {}) := by
  unfold splitScaling
  split
  · rename_i p l t rest hreverse
    split
    · rename_i tier level rate ht hl hp
      refine absurd ⟨t, l, p, ?_⟩ hcs
      refine ⟨(isDigit_of_digit? ht).1, (isDigit_of_digit? hl).1, (isDigit_of_digit? hp).1, ?_⟩
      refine ⟨rest.reverse, ?_⟩
      rw [← List.reverse_reverse cs, hreverse]
      simp
    · rfl
  · rfl

/-- Splitting gives three digits exactly where the text ends in them, and otherwise nothing. -/
theorem splitScaling_scaling (cs : List Char) :
    EndsInDigits cs ∧ HasDigits (splitScaling cs).2 ∨
      ¬EndsInDigits cs ∧ (splitScaling cs).2 = {} := by
  by_cases hcs : EndsInDigits cs
  · obtain ⟨t, l, p, ht, hl, hp, body, rfl⟩ := hcs
    obtain ⟨tier, htier⟩ := digit?_of_isDigit ht
    obtain ⟨level, hlevel⟩ := digit?_of_isDigit hl
    obtain ⟨rate, hrate⟩ := digit?_of_isDigit hp
    refine .inl ⟨⟨t, l, p, ht, hl, hp, List.suffix_append body _⟩, tier, level, rate, ?_⟩
    rw [splitScaling_append body htier hlevel hrate]
    exact ⟨(isDigit_of_digit? htier).2, (isDigit_of_digit? hlevel).2, (isDigit_of_digit? hrate).2,
      rfl⟩
  · refine .inr ⟨hcs, ?_⟩
    rw [splitScaling_of_not_endsInDigits hcs]

/-- Three digits are never the missing scaling. -/
theorem HasDigits.ne_missing {scaling : Scaling} (hscaling : HasDigits scaling) : scaling ≠ {} := by
  obtain ⟨t, l, p, -, -, -, rfl⟩ := hscaling
  intro hsame
  cases hsame

/-- A scaling with three digits is written as a hyphen and the digits. -/
theorem scalingSuffix_of {t l p : UInt8} (ht : t ≤ 9) (hl : l ≤ 9) (hp : p ≤ 9) :
    scalingSuffix (.of t l p) =
      ['-', Nat.digitChar t.toNat, Nat.digitChar l.toNat, Nat.digitChar p.toNat] := by
  rw [Scaling.of, scalingSuffix, numeral_of_le_nine ht, numeral_of_le_nine hl,
    numeral_of_le_nine hp]
  rfl

/-- A written scaling is read back. -/
theorem splitScaling_append_scalingSuffix (body : List Char) {scaling : Scaling}
    (hscaling : HasDigits scaling) :
    splitScaling (body ++ scalingSuffix scaling) = (body, scaling) := by
  obtain ⟨t, l, p, ht, hl, hp, rfl⟩ := hscaling
  rw [scalingSuffix_of ht hl hp]
  exact splitScaling_append body (digit?_digitChar ht) (digit?_digitChar hl) (digit?_digitChar hp)

end Spell

end DiceDuel
