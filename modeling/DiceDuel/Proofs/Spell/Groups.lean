import DiceDuel.Proofs.SortedMap
import DiceDuel.Spell.Reader

/-!
# Groups, scanned and written

A scan gives only groups that can be written again: the letter of a group is a capital, and its
text has no closing brace. Written one after the other, such groups are scanned back. The first
group behind a base never has a letter, so a spell without a leading token has no groups at all.
-/

namespace DiceDuel

namespace Group

/-- A group that can be written and scanned back. -/
structure Writable (g : Group) : Prop where
  /-- Only capitals are letters. -/
  letter : ∀ c ∈ g.letter, c.isUpper = true
  /-- The text ends at the first closing brace. -/
  raw : '}' ∉ g.raw

/-- The characters of a group. -/
def chars (g : Group) : List Char := g.letter.toList ++ '{' :: g.raw ++ ['}']

/-- The group of a leading token. -/
def leading (raw : String) : Group := ⟨none, raw.toList⟩

/-- The group of a lettered token. -/
def lettered (entry : Char × String) : Group := ⟨some entry.1, entry.2.toList⟩

/-- The group that is open at a place, or that a brace would open there, can be written. -/
def Place.Writable : Place → Prop
  | .between letter => Group.Writable ⟨letter, []⟩
  | .within letter reversed => Group.Writable ⟨letter, reversed.reverse⟩

/-- Without a letter, the group that a brace would open can be written. -/
theorem writable_between_none : (Place.between none).Writable :=
  ⟨fun _ hletter => (Option.not_mem_none _ hletter).elim, List.not_mem_nil⟩

/-- The letter that a character gives is a capital. -/
theorem isUpper_of_letterOf? {c letter : Char} (hletter : letterOf? c = some letter) :
    letter.isUpper = true := by
  unfold letterOf? at hletter
  by_cases hupper : c.isUpper = true
  · rw [if_pos hupper] at hletter
    rw [← Option.some.inj hletter]
    exact hupper
  · rw [if_neg hupper] at hletter
    cases hletter

/-- A scan gives only writable groups. -/
theorem writable_of_mem_scan {place : Place} (hplace : place.Writable) {cs : List Char} {g : Group}
    (hg : g ∈ scan place cs) : g.Writable := by
  induction cs generalizing place with
  | nil =>
    rw [scan] at hg
    cases hg
  | cons c rest ih =>
    cases place with
    | between letter =>
      rw [scan] at hg
      by_cases hopen : c = '{'
      · rw [if_pos hopen] at hg
        have hwithin : (Place.within letter []).Writable := hplace
        exact ih hwithin hg
      · rw [if_neg hopen] at hg
        have hbetween : (Place.between (letterOf? c)).Writable :=
          ⟨fun _ hletter => isUpper_of_letterOf? hletter, List.not_mem_nil⟩
        exact ih hbetween hg
    | within letter reversed =>
      rw [scan] at hg
      by_cases hclose : c = '}'
      · rw [if_pos hclose, List.mem_cons] at hg
        cases hg with
        | inl hhere =>
          rw [hhere]
          exact hplace
        | inr hlater =>
          exact ih writable_between_none hlater
      · rw [if_neg hclose] at hg
        have hraw : '}' ∉ (c :: reversed).reverse := by
          rw [List.reverse_cons, List.mem_append, List.mem_singleton]
          intro hmem
          cases hmem with
          | inl hbefore => exact hplace.raw hbefore
          | inr hlast => exact hclose hlast.symm
        have hwithin : (Place.within letter (c :: reversed)).Writable := ⟨hplace.letter, hraw⟩
        exact ih hwithin hg

/-- Inside a group a scan takes up everything before the next closing brace. -/
theorem scan_within_append (letter : Option Char) (reversed : List Char) {raw : List Char}
    (hraw : '}' ∉ raw) (rest : List Char) :
    scan (.within letter reversed) (raw ++ '}' :: rest) =
      ⟨letter, reversed.reverse ++ raw⟩ :: scan (.between none) rest := by
  induction raw generalizing reversed with
  | nil => rw [List.nil_append, scan, if_pos rfl, List.append_nil]
  | cons c raw ih =>
    rw [List.mem_cons, not_or] at hraw
    have hclose : ¬c = '}' := fun hsame => hraw.1 hsame.symm
    rw [List.cons_append, scan, if_neg hclose, ih (c :: reversed) hraw.2, List.reverse_cons,
      List.append_assoc, List.singleton_append]

/-- A group that is written is scanned back. -/
theorem scan_chars_append {g : Group} (hg : g.Writable) (rest : List Char) :
    scan (.between none) (g.chars ++ rest) = g :: scan (.between none) rest := by
  obtain ⟨letter, raw⟩ := g
  have hbrace (letter : Option Char) : scan (.between letter) ('{' :: (raw ++ '}' :: rest)) =
      ⟨letter, raw⟩ :: scan (.between none) rest := by
    rw [scan, if_pos rfl, scan_within_append letter [] hg.raw, List.reverse_nil, List.nil_append]
  cases letter with
  | none =>
    have hchars : chars ⟨none, raw⟩ ++ rest = '{' :: (raw ++ '}' :: rest) := by simp [chars]
    rw [hchars, hbrace]
  | some c =>
    have hchars : chars ⟨some c, raw⟩ ++ rest = c :: '{' :: (raw ++ '}' :: rest) := by simp [chars]
    have hupper : c.isUpper = true := hg.letter c rfl
    have hopen : ¬c = '{' := by
      intro hsame
      rw [hsame] at hupper
      exact absurd hupper (by decide)
    rw [hchars, scan, if_neg hopen, letterOf?, if_pos hupper, hbrace]

/-- Groups that are written one after the other are scanned back, whatever stands behind them. -/
theorem scan_flatMap_chars_append {groups : List Group} (hgroups : ∀ g ∈ groups, g.Writable)
    (rest : List Char) :
    scan (.between none) (groups.flatMap chars ++ rest) = groups ++ scan (.between none) rest := by
  induction groups with
  | nil => rfl
  | cons g more ih =>
    rw [List.flatMap_cons, List.append_assoc, scan_chars_append (hgroups g List.mem_cons_self),
      ih fun other hother => hgroups other (List.mem_cons_of_mem g hother), List.cons_append]

/-- Groups that are written one after the other are scanned back. -/
theorem scan_flatMap_chars {groups : List Group} (hgroups : ∀ g ∈ groups, g.Writable) :
    scan (.between none) (groups.flatMap chars) = groups := by
  have hscan := scan_flatMap_chars_append hgroups []
  rw [List.append_nil] at hscan
  exact hscan.trans (List.append_nil groups)

/-- Groups that are written one after the other end in a closing brace. -/
theorem flatMap_chars_end (groups : List Group) :
    groups = [] ∨ ∃ front, groups.flatMap chars = front ++ ['}'] := by
  cases List.eq_nil_or_concat groups with
  | inl hempty => exact .inl hempty
  | inr hconcat =>
    obtain ⟨before, last, hsplit⟩ := hconcat
    have hlast : last.chars = (last.letter.toList ++ '{' :: last.raw) ++ ['}'] := rfl
    refine .inr ⟨before.flatMap chars ++ (last.letter.toList ++ '{' :: last.raw), ?_⟩
    rw [hsplit, List.concat_eq_append, List.flatMap_append, List.flatMap_singleton, hlast,
      ← List.append_assoc]

/-- The first group that a scan gives from inside a group is that group. -/
theorem letter_of_scan_within {letter : Option Char} {reversed cs : List Char} {g : Group}
    {groups : List Group} (hscan : scan (.within letter reversed) cs = g :: groups) :
    g.letter = letter := by
  induction cs generalizing reversed with
  | nil => cases hscan
  | cons c rest ih =>
    rw [scan] at hscan
    by_cases hclose : c = '}'
    · rw [if_pos hclose, List.cons.injEq] at hscan
      rw [← hscan.1]
    · rw [if_neg hclose] at hscan
      exact ih hscan

/-- Without a leading token a scan that begins at a brace gives no groups at all. -/
theorem scan_eq_nil_of_first? {cs : List Char}
    (hfirst : first? (scan (.between none) ('{' :: cs)) = none) :
    scan (.between none) ('{' :: cs) = [] := by
  have hbrace : scan (.between none) ('{' :: cs) = scan (.within none []) cs := by
    rw [scan, if_pos rfl]
  cases hscan : scan (.between none) ('{' :: cs) with
  | nil => rfl
  | cons g groups =>
    have hletter : g.letter.isNone = true := by
      rw [letter_of_scan_within (hbrace.symm.trans hscan)]
      rfl
    rw [hscan, first?, List.find?_cons, hletter] at hfirst
    cases hfirst

end Group

namespace Spell

/-- The groups of a canonical code. -/
def groups (spell : Spell) : List Group :=
  (spell.first.map Group.leading).toList ++ spell.tokens.entries.map Group.lettered

/-- Lettered tokens need a leading one, so a canonical code without a leading token has no groups
at all. -/
theorem groups_eq_nil_iff (spell : Spell) (hleading : spell.first = none → spell.tokens = ∅) :
    spell.groups = [] ↔ spell.first = none := by
  cases hfirst : spell.first with
  | none =>
    refine ⟨fun _ => rfl, fun _ => ?_⟩
    rw [groups, hfirst, hleading hfirst]
    rfl
  | some raw =>
    refine ⟨fun hempty => ?_, fun hnone => nomatch hnone⟩
    rw [groups, hfirst] at hempty
    cases hempty

/-- The leading token and the lettered tokens of a canonical code are its groups. -/
theorem flatMap_chars_groups (spell : Spell) :
    spell.groups.flatMap Group.chars = (spell.first.map group).getD []
      ++ spell.tokens.entries.flatMap fun entry => entry.1 :: group entry.2 := by
  have htokens : (spell.tokens.entries.map Group.lettered).flatMap Group.chars =
      spell.tokens.entries.flatMap fun entry => entry.1 :: group entry.2 := by
    rw [List.flatMap_map]
    rfl
  rw [groups, List.flatMap_append, htokens]
  cases spell.first with
  | none => rfl
  | some raw =>
    rw [Option.map_some, Option.toList_some, List.flatMap_singleton]
    rfl

/-- The lettered tokens are read back from the groups of a canonical code. -/
theorem tokens_groups (spell : Spell) : Group.tokens spell.groups = spell.tokens := by
  have hleading : ((spell.first.map Group.leading).toList.filterMap
      fun g => g.letter.map fun letter => (letter, String.ofList g.raw)) = [] := by
    cases spell.first with
    | none => rfl
    | some raw => rfl
  have hentry : (fun entry : Char × String => some (entry.1, String.ofList entry.2.toList)) =
      some := by
    funext entry
    rw [String.ofList_toList]
  have hlettered : ((spell.tokens.entries.map Group.lettered).filterMap
      fun g => g.letter.map fun letter => (letter, String.ofList g.raw)) =
        spell.tokens.entries := by
    rw [List.filterMap_map]
    exact (congrArg (List.filterMap · _) hentry).trans List.filterMap_some
  rw [Group.tokens, groups, List.filterMap_append, hleading, hlettered, List.nil_append,
    SortedMap.ofList_entries]

/-- The leading token is read back from the groups of a canonical code. -/
theorem first?_groups (spell : Spell) (hleading : spell.first = none → spell.tokens = ∅) :
    Group.first? spell.groups = spell.first := by
  cases hfirst : spell.first with
  | none =>
    rw [(groups_eq_nil_iff spell hleading).mpr hfirst]
    rfl
  | some raw =>
    have hgroups : spell.groups =
        Group.leading raw :: spell.tokens.entries.map Group.lettered := by
      rw [groups, hfirst]
      rfl
    have hraw : String.ofList (Group.leading raw).raw = raw := String.ofList_toList
    have hletter : (Group.leading raw).letter.isNone = true := rfl
    rw [hgroups, Group.first?, List.find?_cons, hletter, Option.map_some, hraw]

end Spell

end DiceDuel
