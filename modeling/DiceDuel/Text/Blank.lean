import DiceDuel.Text.CodePoint

/-!
# White space

The twenty-five characters with the Unicode property White_Space, and the trimming of a text at
both ends by that property.
-/

namespace DiceDuel.Text

/-- The code points with the property White_Space. -/
def blankRanges : Ranges :=
  [(0x09, 0x0D), (0x20, 0x20), (0x85, 0x85), (0xA0, 0xA0), (0x1680, 0x1680), (0x2000, 0x200A),
    (0x2028, 0x2029), (0x202F, 0x202F), (0x205F, 0x205F), (0x3000, 0x3000)]

/-- Whether a character is white space. -/
def isBlank (c : Char) : Bool := blankRanges.holds c.toNat

/-- The ASCII white space is white space. -/
theorem isBlank_of_isWhitespace {c : Char} (h : c.isWhitespace = true) : isBlank c = true := by
  simp only [Char.isWhitespace, Bool.or_eq_true, decide_eq_true_eq] at h
  rcases h with ((h | h) | h) | h <;> subst h <;> decide

/-- The characters from the first to the last that is not white space. -/
def trimChars (cs : List Char) : List Char :=
  ((cs.dropWhile isBlank).reverse.dropWhile isBlank).reverse

/-- White space dropped from the front takes no other character with it. -/
theorem mem_dropWhile_isBlank {c : Char} (hc : isBlank c = false) {cs : List Char} :
    c ∈ cs.dropWhile isBlank ↔ c ∈ cs := by
  refine ⟨fun hmem => (List.dropWhile_sublist isBlank).subset hmem, fun hmem => ?_⟩
  rw [← List.takeWhile_append_dropWhile (p := isBlank) (l := cs), List.mem_append] at hmem
  refine hmem.resolve_left fun hfront => ?_
  have hblank := List.all_eq_true.mp List.all_takeWhile c hfront
  rw [hc] at hblank
  cases hblank

/-- Trimming takes away white space only. -/
theorem mem_trimChars {c : Char} (hc : isBlank c = false) {cs : List Char} :
    c ∈ trimChars cs ↔ c ∈ cs := by
  rw [trimChars, List.mem_reverse, mem_dropWhile_isBlank hc, List.mem_reverse,
    mem_dropWhile_isBlank hc]

/-- Trimming leaves nothing exactly if there is nothing but white space. -/
theorem trimChars_eq_nil_iff {cs : List Char} :
    trimChars cs = [] ↔ ∀ c ∈ cs, isBlank c = true := by
  constructor
  · intro hempty c hmem
    cases hc : isBlank c with
    | true => rfl
    | false =>
      have htrimmed := (mem_trimChars hc).mpr hmem
      rw [hempty] at htrimmed
      cases htrimmed
  · intro hblank
    have hdrop : cs.dropWhile isBlank = [] := by
      induction cs with
      | nil => rfl
      | cons c rest ih =>
        rw [List.dropWhile_cons_of_pos (hblank c List.mem_cons_self)]
        exact ih fun other hmem => hblank other (List.mem_cons_of_mem c hmem)
    rw [trimChars, hdrop]
    rfl

/-- A text without the white space at its ends. -/
def trim (s : String) : String := String.ofList (trimChars s.toList)

end DiceDuel.Text
