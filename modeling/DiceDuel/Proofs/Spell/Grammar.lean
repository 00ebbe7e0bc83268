import DiceDuel.Proofs.Spell.Layout
import DiceDuel.Proofs.Spell.Rereading

/-!
# Spells and the layout of their codes

A spell is read from a code part by part: the base, the mark and the scaling are those of the
layout, the leading token is the text of the first group, and a letter has the text of the last
group behind the first whose gap ends in it.
-/

namespace DiceDuel

/-- The signs of codes as characters. -/
def Signs.chars : Signs Char where
  opening := '{'
  closing := '}'
  hyphen := '-'
  mark := Spell.rollAgainMark
  isDigit := Char.isDigit
  closing_ne_opening := by decide

/-- The scaling that the digits of a suffix give. -/
def Layout.scaling (layout : Layout Char) : Scaling :=
  match layout.suffix with
  | none => {}
  | some (t, l, p) => .of (UInt8.ofNat (Text.digitValue t)) (UInt8.ofNat (Text.digitValue l))
      (UInt8.ofNat (Text.digitValue p))

/-- The last of the groups behind the first whose gap ends in a letter. -/
def Layout.lettered? (layout : Layout Char) (letter : Char) : Option (Chunk Char) :=
  layout.chunks.tail.reverse.find? fun chunk => chunk.gap.getLast? = some letter

/-- A spell with the parts of a layout. -/
structure Spell.HasLayout (spell : Spell) (layout : Layout Char) : Prop where
  /-- The base is what stands before the first brace. -/
  base : spell.base = String.ofList layout.base
  /-- The spell is gated if there is a mark. -/
  rollAgain : spell.rollAgain = layout.mark
  /-- The scaling has the digits of the suffix. -/
  scaling : spell.scaling = layout.scaling
  /-- The leading token is the text of the first group. -/
  first : spell.first = layout.chunks.head?.map fun chunk => String.ofList chunk.raw
  /-- A capital has the text of the last group with it, and nothing else is a letter. -/
  token : ∀ letter, spell.token? letter =
    if letter.isUpper then (layout.lettered? letter).map fun chunk => String.ofList chunk.raw
    else none

/-! ## Groups of chunks -/

namespace Group

/-- The group of a chunk: its letter is a capital right before the brace. -/
def ofChunk (chunk : Chunk Char) : Group := ⟨chunk.gap.getLast?.bind letterOf?, chunk.raw⟩

/-- A scan goes through a gap and takes up the last letter. -/
theorem scan_gap (letter : Option Char) {gap : List Char} (hgap : '{' ∉ gap) (more : List Char) :
    scan (.between letter) (gap ++ '{' :: more) =
      scan (.within (gap.getLast?.elim letter letterOf?) []) more := by
  induction gap generalizing letter with
  | nil => rw [List.nil_append, scan, if_pos rfl, List.getLast?_nil, Option.elim_none]
  | cons c gap ih =>
    rw [List.mem_cons, not_or] at hgap
    have hopen : ¬c = '{' := fun hsame => hgap.1 hsame.symm
    rw [List.cons_append, scan, if_neg hopen, ih (letterOf? c) hgap.2, List.getLast?_cons]
    cases gap.getLast? <;> rfl

/-- Without an opening brace a scan finds nothing. -/
theorem scan_between_eq_nil (letter : Option Char) {cs : List Char} (hcs : '{' ∉ cs) :
    scan (.between letter) cs = [] := by
  induction cs generalizing letter with
  | nil => rfl
  | cons c rest ih =>
    rw [List.mem_cons, not_or] at hcs
    have hopen : ¬c = '{' := fun hsame => hcs.1 hsame.symm
    rw [scan, if_neg hopen, ih _ hcs.2]

/-- Without a closing brace a scan finds nothing more. -/
theorem scan_within_eq_nil (letter : Option Char) (reversed : List Char) {cs : List Char}
    (hcs : '}' ∉ cs) : scan (.within letter reversed) cs = [] := by
  induction cs generalizing reversed with
  | nil => rfl
  | cons c rest ih =>
    rw [List.mem_cons, not_or] at hcs
    have hclose : ¬c = '}' := fun hsame => hcs.1 hsame.symm
    rw [scan, if_neg hclose, ih _ hcs.2]

/-- There is no group in the tail of a layout. -/
theorem scan_tail {tail : List Char}
    (htail : Signs.chars.closing ∉ tail.dropWhile (· != Signs.chars.opening)) :
    scan (.between none) tail = [] := by
  rcases Signs.tail_cases htail with hnone | ⟨gap, more, rfl, hgap, hmore⟩
  · exact scan_between_eq_nil none hnone
  · exact (scan_gap none hgap more).trans (scan_within_eq_nil _ [] hmore)

/-- A scan finds the groups of the chunks. -/
theorem scan_chunks {chunks : List (Chunk Char)} {tail : List Char}
    (hchunks : ∀ chunk ∈ chunks, chunk.Proper Signs.chars)
    (htail : Signs.chars.closing ∉ tail.dropWhile (· != Signs.chars.opening)) :
    scan (.between none) (chunks.flatMap (Chunk.text Signs.chars) ++ tail) =
      chunks.map ofChunk := by
  induction chunks with
  | nil => exact scan_tail htail
  | cons chunk others ih =>
    obtain ⟨hchunk, hothers⟩ := List.forall_mem_cons.mp hchunks
    have htext : (chunk :: others).flatMap (Chunk.text Signs.chars) ++ tail =
        chunk.gap ++ '{' :: (chunk.raw ++
          '}' :: (others.flatMap (Chunk.text Signs.chars) ++ tail)) := by
      simp [Chunk.text, Signs.chars]
    rw [htext, scan_gap none hchunk.gap, scan_within_append _ [] hchunk.raw, ih hothers,
      List.map_cons, ofChunk]
    cases chunk.gap.getLast? <;> rfl

/-- A character is the letter of a chunk if it is a capital at the end of the gap. -/
theorem letter_ofChunk {chunk : Chunk Char} {letter : Char} :
    (ofChunk chunk).letter = some letter ↔
      letter.isUpper = true ∧ chunk.gap.getLast? = some letter := by
  unfold ofChunk
  rw [Option.bind_eq_some_iff]
  constructor
  · rintro ⟨c, hlast, hletter⟩
    have hupper := isUpper_of_letterOf? hletter
    unfold letterOf? at hletter
    by_cases hc : c.isUpper = true
    · rw [if_pos hc, Option.some.injEq] at hletter
      exact ⟨hupper, by rw [hlast, hletter]⟩
    · rw [if_neg hc] at hletter
      cases hletter
  · rintro ⟨hupper, hlast⟩
    exact ⟨letter, hlast, if_pos hupper⟩

/-- The leading token of chunks is the first, as nothing stands before it. -/
theorem first?_map_ofChunk {chunks : List (Chunk Char)}
    (hfirst : ∀ chunk ∈ chunks.head?, chunk.gap = []) :
    first? (chunks.map ofChunk) = chunks.head?.map fun chunk => String.ofList chunk.raw := by
  cases chunks with
  | nil => rfl
  | cons chunk others =>
    have hletter : (ofChunk chunk).letter.isNone = true := by
      rw [ofChunk, hfirst chunk rfl]
      rfl
    have hfound : (ofChunk chunk :: others.map ofChunk).find? (fun g => g.letter.isNone) =
        some (ofChunk chunk) := List.find?_cons_of_pos hletter
    rw [first?, List.map_cons, hfound]
    rfl

/-- The lettered token of a chunk. -/
def tokenOf? (chunk : Chunk Char) : Option (Char × String) :=
  (ofChunk chunk).letter.map fun letter => (letter, String.ofList chunk.raw)

/-- Among the entries of chunks the first with a letter is that of the first chunk with it. -/
theorem lookup_filterMap_tokenOf? (chunks : List (Chunk Char)) (letter : Char) :
    (chunks.filterMap tokenOf?).lookup letter =
      (chunks.find? fun chunk => (ofChunk chunk).letter = some letter).map
        fun chunk => String.ofList chunk.raw := by
  induction chunks with
  | nil => rfl
  | cons chunk others ih =>
    cases hletter : (ofChunk chunk).letter with
    | none =>
      have hentry : tokenOf? chunk = none := by rw [tokenOf?, hletter]; rfl
      rw [List.filterMap_cons_none hentry, ih, List.find?_cons_of_neg (by simp [hletter])]
    | some other =>
      have hentry : tokenOf? chunk = some (other, String.ofList chunk.raw) := by
        rw [tokenOf?, hletter]
        rfl
      rw [List.filterMap_cons_some hentry, List.lookup_cons]
      by_cases hsame : letter = other
      · rw [hsame, beq_self_eq_true, List.find?_cons_of_pos (by simp [hletter])]
        rfl
      · have hother : ¬other = letter := fun h => hsame h.symm
        rw [beq_false_of_ne hsame, ih, List.find?_cons_of_neg (by simp [hletter, hother])]

/-- A letter has the text of the last chunk with it. -/
theorem get?_tokens_map_ofChunk (chunks : List (Chunk Char)) (letter : Char) :
    (tokens (chunks.map ofChunk)).get? letter =
      (chunks.reverse.find? fun chunk => (ofChunk chunk).letter = some letter).map
        fun chunk => String.ofList chunk.raw := by
  have hentries : ((chunks.map ofChunk).filterMap fun g =>
      g.letter.map fun letter => (letter, String.ofList g.raw)) = chunks.filterMap tokenOf? :=
    List.filterMap_map ..
  rw [tokens, hentries, SortedMap.get?_ofList, ← List.filterMap_reverse, lookup_filterMap_tokenOf?]

/-- The chunk with a letter that counts is the last but the first, which has no letter. -/
theorem find?_reverse_ofChunk {chunks : List (Chunk Char)}
    (hfirst : ∀ chunk ∈ chunks.head?, chunk.gap = []) (letter : Char) :
    (chunks.reverse.find? fun chunk => (ofChunk chunk).letter = some letter) =
      if letter.isUpper then
        chunks.tail.reverse.find? fun chunk => chunk.gap.getLast? = some letter
      else none := by
  have hbehind : (chunks.reverse.find? fun chunk => (ofChunk chunk).letter = some letter) =
      chunks.tail.reverse.find? fun chunk => (ofChunk chunk).letter = some letter := by
    cases chunks with
    | nil => rfl
    | cons chunk others =>
      have hletter : ¬(ofChunk chunk).letter = some letter := by
        rw [ofChunk, hfirst chunk rfl]
        exact Option.some_ne_none letter |>.symm
      rw [List.reverse_cons, List.find?_append, List.find?_cons_of_neg (by simp [hletter]),
        List.find?_nil, Option.or_none, List.tail_cons]
  rw [hbehind]
  by_cases hupper : letter.isUpper = true
  · simp only [letter_ofChunk, hupper, true_and, if_true]
  · rw [if_neg hupper, List.find?_eq_none]
    intro chunk _
    simp [letter_ofChunk, hupper]

end Group

/-! ## Reading a layout -/

namespace Layout

variable {layout : Layout Char}

theorem Proper.splitScaling_text (h : layout.Proper Signs.chars) :
    Spell.splitScaling (layout.text Signs.chars) = (layout.body Signs.chars, layout.scaling) := by
  cases hsuffix : layout.suffix with
  | none =>
    have htext : layout.text Signs.chars = layout.body Signs.chars := by
      rw [text, hsuffix]
      exact List.append_nil _
    rw [Spell.splitScaling_of_not_endsInDigits (h.ending hsuffix), htext, scaling, hsuffix]
  | some digits =>
    obtain ⟨t, l, p⟩ := digits
    obtain ⟨ht, hl, hp⟩ := h.digits t l p hsuffix
    rw [text, scaling, hsuffix]
    exact Spell.splitScaling_append _ (if_pos ht) (if_pos hl) (if_pos hp)

theorem Proper.splitMark_body (h : layout.Proper Signs.chars) :
    Spell.splitMark (layout.body Signs.chars) = (layout.rest Signs.chars, layout.mark) := by
  unfold body
  cases hmark : layout.mark with
  | true => rfl
  | false => exact Spell.splitMark_of_not_mark (h.mark hmark)

/-- The spell that is read from the text of a layout has its parts. -/
theorem Proper.hasLayout (h : layout.Proper Signs.chars) :
    (Spell.ofChars (layout.text Signs.chars)).HasLayout layout := by
  obtain ⟨hbase, hbehind⟩ := Spell.takeWhile_dropWhile_brace h.base h.behind_cases
  have hread : Spell.ofChars (layout.text Signs.chars) =
      { base := String.ofList layout.base
        first := Group.first? (layout.chunks.map Group.ofChunk)
        tokens := Group.tokens (layout.chunks.map Group.ofChunk)
        scaling := layout.scaling
        rollAgain := layout.mark } := by
    have hgroups := Group.scan_chunks h.chunks h.tail
    unfold Spell.ofChars
    simp only [h.splitScaling_text, h.splitMark_body]
    rw [rest, hbase, hbehind, behind, hgroups]
  rw [hread]
  exact {
    base := rfl
    rollAgain := rfl
    scaling := rfl
    first := Group.first?_map_ofChunk h.first
    token := by
      intro letter
      change (Group.tokens (layout.chunks.map Group.ofChunk)).get? letter = _
      rw [Group.get?_tokens_map_ofChunk, Group.find?_reverse_ofChunk h.first]
      cases letter.isUpper <;> rfl }

end Layout

end DiceDuel
