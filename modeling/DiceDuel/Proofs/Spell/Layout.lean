import Mathlib.Data.List.Basic

/-!
# The layout of a code

A code is laid out as a mark, a base, groups in braces with gaps before them, a tail that is no
group, and a suffix. The layout is taken over any alphabet with the signs of a code, since a code
is characters for one reader and bytes for another. Every text has exactly one proper layout, and a
cursor that jumps from brace to brace finds it.
-/

namespace DiceDuel

/-- The signs of codes in an alphabet. -/
structure Signs (α : Type) where
  /-- The sign that opens a group. -/
  opening : α
  /-- The sign that closes a group. -/
  closing : α
  /-- The sign before the digits of a suffix. -/
  hyphen : α
  /-- The signs that mark a code as gated by a die. -/
  mark : List α
  /-- Whether a sign is a digit. -/
  isDigit : α → Bool
  /-- The two braces can be told apart. -/
  closing_ne_opening : closing ≠ opening

/-- A group in braces and the gap before it. -/
structure Chunk (α : Type) where
  /-- What stands before the opening brace. -/
  gap : List α
  /-- What stands between the braces. -/
  raw : List α

/-- The parts of a code. -/
structure Layout (α : Type) where
  /-- Whether there is a mark in front. -/
  mark : Bool
  /-- What stands before the first brace. -/
  base : List α
  /-- The groups with their gaps. -/
  chunks : List (Chunk α)
  /-- What stands behind the last group. -/
  tail : List α
  /-- The digits of the suffix, if there is one. -/
  suffix : Option (α × α × α)

variable {α : Type} (signs : Signs α)

namespace Signs

/-- A mark as it is written. -/
def front (mark : Bool) : List α := if mark then signs.mark else []

/-- A suffix as it is written. -/
def ending : Option (α × α × α) → List α
  | none => []
  | some (t, l, p) => [signs.hyphen, t, l, p]

/-- Whether a text ends in a hyphen and three digits. -/
def EndsInDigits (text : List α) : Prop :=
  ∃ t l p : α, signs.isDigit t = true ∧ signs.isDigit l = true ∧ signs.isDigit p = true ∧
    [signs.hyphen, t, l, p] <:+ text

end Signs

/-- A gap and its group as they are written. -/
def Chunk.text (chunk : Chunk α) : List α :=
  chunk.gap ++ signs.opening :: (chunk.raw ++ [signs.closing])

namespace Layout

/-- What stands behind the base. -/
def behind (layout : Layout α) : List α :=
  layout.chunks.flatMap (Chunk.text signs) ++ layout.tail

/-- The base and what stands behind it. -/
def rest (layout : Layout α) : List α := layout.base ++ layout.behind signs

/-- The text before the suffix. -/
def body (layout : Layout α) : List α := signs.front layout.mark ++ layout.rest signs

/-- The whole text of a layout. -/
def text (layout : Layout α) : List α := layout.body signs ++ signs.ending layout.suffix

end Layout

variable [DecidableEq α]

/-- A chunk ends at the first closing brace behind its first opening one. -/
structure Chunk.Proper (chunk : Chunk α) : Prop where
  /-- The gap has no opening brace. -/
  gap : signs.opening ∉ chunk.gap
  /-- The group has no closing brace. -/
  raw : signs.closing ∉ chunk.raw

/-- A layout with every part where the grammar puts it. -/
structure Layout.Proper (layout : Layout α) : Prop where
  /-- A suffix has digits. -/
  digits : ∀ t l p, layout.suffix = some (t, l, p) →
    signs.isDigit t = true ∧ signs.isDigit l = true ∧ signs.isDigit p = true
  /-- Without a suffix the text does not end like one. -/
  ending : layout.suffix = none → ¬signs.EndsInDigits (layout.text signs)
  /-- Without a mark the text before the suffix does not begin with one. -/
  mark : layout.mark = false → ¬signs.mark <+: layout.rest signs
  /-- The base ends before the first opening brace. -/
  base : signs.opening ∉ layout.base
  /-- The gaps have no opening braces, the groups no closing ones. -/
  chunks : ∀ chunk ∈ layout.chunks, chunk.Proper signs
  /-- The first group stands directly behind the base. -/
  first : ∀ chunk ∈ layout.chunks.head?, chunk.gap = []
  /-- Behind its first opening brace the tail has no closing one. -/
  tail : signs.closing ∉ layout.tail.dropWhile (· != signs.opening)
  /-- Without groups the tail begins with an opening brace, if there is a tail. -/
  bare : layout.chunks = [] → layout.tail = [] ∨ ∃ more, layout.tail = signs.opening :: more

/-! ## Every text has a proper layout -/

namespace Signs

section Braces

variable {signs} {gap more tail : List α}

/-- Looking for an opening brace passes by any text without one. -/
theorem dropWhile_append (hgap : signs.opening ∉ gap) (more : List α) :
    (gap ++ more).dropWhile (· != signs.opening) = more.dropWhile (· != signs.opening) := by
  refine List.dropWhile_append_of_pos fun sign hsign => bne_iff_ne.mpr ?_
  rintro rfl
  exact hgap hsign

/-- Looking for an opening brace stops at the first. -/
theorem dropWhile_append_opening (hgap : signs.opening ∉ gap) (more : List α) :
    (gap ++ signs.opening :: more).dropWhile (· != signs.opening) = signs.opening :: more := by
  rw [dropWhile_append hgap, List.dropWhile_cons_of_neg (by simp)]

/-- Looking for an opening brace finds nothing in a text without one. -/
theorem dropWhile_of_notMem (htail : signs.opening ∉ tail) :
    tail.dropWhile (· != signs.opening) = [] := by
  have hdrop := dropWhile_append htail []
  rwa [List.append_nil] at hdrop

/-- What stands behind the last group has no opening brace, or no closing one behind the first
that it has. -/
theorem tail_cases (htail : signs.closing ∉ tail.dropWhile (· != signs.opening)) :
    signs.opening ∉ tail ∨ ∃ gap more, tail = gap ++ signs.opening :: more ∧
      signs.opening ∉ gap ∧ signs.closing ∉ more := by
  by_cases hopening : signs.opening ∈ tail
  · obtain ⟨gap, more, rfl, hgap⟩ := List.eq_append_cons_of_mem hopening
    rw [dropWhile_append_opening hgap] at htail
    exact .inr ⟨gap, more, rfl, hgap, fun hmem => htail (List.mem_cons_of_mem _ hmem)⟩
  · exact .inl hopening

end Braces

/-- Every text is a row of chunks and a tail. -/
theorem exists_chunks (text : List α) :
    ∃ (chunks : List (Chunk α)) (tail : List α),
      text = chunks.flatMap (Chunk.text signs) ++ tail ∧
      (∀ chunk ∈ chunks, chunk.Proper signs) ∧
      signs.closing ∉ tail.dropWhile (· != signs.opening) := by
  -- The text behind a group is shorter by the braces of the group.
  induction hlength : text.length using Nat.strongRecOn generalizing text with
  | _ n ih =>
    have hwhole (hnone : signs.closing ∉ text.dropWhile (· != signs.opening)) :
        ∃ (chunks : List (Chunk α)) (tail : List α),
          text = chunks.flatMap (Chunk.text signs) ++ tail ∧
          (∀ chunk ∈ chunks, chunk.Proper signs) ∧
          signs.closing ∉ tail.dropWhile (· != signs.opening) :=
      ⟨[], text, rfl, fun _ hmem => (List.not_mem_nil hmem).elim, hnone⟩
    by_cases hopening : signs.opening ∈ text
    · obtain ⟨gap, inside, rfl, hgap⟩ := List.eq_append_cons_of_mem hopening
      by_cases hclosing : signs.closing ∈ inside
      · obtain ⟨raw, more, rfl, hraw⟩ := List.eq_append_cons_of_mem hclosing
        have hshorter : more.length < n := by
          rw [← hlength]
          simp only [List.length_append, List.length_cons]
          omega
        obtain ⟨chunks, tail, rfl, hchunks, htail⟩ := ih _ hshorter more rfl
        refine ⟨⟨gap, raw⟩ :: chunks, tail, ?_, ?_, htail⟩
        · simp [Chunk.text]
        · exact List.forall_mem_cons.mpr ⟨⟨hgap, hraw⟩, hchunks⟩
      · refine hwhole ?_
        rw [dropWhile_append_opening hgap, List.mem_cons, not_or]
        exact ⟨signs.closing_ne_opening, hclosing⟩
    · refine hwhole ?_
      rw [dropWhile_of_notMem hopening]
      exact List.not_mem_nil

omit [DecidableEq α] in
/-- Every text is a text that has a suffix or does not end like one. -/
theorem exists_ending (text : List α) :
    ∃ (body : List α) (suffix : Option (α × α × α)), body ++ signs.ending suffix = text ∧
      (∀ t l p, suffix = some (t, l, p) →
        signs.isDigit t = true ∧ signs.isDigit l = true ∧ signs.isDigit p = true) ∧
      (suffix = none → ¬signs.EndsInDigits text) := by
  by_cases hends : signs.EndsInDigits text
  · obtain ⟨t, l, p, ht, hl, hp, body, hbody⟩ := hends
    refine ⟨body, some (t, l, p), hbody, ?_, Option.some_ne_none _ |>.elim⟩
    rintro t l p ⟨⟩
    exact ⟨ht, hl, hp⟩
  · exact ⟨text, none, List.append_nil _, fun _ _ _ hsome => (nomatch hsome), fun _ => hends⟩

/-- Every text is a text that has a mark or does not begin with one. -/
theorem exists_front (body : List α) :
    ∃ (mark : Bool) (rest : List α), signs.front mark ++ rest = body ∧
      (mark = false → ¬signs.mark <+: rest) := by
  by_cases hfront : signs.mark <+: body
  · obtain ⟨rest, hrest⟩ := hfront
    exact ⟨true, rest, hrest, fun hfalse => (nomatch hfalse)⟩
  · exact ⟨false, body, rfl, fun _ => hfront⟩

/-- Every text is a base and a text that begins with an opening brace if it is not empty. -/
theorem exists_base (rest : List α) :
    ∃ base behind : List α, base ++ behind = rest ∧ signs.opening ∉ base ∧
      (behind = [] ∨ ∃ more, behind = signs.opening :: more) := by
  by_cases hopening : signs.opening ∈ rest
  · obtain ⟨base, more, rfl, hbase⟩ := List.eq_append_cons_of_mem hopening
    exact ⟨base, signs.opening :: more, rfl, hbase, .inr ⟨more, rfl⟩⟩
  · exact ⟨rest, [], List.append_nil _, hopening, .inl rfl⟩

end Signs

omit [DecidableEq α] in
/-- In a text that begins with an opening brace nothing stands before the first group. -/
theorem Chunk.gap_eq_nil_of_head? {signs : Signs α} {chunks : List (Chunk α)} {tail : List α}
    (hchunks : ∀ chunk ∈ chunks, chunk.Proper signs)
    (hbehind : chunks.flatMap (Chunk.text signs) ++ tail = [] ∨
      ∃ more, chunks.flatMap (Chunk.text signs) ++ tail = signs.opening :: more) :
    ∀ chunk ∈ chunks.head?, chunk.gap = [] := by
  intro chunk hhead
  obtain ⟨others, rfl⟩ := List.head?_eq_some_iff.mp hhead
  have hgap := (hchunks chunk List.mem_cons_self).gap
  rw [List.flatMap_cons, Chunk.text] at hbehind
  cases hfront : chunk.gap with
  | nil => rfl
  | cons sign gap =>
    rw [hfront] at hbehind hgap
    rcases hbehind with hnil | ⟨more, hmore⟩
    · cases hnil
    · obtain rfl : sign = signs.opening := (List.cons.inj hmore).1
      exact absurd List.mem_cons_self hgap

/-- Every text has a proper layout. -/
theorem Layout.exists_proper (signs : Signs α) (text : List α) :
    ∃ layout : Layout α, layout.Proper signs ∧ layout.text signs = text := by
  obtain ⟨body, suffix, rfl, hdigits, hending⟩ := signs.exists_ending text
  obtain ⟨mark, rest, rfl, hmark⟩ := signs.exists_front body
  obtain ⟨base, behind, rfl, hbase, hbehind⟩ := signs.exists_base rest
  obtain ⟨chunks, tail, rfl, hchunks, htail⟩ := signs.exists_chunks behind
  refine ⟨⟨mark, base, chunks, tail, suffix⟩, ?_, rfl⟩
  exact {
    digits := hdigits
    ending := hending
    mark := hmark
    base := hbase
    chunks := hchunks
    first := Chunk.gap_eq_nil_of_head? hchunks hbehind
    tail := htail
    bare := by
      rintro rfl
      exact hbehind }

/-! ## A cursor finds the layout -/

namespace Signs

/-- A text cut before its suffix, and the digits of the suffix. -/
def cutEnding (text : List α) : List α × Option (α × α × α) :=
  match text.drop (text.length - 4) with
  | [hyphen, t, l, p] =>
    if hyphen = signs.hyphen ∧ signs.isDigit t ∧ signs.isDigit l ∧ signs.isDigit p then
      (text.take (text.length - 4), some (t, l, p))
    else (text, none)
  | _ => (text, none)

/-- A text without a mark in front, and whether it had one. -/
def cutFront (body : List α) : List α × Bool :=
  if signs.mark.isPrefixOf body then (body.drop signs.mark.length, true) else (body, false)

/-- The first place of a sign at a cursor or behind it, or the end of the text. -/
def find (text : List α) (cursor : Nat) (sign : α) : Nat := cursor + (text.drop cursor).idxOf sign

/-- Where the next group opens at a cursor or behind it. -/
def openingFrom (text : List α) (cursor : Nat) : Nat := find text cursor signs.opening

/-- Where the next group closes at a cursor or behind it. -/
def closingFrom (text : List α) (cursor : Nat) : Nat :=
  find text (signs.openingFrom text cursor + 1) signs.closing

/-- The next group closes behind the cursor. -/
theorem lt_closingFrom (text : List α) (cursor : Nat) : cursor < signs.closingFrom text cursor :=
  Nat.lt_of_lt_of_le (Nat.lt_succ_of_le (Nat.le_add_right cursor _)) (Nat.le_add_right _ _)

/-- What stands between two places of a text. -/
def slice (text : List α) (start stop : Nat) : List α := (text.drop start).take (stop - start)

/-- The next gap and the next group at a cursor or behind it. -/
def chunkFrom (text : List α) (cursor : Nat) : Chunk α where
  gap := slice text cursor (signs.openingFrom text cursor)
  raw := slice text (signs.openingFrom text cursor + 1) (signs.closingFrom text cursor)

/-- The chunks of a text from a cursor on, and the cursor behind the last of them. -/
def chunksFrom (text : List α) (cursor : Nat) : List (Chunk α) × Nat :=
  if signs.closingFrom text cursor < text.length then
    let found := chunksFrom text (signs.closingFrom text cursor + 1)
    (signs.chunkFrom text cursor :: found.1, found.2)
  else ([], cursor)
termination_by text.length - cursor
decreasing_by
  have hforward := signs.lt_closingFrom text cursor
  omega

/-- The layout of a text, found from the places of its signs. -/
def read (text : List α) : Layout α :=
  let cut := signs.cutEnding text
  let body := signs.cutFront cut.1
  let brace := body.1.idxOf signs.opening
  let behind := body.1.drop brace
  let found := signs.chunksFrom behind 0
  { mark := body.2
    base := body.1.take brace
    chunks := found.1
    tail := behind.drop found.2
    suffix := cut.2 }

variable {signs}

/-- A place in a text behind another text. -/
theorem find_append (before text : List α) (sign : α) :
    find (before ++ text) before.length sign = before.length + text.idxOf sign := by
  rw [find, List.drop_left]

/-- A sign is found where it stands first. -/
theorem find_append_cons (before : List α) {middle : List α} {sign : α} (hmiddle : sign ∉ middle)
    (behind : List α) :
    find (before ++ (middle ++ sign :: behind)) before.length sign =
      (before ++ middle).length := by
  rw [find_append, List.idxOf_append_of_notMem hmiddle, List.idxOf_cons_self, Nat.add_zero,
    List.length_append]

omit [DecidableEq α] in
/-- What stands between the ends of two texts. -/
theorem slice_append (before middle behind : List α) :
    slice (before ++ (middle ++ behind)) before.length (before ++ middle).length = middle := by
  rw [slice, List.drop_left, List.length_append, Nat.add_sub_cancel_left, List.take_left]

/-- Behind the last group the cursor stays where it is. -/
theorem chunksFrom_tail (before : List α) {tail : List α}
    (htail : signs.closing ∉ tail.dropWhile (· != signs.opening)) :
    signs.chunksFrom (before ++ tail) before.length = ([], before.length) := by
  rw [chunksFrom]
  refine if_neg (Nat.not_lt.mpr ?_)
  rcases tail_cases htail with hnone | ⟨gap, more, rfl, hgap, hmore⟩
  · have hopening : signs.openingFrom (before ++ tail) before.length = (before ++ tail).length := by
      rw [openingFrom, find_append, List.idxOf_eq_length hnone, List.length_append]
    rw [closingFrom, hopening]
    exact Nat.le_trans (Nat.le_succ _) (Nat.le_add_right _ _)
  · have hopening : signs.openingFrom (before ++ (gap ++ signs.opening :: more)) before.length =
        (before ++ gap).length := find_append_cons before hgap more
    have hinside : before ++ (gap ++ signs.opening :: more) =
        (before ++ gap ++ [signs.opening]) ++ more := by simp
    have hstart : (before ++ gap).length + 1 = (before ++ gap ++ [signs.opening]).length := by
      simp [Nat.add_assoc]
    have hclosing : signs.closingFrom (before ++ (gap ++ signs.opening :: more)) before.length =
        (before ++ (gap ++ signs.opening :: more)).length := by
      rw [closingFrom, hopening, hstart, hinside, find_append, List.idxOf_eq_length hmore,
        ← List.length_append]
    exact Nat.le_of_eq hclosing.symm

/-- The cursor finds the chunk that stands there and goes on behind it. -/
theorem chunksFrom_cons (before : List α) {chunk : Chunk α} (hchunk : chunk.Proper signs)
    (more : List α) :
    signs.chunksFrom (before ++ (chunk.text signs ++ more)) before.length =
      let found := signs.chunksFrom ((before ++ chunk.text signs) ++ more)
        (before ++ chunk.text signs).length
      (chunk :: found.1, found.2) := by
  obtain ⟨gap, raw⟩ := chunk
  -- The opening brace is searched from the cursor on, the closing one from behind it.
  have htext : before ++ (Chunk.text signs ⟨gap, raw⟩ ++ more) =
      before ++ (gap ++ signs.opening :: (raw ++ signs.closing :: more)) := by simp [Chunk.text]
  have hinside : before ++ (gap ++ signs.opening :: (raw ++ signs.closing :: more)) =
      (before ++ gap ++ [signs.opening]) ++ (raw ++ signs.closing :: more) := by simp
  have hstart : (before ++ gap).length + 1 = (before ++ gap ++ [signs.opening]).length := by
    simp [Nat.add_assoc]
  have hopening : signs.openingFrom (before ++ (Chunk.text signs ⟨gap, raw⟩ ++ more))
      before.length = (before ++ gap).length := by
    rw [htext]
    exact find_append_cons before hchunk.gap _
  have hclosing : signs.closingFrom (before ++ (Chunk.text signs ⟨gap, raw⟩ ++ more))
      before.length = (before ++ gap ++ [signs.opening] ++ raw).length := by
    rw [closingFrom, hopening, hstart, htext, hinside]
    exact find_append_cons _ hchunk.raw _
  have hfound : signs.chunkFrom (before ++ (Chunk.text signs ⟨gap, raw⟩ ++ more)) before.length =
      ⟨gap, raw⟩ := by
    rw [chunkFrom, hopening, hclosing, hstart, htext, slice_append, hinside, slice_append]
  have hnext : (before ++ gap ++ [signs.opening] ++ raw).length + 1 =
      (before ++ Chunk.text signs ⟨gap, raw⟩).length := by
    simp only [Chunk.text, List.length_append, List.length_cons, List.length_nil]
    omega
  have hclosed : signs.closingFrom (before ++ (Chunk.text signs ⟨gap, raw⟩ ++ more))
      before.length < (before ++ (Chunk.text signs ⟨gap, raw⟩ ++ more)).length := by
    have hlength := (List.prefix_append (before ++ Chunk.text signs ⟨gap, raw⟩) more).length_le
    rw [hclosing, ← List.append_assoc]
    omega
  rw [chunksFrom, if_pos hclosed, hfound, hclosing, hnext, List.append_assoc]

/-- The cursor finds chunk by chunk. -/
theorem chunksFrom_append (before : List α) {chunks : List (Chunk α)} {tail : List α}
    (hchunks : ∀ chunk ∈ chunks, chunk.Proper signs)
    (htail : signs.closing ∉ tail.dropWhile (· != signs.opening)) :
    signs.chunksFrom (before ++ (chunks.flatMap (Chunk.text signs) ++ tail)) before.length =
      (chunks, (before ++ chunks.flatMap (Chunk.text signs)).length) := by
  induction chunks generalizing before with
  | nil =>
    rw [List.flatMap_nil, List.nil_append, List.append_nil]
    exact chunksFrom_tail before htail
  | cons chunk others ih =>
    obtain ⟨hchunk, hothers⟩ := List.forall_mem_cons.mp hchunks
    rw [List.flatMap_cons, List.append_assoc, chunksFrom_cons before hchunk, ih _ hothers,
      List.append_assoc]

/-- A suffix is cut off. -/
theorem cutEnding_append (body : List α) {t l p : α} (ht : signs.isDigit t = true)
    (hl : signs.isDigit l = true) (hp : signs.isDigit p = true) :
    signs.cutEnding (body ++ [signs.hyphen, t, l, p]) = (body, some (t, l, p)) := by
  have hlength : (body ++ [signs.hyphen, t, l, p]).length - 4 = body.length := by simp
  rw [cutEnding, hlength, List.drop_left, List.take_left]
  exact if_pos ⟨rfl, ht, hl, hp⟩

/-- From a text without a suffix nothing is cut off. -/
theorem cutEnding_of_not_endsInDigits {text : List α} (htext : ¬signs.EndsInDigits text) :
    signs.cutEnding text = (text, none) := by
  unfold cutEnding
  split
  · rename_i hyphen t l p hdrop
    refine if_neg ?_
    rintro ⟨rfl, ht, hl, hp⟩
    refine htext ⟨t, l, p, ht, hl, hp, ?_⟩
    rw [← hdrop]
    exact List.drop_suffix _ _
  · rfl

/-- A mark is cut off where there is one. -/
theorem cutFront_append {mark : Bool} {rest : List α}
    (hmark : mark = false → ¬signs.mark <+: rest) :
    signs.cutFront (signs.front mark ++ rest) = (rest, mark) := by
  cases mark with
  | true =>
    have hstarts : signs.mark.isPrefixOf (signs.mark ++ rest) = true :=
      List.isPrefixOf_iff_prefix.mpr (List.prefix_append _ _)
    rw [front, if_pos rfl, cutFront, if_pos hstarts, List.drop_left]
  | false =>
    refine if_neg fun hstarts => hmark rfl ?_
    exact List.isPrefixOf_iff_prefix.mp hstarts

end Signs

namespace Layout

variable {signs} {layout : Layout α}

/-- The suffix of a proper layout is cut off. -/
theorem Proper.cutEnding_text (h : layout.Proper signs) :
    signs.cutEnding (layout.text signs) = (layout.body signs, layout.suffix) := by
  cases hsuffix : layout.suffix with
  | none =>
    have htext : layout.text signs = layout.body signs := by
      rw [text, hsuffix]
      exact List.append_nil _
    rw [Signs.cutEnding_of_not_endsInDigits (h.ending hsuffix), htext]
  | some digits =>
    obtain ⟨t, l, p⟩ := digits
    obtain ⟨ht, hl, hp⟩ := h.digits t l p hsuffix
    rw [text, hsuffix]
    exact Signs.cutEnding_append _ ht hl hp

/-- What stands behind the base of a proper layout is empty or begins with an opening brace. -/
theorem Proper.behind_cases (h : layout.Proper signs) :
    layout.behind signs = [] ∨ ∃ more, layout.behind signs = signs.opening :: more := by
  unfold behind
  cases hchunks : layout.chunks with
  | nil => exact h.bare hchunks
  | cons chunk others =>
    have hgap : chunk.gap = [] := h.first chunk (by rw [hchunks]; rfl)
    rw [List.flatMap_cons, Chunk.text, hgap]
    exact .inr ⟨_, rfl⟩

/-- The base of a proper layout ends at the first opening brace behind it. -/
theorem Proper.idxOf_rest (h : layout.Proper signs) :
    (layout.rest signs).idxOf signs.opening = layout.base.length := by
  rw [rest]
  rcases h.behind_cases with hnil | ⟨more, hmore⟩
  · rw [hnil, List.append_nil, List.idxOf_eq_length h.base]
  · rw [hmore, List.idxOf_append_of_notMem h.base, List.idxOf_cons_self, Nat.add_zero]

/-- A proper layout is read from its text. -/
theorem Proper.read_text (h : layout.Proper signs) : signs.read (layout.text signs) = layout := by
  have hfound : signs.chunksFrom (layout.behind signs) 0 =
      (layout.chunks, (layout.chunks.flatMap (Chunk.text signs)).length) :=
    Signs.chunksFrom_append [] h.chunks h.tail
  have htail : (layout.behind signs).drop (layout.chunks.flatMap (Chunk.text signs)).length =
      layout.tail := List.drop_left
  have hbehind : (layout.rest signs).drop layout.base.length = layout.behind signs :=
    List.drop_left
  have hbase : (layout.rest signs).take layout.base.length = layout.base := List.take_left
  have hfront : signs.cutFront (layout.body signs) = (layout.rest signs, layout.mark) :=
    Signs.cutFront_append h.mark
  simp only [Signs.read, h.cutEnding_text, hfront, h.idxOf_rest, hbehind, hbase, hfound, htail]

/-- A text has one proper layout at most. -/
theorem Proper.unique {other : Layout α} (h : layout.Proper signs) (hother : other.Proper signs)
    (htext : other.text signs = layout.text signs) : other = layout := by
  rw [← hother.read_text, htext, h.read_text]

end Layout

end DiceDuel
