import DiceDuel.HashTable.Path

/-!
# Hash tables

A table keeps its entries in cells. A new key takes the first free cell on the path of its hash, and
a table without room is laid out anew in twice as many cells before anything is put in. The entries
come in the order of the cells, so their order hangs on the hashes and on everything that was put in
before. What the table holds does not: a key has the value that it was given last.
-/

namespace DiceDuel

-- A power is the core library's, whatever other instances a module that uses this one brings in.
attribute [local instance (high)] instPowNat

namespace HashTable

section Cells

variable {κ α : Type}

/-- The entries in cells, in the order of the cells. -/
def taken (cells : List (Option (κ × α))) : List (κ × α) := cells.filterMap id

/-- How many entries a number of cells may hold: all but one up to eight cells, and seven for each
eight beyond. -/
def capacity (size : Nat) : Nat := if size ≤ 8 then size - 1 else size / 8 * 7

/-- The number of cells after a doubling. -/
def doubled (size : Nat) : Nat := if size = 0 then 4 else 2 * size

/-- The first free cell on the path of a hash. -/
def free? (cells : List (Option (κ × α))) (hash : UInt64) : Option Nat :=
  (path cells.length hash).find? fun place => cells[place]? matches some none

/-- Cells with one more entry, in the first free cell on its path. -/
def put (hash : κ → UInt64) (cells : List (Option (κ × α))) (entry : κ × α) :
    List (Option (κ × α)) :=
  match free? cells (hash entry.1) with
  | some place => cells.set place (some entry)
  | none => cells

/-- Cells with room for one more entry: the same, or twice as many with the entries laid out anew
in their order. -/
def widen (hash : κ → UInt64) (cells : List (Option (κ × α))) : List (Option (κ × α)) :=
  if (taken cells).length < capacity cells.length then cells
  else (taken cells).foldl (put hash) (List.replicate (doubled cells.length) none)

/-! ## Free cells -/

variable {cells : List (Option (κ × α))}

/-- An entry that is put in a free cell joins the entries. -/
theorem taken_set_perm {place : Nat} (hfree : cells[place]? = some none) (entry : κ × α) :
    (taken (cells.set place (some entry))).Perm (entry :: taken cells) := by
  induction cells generalizing place with
  | nil => cases hfree
  | cons cell rest ih =>
    cases place with
    | zero =>
      cases (Option.some.inj hfree : cell = none)
      exact .refl _
    | succ place =>
      have hrest := ih hfree
      cases cell with
      | none => exact hrest
      | some other => exact (hrest.cons other).trans (.swap entry other _)

/-- Among more cells than entries one is free. -/
theorem exists_free (hroom : (taken cells).length < cells.length) :
    ∃ place, place < cells.length ∧ cells[place]? = some none := by
  induction cells with
  | nil => exact absurd hroom (Nat.lt_irrefl 0)
  | cons cell rest ih =>
    cases cell with
    | none => exact ⟨0, Nat.zero_lt_succ _, rfl⟩
    | some entry =>
      obtain ⟨place, hplace, hfree⟩ := ih (Nat.lt_of_succ_lt_succ hroom)
      exact ⟨place + 1, Nat.succ_lt_succ hplace, hfree⟩

/-- The path of a hash leads to a free cell if there is one. -/
theorem exists_free?_eq_some {exponent : Nat} (hsize : cells.length = 4 * 2 ^ exponent)
    (hroom : (taken cells).length < cells.length) (hash : UInt64) :
    ∃ place, free? cells hash = some place ∧ cells[place]? = some none := by
  obtain ⟨place, hplace, hfree⟩ := exists_free hroom
  have hpath : place ∈ path cells.length hash := by
    rw [hsize] at hplace ⊢
    exact mem_path hplace hash
  cases hfound : free? cells hash with
  | none =>
    have hmissed := List.find?_eq_none.mp hfound place hpath
    simp [hfree] at hmissed
  | some found =>
    have hmatches := List.find?_some hfound
    refine ⟨found, rfl, ?_⟩
    split at hmatches
    · assumption
    · cases hmatches

/-- To put an entry in leaves the number of cells. -/
@[simp] theorem length_put (hash : κ → UInt64) (entry : κ × α) :
    (put hash cells entry).length = cells.length := by
  unfold put
  split
  · exact List.length_set
  · rfl

/-- An entry that is put into cells with a free one joins the entries. -/
theorem taken_put_perm {exponent : Nat} (hsize : cells.length = 4 * 2 ^ exponent)
    (hroom : (taken cells).length < cells.length) (hash : κ → UInt64) (entry : κ × α) :
    (taken (put hash cells entry)).Perm (entry :: taken cells) := by
  obtain ⟨place, hfound, hfree⟩ := exists_free?_eq_some hsize hroom (hash entry.1)
  rw [put, hfound]
  exact taken_set_perm hfree entry

/-- Entries that are put in one after the other join the entries, if there are cells for all. -/
theorem taken_foldl_put_perm {exponent : Nat} {entries : List (κ × α)}
    (hsize : cells.length = 4 * 2 ^ exponent)
    (hroom : entries.length + (taken cells).length ≤ cells.length) (hash : κ → UInt64) :
    (entries.foldl (put hash) cells).length = cells.length ∧
      (taken (entries.foldl (put hash) cells)).Perm (entries ++ taken cells) := by
  induction entries generalizing cells with
  | nil => exact ⟨rfl, .refl _⟩
  | cons entry rest ih =>
    rw [List.length_cons] at hroom
    have hput := taken_put_perm hsize (by omega) hash entry
    have hroom' : rest.length + (taken (put hash cells entry)).length ≤
        (put hash cells entry).length := by
      rw [hput.length_eq, length_put, List.length_cons]
      omega
    obtain ⟨hlength, hperm⟩ := ih ((length_put hash entry).trans hsize) hroom'
    refine ⟨hlength.trans (length_put hash entry), hperm.trans ?_⟩
    exact (hput.append_left rest).trans List.perm_middle

/-! ## Well-formed cells -/

/-- There are no cells or a power of two of them, four or more, no key occurs twice, and the entries
are within the capacity. -/
structure Sound (cells : List (Option (κ × α))) : Prop where
  /-- The number of cells is none or a power of two. -/
  sized : cells.length = 0 ∨ ∃ exponent : Nat, cells.length = 4 * 2 ^ exponent
  /-- No key occurs twice. -/
  distinct : (taken cells).Pairwise (·.1 ≠ ·.1)
  /-- The entries are within the capacity. -/
  within : (taken cells).length ≤ capacity cells.length

/-- Cells are never filled up. -/
theorem capacity_lt {size : Nat} (hsize : 0 < size) : capacity size < size := by
  unfold capacity
  split <;> omega

/-- A doubling raises the capacity. -/
theorem capacity_lt_doubled (size : Nat) : capacity size < capacity (doubled size) := by
  unfold capacity doubled
  split <;> split <;> split <;> omega

/-- A doubling leads from no cells or a power of two of them to a power of two. -/
theorem exists_doubled_eq {size : Nat}
    (hsize : size = 0 ∨ ∃ exponent : Nat, size = 4 * 2 ^ exponent) :
    ∃ exponent : Nat, doubled size = 4 * 2 ^ exponent := by
  rcases hsize with rfl | ⟨exponent, rfl⟩
  · exact ⟨0, rfl⟩
  · have hpositive : 0 < 2 ^ exponent := Nat.two_pow_pos exponent
    refine ⟨exponent + 1, ?_⟩
    rw [doubled, if_neg (by omega), Nat.pow_succ]
    omega

/-- Free cells have no entries. -/
theorem taken_replicate_none (size : Nat) :
    taken (List.replicate size (none : Option (κ × α))) = [] := by
  induction size with
  | zero => rfl
  | succ size ih => exact ih

/-- After widening there is room for one more entry, and the entries are the same up to their
order. -/
theorem Sound.widened (h : Sound cells) (hash : κ → UInt64) :
    (∃ exponent : Nat, (widen hash cells).length = 4 * 2 ^ exponent) ∧
      (taken (widen hash cells)).Perm (taken cells) ∧
      (taken cells).length < capacity (widen hash cells).length := by
  unfold widen
  by_cases hroom : (taken cells).length < capacity cells.length
  · rw [if_pos hroom]
    refine ⟨h.sized.resolve_left fun hnone => ?_, .refl _, hroom⟩
    rw [hnone] at hroom
    exact absurd hroom (Nat.not_lt_zero _)
  · rw [if_neg hroom]
    obtain ⟨exponent, hdoubled⟩ := exists_doubled_eq h.sized
    have hpositive : 0 < doubled cells.length := by
      have := Nat.two_pow_pos exponent
      omega
    have hwithin : (taken cells).length < capacity (doubled cells.length) :=
      Nat.lt_of_le_of_lt h.within (capacity_lt_doubled cells.length)
    have hbelow := capacity_lt hpositive
    let blank : List (Option (κ × α)) := List.replicate (doubled cells.length) none
    have hblank : blank.length = doubled cells.length := List.length_replicate
    have hnothing : taken blank = [] := taken_replicate_none _
    have hroom' : (taken cells).length + (taken blank).length ≤ blank.length := by
      rw [hnothing, hblank, List.length_nil]
      omega
    obtain ⟨hlength, hperm⟩ := taken_foldl_put_perm (hblank.trans hdoubled) hroom' hash
    rw [hnothing, List.append_nil] at hperm
    rw [hlength, hblank]
    exact ⟨⟨exponent, hdoubled⟩, hperm, hwithin⟩

/-! ## Entering a value -/

variable [DecidableEq κ]

/-- An entry with another value if it is that of a key. -/
def revalue (key : κ) (value : α) (entry : κ × α) : κ × α :=
  if entry.1 = key then (key, value) else entry

/-- A new value leaves the key. -/
@[simp] theorem revalue_fst (key : κ) (value : α) (entry : κ × α) :
    (revalue key value entry).1 = entry.1 := by
  unfold revalue
  split
  · next hkey => exact hkey.symm
  · rfl

/-- Among entries with a key, those with another value for it: the key has that value alone, and
every other key what it had. -/
theorem mem_map_revalue_iff {entries : List (κ × α)} {key other : κ} {value old searched : α}
    (hold : (key, old) ∈ entries) :
    (other, searched) ∈ entries.map (revalue key value) ↔
      if other = key then searched = value else (other, searched) ∈ entries := by
  rw [List.mem_map]
  by_cases hother : other = key
  · rw [if_pos hother]
    constructor
    · rintro ⟨entry, -, hentry⟩
      have hkey : entry.1 = key := by rw [← revalue_fst key value entry, hentry, hother]
      rw [revalue, if_pos hkey] at hentry
      exact (Prod.mk.inj hentry).2.symm
    · rintro rfl
      exact ⟨(key, old), hold, by rw [revalue, if_pos rfl, hother]⟩
  · rw [if_neg hother]
    constructor
    · rintro ⟨entry, hmem, hentry⟩
      have hkey : entry.1 ≠ key := by rwa [← revalue_fst key value entry, hentry]
      rw [revalue, if_neg hkey] at hentry
      exact hentry ▸ hmem
    · intro hmem
      exact ⟨(other, searched), hmem, if_neg hother⟩

/-- Cells with another value in the entry of a key. -/
def replace (key : κ) (value : α) (cells : List (Option (κ × α))) : List (Option (κ × α)) :=
  cells.map (Option.map (revalue key value))

/-- Whether a key has an entry. -/
def holds (cells : List (Option (κ × α))) (key : κ) : Bool := (taken cells).any (·.1 = key)

/-- A key has an entry if it occurs with some value. -/
theorem holds_eq_true_iff {key : κ} :
    holds cells key = true ↔ ∃ value, (key, value) ∈ taken cells := by
  rw [holds, List.any_eq_true]
  constructor
  · rintro ⟨⟨other, value⟩, hentry, hsame⟩
    obtain rfl : other = key := of_decide_eq_true hsame
    exact ⟨value, hentry⟩
  · rintro ⟨value, hentry⟩
    exact ⟨(key, value), hentry, decide_eq_true rfl⟩

/-- Cells with a value for a key, in place of any value there. Room is made first, also where it is
not needed. -/
def enter (hash : κ → UInt64) (key : κ) (value : α) (cells : List (Option (κ × α))) :
    List (Option (κ × α)) :=
  if holds cells key then replace key value (widen hash cells)
  else put hash (widen hash cells) (key, value)

/-- The entries after a replacement are the old ones with the new value. -/
theorem taken_replace (key : κ) (value : α) :
    taken (replace key value cells) = (taken cells).map (revalue key value) := by
  induction cells with
  | nil => rfl
  | cons cell rest ih =>
    cases cell with
    | none => exact ih
    | some entry => exact congrArg (revalue key value entry :: ·) ih

/-- The entries after a value was entered, up to their order: the old ones with the new value if the
key had one, and otherwise one more. -/
theorem Sound.taken_enter_perm (h : Sound cells) (hash : κ → UInt64) (key : κ) (value : α) :
    (taken (enter hash key value cells)).Perm
      (if holds cells key then (taken cells).map (revalue key value)
        else (key, value) :: taken cells) := by
  obtain ⟨⟨exponent, hsize⟩, hperm, hroom⟩ := h.widened hash
  unfold enter
  split
  · rw [taken_replace]
    exact hperm.map _
  · have hpositive : 0 < (widen hash cells).length := by
      have := Nat.two_pow_pos exponent
      omega
    have hbelow := capacity_lt hpositive
    have hfree : (taken (widen hash cells)).length < (widen hash cells).length := by
      rw [hperm.length_eq]
      omega
    exact (taken_put_perm hsize hfree hash (key, value)).trans (hperm.cons _)

/-- Cells stay well-formed when a value is entered. -/
theorem Sound.enter (h : Sound cells) (hash : κ → UInt64) (key : κ) (value : α) :
    Sound (enter hash key value cells) := by
  obtain ⟨⟨exponent, hsize⟩, hperm, hroom⟩ := h.widened hash
  have hentries := h.taken_enter_perm hash key value
  have hlength : (HashTable.enter hash key value cells).length = (widen hash cells).length := by
    unfold HashTable.enter
    split
    · exact List.length_map _
    · exact length_put hash _
  refine ⟨.inr ⟨exponent, hlength.trans hsize⟩, ?_, ?_⟩
  · rw [hentries.pairwise_iff fun hne => hne.symm]
    split
    · rw [List.pairwise_map]
      simp only [revalue_fst]
      exact h.distinct
    · next hnew =>
      refine List.pairwise_cons.mpr ⟨fun entry hentry hsame => hnew ?_, h.distinct⟩
      subst hsame
      exact holds_eq_true_iff.mpr ⟨entry.2, hentry⟩
  · rw [hentries.length_eq, hlength]
    split
    · rw [List.length_map]
      omega
    · exact hroom

end Cells

end HashTable

/-- A table under a hash. -/
structure HashTable {κ : Type} (hash : κ → UInt64) (α : Type) where
  /-- The cells, free or with an entry. -/
  cells : List (Option (κ × α))
  /-- The cells are well-formed. -/
  sound : HashTable.Sound cells
deriving DecidableEq

namespace HashTable

variable {κ α : Type} {hash : κ → UInt64}

/-- The table without cells. -/
def empty : HashTable hash α := ⟨[], .inl rfl, .nil, Nat.le_refl 0⟩

instance : EmptyCollection (HashTable hash α) := ⟨empty⟩

/-- The entries, in the order of the cells. -/
def entries (t : HashTable hash α) : List (κ × α) := taken t.cells

variable [DecidableEq κ]

/-- The value of a key. -/
def get? (t : HashTable hash α) (key : κ) : Option α := t.entries.lookup key

/-- The table with a value for a key, in place of any value there. -/
def insert (t : HashTable hash α) (key : κ) (value : α) : HashTable hash α :=
  ⟨enter hash key value t.cells, t.sound.enter hash key value⟩

/-- The empty table holds nothing. -/
@[simp] theorem get?_empty (key : κ) : (empty : HashTable hash α).get? key = none := rfl

/-- A key has a value exactly if the two are an entry. -/
theorem get?_eq_some_iff {t : HashTable hash α} {key : κ} {value : α} :
    t.get? key = some value ↔ (key, value) ∈ t.entries := by
  constructor
  · intro hvalue
    obtain ⟨before, behind, hsplit, -⟩ := List.lookup_eq_some_iff.mp hvalue
    rw [hsplit]
    exact List.mem_append_right before List.mem_cons_self
  · intro hentry
    obtain ⟨before, behind, hsplit⟩ := List.append_of_mem hentry
    have hdistinct := t.sound.distinct
    rw [entries] at hsplit
    rw [hsplit, List.pairwise_append] at hdistinct
    refine List.lookup_eq_some_iff.mpr ⟨before, behind, hsplit, fun other hother => ?_⟩
    exact bne_iff_ne.mpr (hdistinct.2.2 other hother (key, value) List.mem_cons_self).symm

/-- After an insertion the entry of the key is the new one, and every other entry is an old one. -/
theorem mem_entries_insert {t : HashTable hash α} {key other : κ} {value searched : α} :
    (other, searched) ∈ (t.insert key value).entries ↔
      if other = key then searched = value else (other, searched) ∈ t.entries := by
  have hentries : (t.insert key value).entries.Perm _ := t.sound.taken_enter_perm hash key value
  rw [hentries.mem_iff]
  by_cases hheld : holds t.cells key = true
  · obtain ⟨old, hold⟩ := holds_eq_true_iff.mp hheld
    rw [if_pos hheld]
    exact mem_map_revalue_iff hold
  · have hnew : (key, searched) ∉ taken t.cells := fun hold =>
      hheld (holds_eq_true_iff.mpr ⟨searched, hold⟩)
    rw [if_neg hheld, List.mem_cons, Prod.mk.injEq, entries]
    by_cases hother : other = key
    · subst hother
      simp only [true_and, if_true]
      exact or_iff_left hnew
    · rw [if_neg hother]
      exact or_iff_right fun hsame => hother hsame.1

/-- After an insertion the key has the value and every other key what it had. -/
theorem get?_insert (t : HashTable hash α) (key : κ) (value : α) (other : κ) :
    (t.insert key value).get? other = if other = key then some value else t.get? other := by
  refine Option.ext fun searched => ?_
  rw [get?_eq_some_iff, mem_entries_insert]
  split
  · rw [Option.some.injEq, eq_comm]
  · rw [get?_eq_some_iff]

/-- After insertions a key has the last value that it was given, or else what it had. -/
theorem get?_foldl_insert (entries : List (κ × α)) (t : HashTable hash α) (key : κ) :
    (entries.foldl (fun t entry => t.insert entry.1 entry.2) t).get? key =
      (entries.reverse.lookup key).or (t.get? key) := by
  induction entries generalizing t with
  | nil => rfl
  | cons entry rest ih =>
    rw [List.foldl_cons, ih, get?_insert, List.reverse_cons, List.lookup_append, Option.or_assoc]
    by_cases hkey : key = entry.1
    · rw [if_pos hkey, List.lookup_cons, hkey, beq_self_eq_true]
      rfl
    · rw [if_neg hkey, List.lookup_cons, beq_false_of_ne hkey]
      rfl

end HashTable

end DiceDuel
