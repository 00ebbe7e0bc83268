/-!
# Maps with ascending keys

A finite map is the list of its entries with strictly ascending keys, so two maps with the same
contents are equal and the entries come in key order. The main statements say what look-up gives
after an insertion and that a map is determined by its look-ups.
-/

namespace DiceDuel

/-- A finite map: entries with strictly ascending keys. -/
structure SortedMap (κ α : Type) [LT κ] where
  /-- The entries in key order. -/
  entries : List (κ × α)
  /-- No key occurs twice, and each is below the next. -/
  ascending : entries.Pairwise (·.1 < ·.1)
deriving DecidableEq

namespace SortedMap

variable {κ α : Type} [LT κ]

/-- The map without entries. -/
def empty : SortedMap κ α := ⟨[], .nil⟩

instance : EmptyCollection (SortedMap κ α) := ⟨empty⟩

/-- The number of entries. -/
def size (m : SortedMap κ α) : Nat := m.entries.length

/-- The value at a key. -/
def get? [DecidableEq κ] (m : SortedMap κ α) (key : κ) : Option α := m.entries.lookup key

/-- The empty map holds nothing. -/
@[simp] theorem get?_empty [DecidableEq κ] (key : κ) :
    (empty : SortedMap κ α).get? key = none := rfl

section Determined

variable [DecidableEq κ] [Std.Irrefl (α := κ) (· < ·)]

/-- A key below all keys of a list is not in it. -/
theorem lookup_eq_none_of_below {key : κ} {entries : List (κ × α)}
    (h : ∀ e ∈ entries, key < e.1) : entries.lookup key = none := by
  induction entries with
  | nil => rfl
  | cons head rest ih =>
    have apart : key ≠ head.1 := fun same =>
      Std.Irrefl.irrefl (r := (· < ·)) key (by simpa [← same] using h head List.mem_cons_self)
    rw [List.lookup_cons, beq_false_of_ne apart]
    exact ih fun e he => h e (List.mem_cons_of_mem _ he)

variable [Trans (α := κ) (· < ·) (· < ·) (· < ·)]

/-- The least key of an ascending list is not above that of another with the same look-ups. -/
theorem not_lt_of_lookup_eq {k l : κ} {v w : α} {xs ys : List (κ × α)}
    (hy : ((l, w) :: ys).Pairwise (·.1 < ·.1))
    (h : ((k, v) :: xs).lookup k = ((l, w) :: ys).lookup k) : ¬ k < l := by
  intro lt
  have none : ((l, w) :: ys).lookup k = none := by
    refine lookup_eq_none_of_below fun e he => ?_
    rcases List.mem_cons.mp he with he | he
    · simpa [he] using lt
    · exact Trans.trans lt ((List.pairwise_cons.mp hy).1 e he)
  rw [none] at h
  simp at h

variable [Std.Trichotomous (α := κ) (· < ·)]

/-- Ascending lists with the same look-ups are equal. -/
theorem eq_of_lookup_eq {xs ys : List (κ × α)} (hx : xs.Pairwise (·.1 < ·.1))
    (hy : ys.Pairwise (·.1 < ·.1)) (h : ∀ key, xs.lookup key = ys.lookup key) : xs = ys := by
  induction xs generalizing ys with
  | nil =>
    cases ys with
    | nil => rfl
    | cons head rest =>
      obtain ⟨k, v⟩ := head
      simpa using h k
  | cons head xs ih =>
    obtain ⟨k, v⟩ := head
    cases ys with
    | nil => simpa using h k
    | cons head ys =>
      obtain ⟨l, w⟩ := head
      have same : k = l :=
        Std.Trichotomous.trichotomous (r := (· < ·)) k l (not_lt_of_lookup_eq hy (h k))
          (not_lt_of_lookup_eq hx (h l).symm)
      subst same
      have value : v = w := by simpa using h k
      subst value
      obtain ⟨aboveX, tailX⟩ := List.pairwise_cons.mp hx
      obtain ⟨aboveY, tailY⟩ := List.pairwise_cons.mp hy
      rw [ih tailX tailY fun key => ?_]
      by_cases hk : key = k
      · subst hk
        rw [lookup_eq_none_of_below aboveX, lookup_eq_none_of_below aboveY]
      · have hne : (key == k) = false := beq_false_of_ne hk
        simpa [List.lookup_cons, hne] using h key

/-- A map is determined by its look-ups. -/
theorem eq_of_get?_eq {m n : SortedMap κ α} (h : ∀ key, m.get? key = n.get? key) : m = n := by
  obtain ⟨xs, hx⟩ := m
  obtain ⟨ys, hy⟩ := n
  have same : xs = ys := eq_of_lookup_eq hx hy h
  subst same
  rfl

end Determined

variable [DecidableLT κ]

/-- An entry put at its place in an ascending list, in place of one with the same key. -/
def insertEntry (key : κ) (value : α) : List (κ × α) → List (κ × α)
  | [] => [(key, value)]
  | (k, v) :: rest =>
    if key < k then (key, value) :: (k, v) :: rest
    else if k < key then (k, v) :: insertEntry key value rest
    else (key, value) :: rest

/-- Insertion brings in no entry but the new one. -/
theorem key_of_mem_insertEntry {key : κ} {value : α} {entries : List (κ × α)} {e : κ × α}
    (h : e ∈ insertEntry key value entries) : e.1 = key ∨ e ∈ entries := by
  induction entries with
  | nil => simp [insertEntry] at h; simp [h]
  | cons head rest ih =>
    obtain ⟨k, v⟩ := head
    simp only [insertEntry] at h
    split at h
    · rcases List.mem_cons.mp h with h | h
      · exact .inl (by rw [h])
      · exact .inr h
    · split at h
      · rcases List.mem_cons.mp h with h | h
        · exact .inr (by simp [h])
        · exact (ih h).imp id (List.mem_cons_of_mem _)
      · rcases List.mem_cons.mp h with h | h
        · exact .inl (by rw [h])
        · exact .inr (List.mem_cons_of_mem _ h)

variable [Trans (α := κ) (· < ·) (· < ·) (· < ·)] [Std.Trichotomous (α := κ) (· < ·)]

/-- Insertion keeps the keys ascending. -/
theorem insertEntry_ascending (key : κ) (value : α) {entries : List (κ × α)}
    (h : entries.Pairwise (·.1 < ·.1)) :
    (insertEntry key value entries).Pairwise (·.1 < ·.1) := by
  induction entries with
  | nil => simp [insertEntry]
  | cons head rest ih =>
    obtain ⟨k, v⟩ := head
    obtain ⟨above, tail⟩ := List.pairwise_cons.mp h
    simp only [insertEntry]
    split
    · rename_i lt
      refine List.pairwise_cons.mpr ⟨fun e he => ?_, h⟩
      rcases List.mem_cons.mp he with he | he
      · simpa [he] using lt
      · exact Trans.trans lt (above e he)
    · rename_i notLt
      split
      · rename_i gt
        refine List.pairwise_cons.mpr ⟨fun e he => ?_, ih tail⟩
        rcases key_of_mem_insertEntry he with he | he
        · simpa [he] using gt
        · exact above e he
      · rename_i notGt
        have same : key = k := Std.Trichotomous.trichotomous (r := (· < ·)) key k notLt notGt
        subst same
        exact List.pairwise_cons.mpr ⟨above, tail⟩

/-- The map with a value at a key, in place of any value there. -/
def insert (m : SortedMap κ α) (key : κ) (value : α) : SortedMap κ α :=
  ⟨insertEntry key value m.entries, insertEntry_ascending key value m.ascending⟩

/-- The map of a list of entries, where a later entry replaces an earlier one. -/
def ofList (entries : List (κ × α)) : SortedMap κ α :=
  entries.foldl (fun m e => m.insert e.1 e.2) empty

variable [DecidableEq κ] [Std.Irrefl (α := κ) (· < ·)]

omit [Trans (α := κ) (· < ·) (· < ·) (· < ·)] in
/-- Look-up after an insertion into a list. -/
theorem lookup_insertEntry (key : κ) (value : α) (entries : List (κ × α)) (other : κ) :
    (insertEntry key value entries).lookup other =
      if other = key then some value else entries.lookup other := by
  induction entries with
  | nil => simp only [insertEntry, List.lookup_cons, List.lookup_nil]; split <;> simp_all
  | cons head rest ih =>
    obtain ⟨k, v⟩ := head
    simp only [insertEntry]
    split
    · simp only [List.lookup_cons]; split <;> simp_all
    · rename_i notLt
      split
      · rename_i gt
        have apart : key ≠ k := fun same =>
          Std.Irrefl.irrefl (r := (· < ·)) key (by subst same; exact gt)
        simp only [List.lookup_cons, ih]
        split <;> split <;> simp_all
      · rename_i notGt
        have same : key = k := Std.Trichotomous.trichotomous (r := (· < ·)) key k notLt notGt
        subst same
        simp only [List.lookup_cons]
        split <;> simp_all

/-- After an insertion the key holds the value and every other key what it held. -/
theorem get?_insert (m : SortedMap κ α) (key : κ) (value : α) (other : κ) :
    (m.insert key value).get? other = if other = key then some value else m.get? other :=
  lookup_insertEntry key value m.entries other

end SortedMap

end DiceDuel
