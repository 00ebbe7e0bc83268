import DiceDuel.SortedMap

/-!
# Maps from lists of entries

A map is built from a list by inserting one entry after the other. What it then holds at a key is
the last entry of the list with that key, and so the entries of a map give the map back.
-/

namespace DiceDuel.SortedMap

variable {κ α : Type} [LT κ]

section Entries

variable [DecidableEq κ]

/-- What a map holds at a key is one of its entries. -/
theorem mem_of_get? {m : SortedMap κ α} {key : κ} {value : α} (hvalue : m.get? key = some value) :
    (key, value) ∈ m.entries := by
  obtain ⟨before, behind, hsplit, -⟩ := List.lookup_eq_some_iff.mp hvalue
  rw [hsplit]
  exact List.mem_append_right before List.mem_cons_self

variable [Std.Irrefl (α := κ) (· < ·)]

omit [DecidableEq κ] in
/-- A key below another is not that other. -/
theorem ne_of_below {key other : κ} (hbelow : key < other) : key ≠ other := by
  intro hsame
  rw [hsame] at hbelow
  exact Std.Irrefl.irrefl (r := (· < ·)) other hbelow

/-- A map holds each of its entries. -/
theorem get?_of_mem {m : SortedMap κ α} {entry : κ × α} (hentry : entry ∈ m.entries) :
    m.get? entry.1 = some entry.2 := by
  obtain ⟨before, behind, hsplit⟩ := List.append_of_mem hentry
  have hascending := m.ascending
  rw [hsplit, List.pairwise_append] at hascending
  refine List.lookup_eq_some_iff.mpr ⟨before, behind, hsplit, ?_⟩
  intro other hother
  have hbelow : other.1 < entry.1 := hascending.2.2 other hother entry List.mem_cons_self
  exact bne_iff_ne.mpr (ne_of_below hbelow).symm

/-- The entries of a map may be searched from either end. -/
theorem lookup_reverse_entries (m : SortedMap κ α) (key : κ) :
    m.entries.reverse.lookup key = m.get? key := by
  cases hvalue : m.get? key with
  | none =>
    rw [get?, List.lookup_eq_none_iff] at hvalue
    exact List.lookup_eq_none_iff.mpr fun entry hentry => hvalue entry (List.mem_reverse.mp hentry)
  | some value =>
    obtain ⟨before, behind, hsplit⟩ := List.append_of_mem (mem_of_get? hvalue)
    have hascending := m.ascending
    rw [hsplit, List.pairwise_append, List.pairwise_cons] at hascending
    rw [hsplit, List.reverse_append, List.reverse_cons, List.append_assoc]
    refine List.lookup_eq_some_iff.mpr ⟨behind.reverse, before.reverse, rfl, ?_⟩
    intro other hother
    have habove : key < other.1 := hascending.2.1.1 other (List.mem_reverse.mp hother)
    exact bne_iff_ne.mpr (ne_of_below habove)

end Entries

variable [DecidableLT κ] [Trans (α := κ) (· < ·) (· < ·) (· < ·)]
  [Std.Trichotomous (α := κ) (· < ·)] [DecidableEq κ] [Std.Irrefl (α := κ) (· < ·)]

/-- Insertions hide what a map held before. -/
theorem get?_foldl_insert (entries : List (κ × α)) (m : SortedMap κ α) (key : κ) :
    (entries.foldl (fun m e => m.insert e.1 e.2) m).get? key =
      (entries.reverse.lookup key).or (m.get? key) := by
  induction entries generalizing m with
  | nil => rfl
  | cons entry rest ih =>
    rw [List.foldl_cons, ih, get?_insert, List.reverse_cons, List.lookup_append, Option.or_assoc]
    by_cases hkey : key = entry.1
    · rw [if_pos hkey, List.lookup_cons, hkey, beq_self_eq_true]
      rfl
    · rw [if_neg hkey, List.lookup_cons, beq_false_of_ne hkey]
      rfl

/-- What a map of a list holds at a key is the last entry of the list with that key. -/
theorem get?_ofList (entries : List (κ × α)) (key : κ) :
    (ofList entries).get? key = entries.reverse.lookup key := by
  rw [ofList, get?_foldl_insert, get?_empty, Option.or_none]

/-- The map of its own entries is the map. -/
theorem ofList_entries (m : SortedMap κ α) : ofList m.entries = m :=
  eq_of_get?_eq fun key => by rw [get?_ofList, lookup_reverse_entries]

/-- A map of a list holds nothing that is not in the list. -/
theorem mem_of_get?_ofList {entries : List (κ × α)} {key : κ} {value : α}
    (hvalue : (ofList entries).get? key = some value) : (key, value) ∈ entries := by
  rw [get?_ofList, List.lookup_eq_some_iff] at hvalue
  obtain ⟨before, behind, hsplit, -⟩ := hvalue
  have hreversed : (key, value) ∈ entries.reverse := by
    rw [hsplit]
    exact List.mem_append_right before List.mem_cons_self
  exact List.mem_reverse.mp hreversed

end DiceDuel.SortedMap
