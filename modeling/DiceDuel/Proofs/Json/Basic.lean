import DiceDuel.Json.Basic

/-!
# Reading back what was written

A value recovers if it is read back from its written form. Of most types every value does, and such
a type is lawful; of the others it is asked of single values. A list recovers with its items, a
record field by field, and an optional value if its type does not read null, which stands for
absence.
-/

namespace DiceDuel

/-- Whether a value is read back from its written form. -/
def Recovers {α : Type} [JsonForm α] (a : α) : Prop := ofJson? (toJson a) = some a

/-- A type of which every value recovers. -/
class LawfulJson (α : Type) [JsonForm α] : Prop where
  /-- A value is read back from its written form. -/
  recovers (a : α) : Recovers a

/-- A type that does not read null, so that a value can be told from its absence. -/
class NonNullJson (α : Type) [JsonForm α] : Prop where
  /-- There is no value to be read. -/
  ofJson?_null : (ofJson? .null : Option α) = none

export LawfulJson (recovers)
export NonNullJson (ofJson?_null)

/-- A list is read back item by item, if each item is. -/
theorem mapM_map_eq_some {α β : Type} {write : α → β} {read : β → Option α} {items : List α}
    (hitems : ∀ a ∈ items, read (write a) = some a) :
    (items.map write).mapM read = some items := by
  induction items with
  | nil => rfl
  | cons a rest ih =>
    have ha := hitems a List.mem_cons_self
    have hrest := ih fun b hb => hitems b (List.mem_cons_of_mem a hb)
    rw [List.map_cons, List.mapM_cons, ha, hrest]
    rfl

variable {α : Type} [JsonForm α]

namespace Json

/-- A field is read as the value that was written into it, and the reading goes on from there. -/
theorem read_field {fields : List (String × Json)} {name : String} {a : α} {β : Type}
    {further : α → Option β} {result : Option β} (hfield : fields.lookup name = some (toJson a))
    (ha : Recovers a) (hfurther : further a = result) :
    ((object fields).get? name).bind further = result := by
  have hread : (object fields).get? name = some a := by
    rw [get?, field?, hfield]
    exact ha
  rw [hread, Option.bind_some, hfurther]

/-- A number below a bound is read as it stands. -/
theorem natBelow?_int {bound n : Nat} (hn : n < bound) : natBelow? bound (int n) = some n := by
  have hrange : 0 ≤ (n : Int) ∧ (n : Int) < bound := by omega
  rw [natBelow?, if_pos hrange, Int.toNat_natCast]

end Json

/-- A list recovers if its items do. -/
theorem recovers_list {items : List α} (hitems : ∀ a ∈ items, Recovers a) : Recovers items :=
  mapM_map_eq_some hitems

/-- What is there recovers as such, if its type does not read null. -/
theorem recovers_some [NonNullJson α] {a : α} (ha : Recovers a) : Recovers (some a) := by
  have hread : ofJson? (toJson a) = some a := ha
  change ofJson? (toJson a) = some (some a)
  cases hwritten : toJson a with
  | null =>
    rw [hwritten, ofJson?_null] at hread
    cases hread
  | _ =>
    rw [hwritten] at hread
    exact congrArg (Option.map some) hread

instance : LawfulJson Bool := ⟨fun b => by cases b <;> rfl⟩

instance : LawfulJson String := ⟨fun _ => rfl⟩

instance : NonNullJson String := ⟨rfl⟩

instance : LawfulJson UInt8 where
  recovers n := by
    change (Json.natBelow? UInt8.size (.int n.toNat)).map UInt8.ofNat = some n
    rw [Json.natBelow?_int n.toNat_lt, Option.map_some, UInt8.ofNat_toNat]

instance : NonNullJson UInt8 := ⟨rfl⟩

instance : LawfulJson UInt32 where
  recovers n := by
    change (Json.natBelow? UInt32.size (.int n.toNat)).map UInt32.ofNat = some n
    rw [Json.natBelow?_int n.toNat_lt, Option.map_some, UInt32.ofNat_toNat]

instance : LawfulJson UInt64 where
  recovers n := by
    change (Json.natBelow? UInt64.size (.int n.toNat)).map UInt64.ofNat = some n
    rw [Json.natBelow?_int n.toNat_lt, Option.map_some, UInt64.ofNat_toNat]

instance : LawfulJson Int64 where
  recovers n := by
    have hrange : -2 ^ (63 : Nat) ≤ n.toInt ∧ n.toInt < 2 ^ (63 : Nat) :=
      ⟨n.le_toInt, n.toInt_lt⟩
    change (if _ then some (Int64.ofInt n.toInt) else none) = some n
    rw [if_pos hrange, Int64.ofInt_toInt]

instance [LawfulJson α] : LawfulJson (List α) := ⟨fun _ => recovers_list fun a _ => recovers a⟩

instance [LawfulJson α] [NonNullJson α] : LawfulJson (Option α) where
  recovers
    | none => rfl
    | some a => recovers_some (recovers a)

end DiceDuel
