import DiceDuel.Binary64.Basic
import Mathlib.Data.Rat.Floor
import Mathlib.Tactic.FieldSimp
import Mathlib.Tactic.Ring

/-!
# Operations that do not round

A finite binary64 number stands for a rational number, and the rationals that some binary64 number
stands for are the representable ones. An operation is its exact result rounded once, so a result
that is representable is not moved: on such results binary64 arithmetic is that of the rationals.
Integers of 53 bits over a power of two are representable.
-/

namespace DiceDuel.Binary64

/-- The rational number that a finite binary64 number stands for. -/
def value? : Binary64 → Option ℚ
  | .finite negative units _ => some ((signedUnits negative units : ℚ) / unitsPerOne)
  | .infinite _ => none
  | .nan => none

/-- A rational number that some binary64 number stands for. -/
def Representable (q : ℚ) : Prop := ∃ x : Binary64, x.value? = some q

/-- There are units in one. -/
theorem unitsPerOne_pos : 0 < unitsPerOne := by
  unfold unitsPerOne
  generalize 1074 = places
  exact Nat.two_pow_pos places

/-- As a rational number the units in one can be divided by. -/
theorem unitsPerOne_ne_zero : (unitsPerOne : ℚ) ≠ 0 :=
  Nat.cast_ne_zero.mpr (Nat.ne_of_gt unitsPerOne_pos)

/-! ## Signed magnitudes -/

/-- No units are zero with either sign. -/
theorem signedUnits_zero (negative : Bool) : signedUnits negative 0 = 0 := by
  cases negative <;> rfl

/-- The magnitude of a signed number of units. -/
theorem natAbs_signedUnits (negative : Bool) (units : Nat) :
    (signedUnits negative units).natAbs = units := by
  cases negative with
  | false => exact Int.natAbs_natCast units
  | true => exact (Int.natAbs_neg units).trans (Int.natAbs_natCast units)

/-- An integer has the magnitude and the sign that it has. -/
theorem signedUnits_natAbs (n : Int) : signedUnits (n < 0) n.natAbs = n := by
  unfold signedUnits
  by_cases hneg : n < 0
  · rw [if_pos (decide_eq_true hneg)]
    omega
  · rw [if_neg (by simpa using hneg)]
    omega

/-- The sign of a product is negative when the signs differ. -/
theorem signedUnits_mul (s t : Bool) (a b : Nat) :
    signedUnits (s != t) (a * b) = signedUnits s a * signedUnits t b := by
  cases s <;> cases t <;> simp [signedUnits]

/-- A multiple of a signed magnitude has the same sign. -/
theorem signedUnits_mul_natCast (negative : Bool) (a b : Nat) :
    signedUnits negative (a * b) = signedUnits negative a * b := by
  cases negative <;> simp [signedUnits]

/-- The other sign gives the opposite number. -/
theorem signedUnits_not (s : Bool) (a : Nat) : signedUnits (!s) a = -signedUnits s a := by
  cases s <;> simp [signedUnits]

/-! ## Representable numbers -/

/-- A number with a value is a signed magnitude. -/
theorem exists_units {x : Binary64} {q : ℚ} (hx : x.value? = some q) :
    ∃ negative units fits, x = .finite negative units fits ∧
      q = (signedUnits negative units : ℚ) / unitsPerOne := by
  cases x with
  | nan => cases hx
  | infinite negative => cases hx
  | finite negative units fits => exact ⟨negative, units, fits, rfl, (Option.some.inj hx).symm⟩

/-- A representable number is a number of units that the format can hold. -/
theorem Representable.exists_fits {q : ℚ} (hq : Representable q) :
    ∃ n : Int, Fits n.natAbs ∧ q = (n : ℚ) / unitsPerOne := by
  obtain ⟨x, hx⟩ := hq
  obtain ⟨negative, units, fits, -, hunits⟩ := exists_units hx
  refine ⟨signedUnits negative units, ?_, hunits⟩
  rw [natAbs_signedUnits]
  exact fits

/-- Integers of 53 bits over a power of two are representable. -/
theorem representable_div {n : Int} {e : Nat} (hn : n.natAbs < 2 ^ 53) (he : e ≤ 1074) :
    Representable ((n : ℚ) / 2 ^ e) := by
  have hfits : Fits (n.natAbs * 2 ^ (1074 - e)) := fits_mul_two_pow hn (by omega)
  have hunits : unitsPerOne = 2 ^ (1074 - e) * 2 ^ e := by
    rw [← Nat.pow_add, Nat.sub_add_cancel he]
    rfl
  refine ⟨.finite (n < 0) _ hfits, congrArg some ?_⟩
  rw [signedUnits_mul_natCast, signedUnits_natAbs, hunits]
  push_cast
  field_simp

/-- A signed quotient of units whose exact value is representable is not moved by rounding. -/
theorem value?_round {negative : Bool} {num den : Nat} {q : ℚ} (hden : 0 < den)
    (hexact : (signedUnits negative num : ℚ) / (den * unitsPerOne) = q) (hq : Representable q) :
    (round negative num den).value? = some q := by
  obtain ⟨n, hfits, rfl⟩ := hq.exists_fits
  have hden' : (den : ℚ) ≠ 0 := Nat.cast_ne_zero.mpr (Nat.ne_of_gt hden)
  have hsigned : signedUnits negative num = n * den := by
    rw [div_eq_div_iff (mul_ne_zero hden' unitsPerOne_ne_zero) unitsPerOne_ne_zero, ← mul_assoc,
      mul_left_inj' unitsPerOne_ne_zero] at hexact
    exact_mod_cast hexact
  have hnum : num = n.natAbs * den := by
    have habs := congrArg Int.natAbs hsigned
    rwa [natAbs_signedUnits, Int.natAbs_mul, Int.natAbs_natCast] at habs
  have hsign : signedUnits negative n.natAbs = n := by
    rw [hnum, signedUnits_mul_natCast] at hsigned
    exact Int.eq_of_mul_eq_mul_right (by omega) hsigned
  have hunits : roundUnits num den = n.natAbs := by
    rw [hnum]
    exact roundUnits_mul_left den hden hfits.2
  unfold round
  simp only [hunits]
  rw [dif_pos hfits.1, value?, hsign]

/-- A representable integer is rounded to itself. -/
theorem value?_ofInt {n : Int} (hn : Representable (n : ℚ)) : (ofInt n).value? = some (n : ℚ) := by
  refine value?_round Nat.one_pos ?_ hn
  rw [signedUnits_mul_natCast, signedUnits_natAbs]
  push_cast
  rw [one_mul, mul_div_cancel_right₀ _ unitsPerOne_ne_zero]

/-- A representable fraction over a power of two is rounded to itself. -/
theorem value?_dyadic {k e : Nat} (hq : Representable ((k : ℚ) / 2 ^ e)) :
    (dyadic k e).value? = some ((k : ℚ) / 2 ^ e) := by
  refine value?_round (Nat.two_pow_pos e) ?_ hq
  have hk : signedUnits false (k * unitsPerOne) = ((k * unitsPerOne : Nat) : Int) := rfl
  rw [hk]
  push_cast
  rw [mul_div_mul_right _ _ unitsPerOne_ne_zero]

/-! ## Arithmetic -/

/-- The opposite number stands for the opposite value. -/
theorem value?_neg {x : Binary64} {p : ℚ} (hx : x.value? = some p) : (-x).value? = some (-p) := by
  obtain ⟨s, a, ha, rfl, rfl⟩ := exists_units hx
  change some ((signedUnits (!s) a : ℚ) / unitsPerOne) = _
  rw [signedUnits_not]
  push_cast
  rw [neg_div]

section Operations

variable {x y : Binary64} {p q : ℚ} (hx : x.value? = some p) (hy : y.value? = some q)

include hx hy

/-- A representable sum is not rounded. -/
theorem value?_add (hsum : Representable (p + q)) : (x + y).value? = some (p + q) := by
  obtain ⟨s, a, ha, rfl, rfl⟩ := exists_units hx
  obtain ⟨t, b, hb, rfl, rfl⟩ := exists_units hy
  have hexact : (signedUnits s a : ℚ) / unitsPerOne + signedUnits t b / unitsPerOne =
      ((signedUnits s a + signedUnits t b : Int) : ℚ) / unitsPerOne := by
    push_cast
    rw [add_div]
  rw [hexact] at hsum ⊢
  change (add (.finite s a ha) (.finite t b hb)).value? = _
  rw [add]
  generalize signedUnits s a + signedUnits t b = sum at hsum ⊢
  by_cases hzero : sum = 0
  · rw [if_pos hzero, hzero]
    rw [zero, value?, signedUnits_zero]
  · rw [if_neg hzero]
    refine value?_round Nat.one_pos ?_ hsum
    rw [signedUnits_natAbs, Nat.cast_one, one_mul]

/-- A representable difference is not rounded. -/
theorem value?_sub (hdiff : Representable (p - q)) : (x - y).value? = some (p - q) := by
  rw [sub_eq_add_neg] at hdiff ⊢
  exact value?_add hx (value?_neg hy) hdiff

/-- A representable product is not rounded. -/
theorem value?_mul (hprod : Representable (p * q)) : (x * y).value? = some (p * q) := by
  obtain ⟨s, a, ha, rfl, rfl⟩ := exists_units hx
  obtain ⟨t, b, hb, rfl, rfl⟩ := exists_units hy
  change (mul (.finite s a ha) (.finite t b hb)).value? = _
  rw [mul]
  refine value?_round unitsPerOne_pos ?_ hprod
  rw [signedUnits_mul, div_mul_div_comm]
  push_cast
  rfl

/-- A representable quotient is not rounded. -/
theorem value?_div (hzero : q ≠ 0) (hquot : Representable (p / q)) :
    (x / y).value? = some (p / q) := by
  obtain ⟨s, a, ha, rfl, rfl⟩ := exists_units hx
  obtain ⟨t, b, hb, rfl, rfl⟩ := exists_units hy
  have hb0 : b ≠ 0 := by
    rintro rfl
    rw [signedUnits_zero, Int.cast_zero, zero_div] at hzero
    exact hzero rfl
  change (div (.finite s a ha) (.finite t b hb)).value? = _
  rw [div, if_neg hb0]
  refine value?_round (Nat.pos_of_ne_zero hb0) ?_ hquot
  rw [signedUnits_mul_natCast, div_div_div_cancel_right₀ unitsPerOne_ne_zero]
  push_cast
  rw [mul_div_mul_right _ _ unitsPerOne_ne_zero]
  cases s <;> cases t <;> simp [signedUnits, div_neg, neg_div]

end Operations

/-! ## Fractions over powers of two -/

/-- A number that stands for an integer over a power of two. -/
def IsFraction (x : Binary64) (n : Int) (e : Nat) : Prop := x.value? = some ((n : ℚ) / 2 ^ e)

/-- What is exact if its value is representable is a fraction if its value is a small one. -/
theorem isFraction_of_value? {x : Binary64} {q : ℚ} {n : Int} {e : Nat} (hq : q = (n : ℚ) / 2 ^ e)
    (hsmall : n.natAbs < 2 ^ 53) (he : e ≤ 1074)
    (hvalue : Representable q → x.value? = some q) : x.IsFraction n e := by
  have hrepresentable : Representable q := by
    rw [hq]
    exact representable_div hsmall he
  rw [IsFraction, hvalue hrepresentable, hq]

/-- A small integer is a fraction over one. -/
theorem isFraction_ofInt {n : Int} (hn : n.natAbs < 2 ^ 53) : (ofInt n).IsFraction n 0 := by
  have hwhole : (n : ℚ) = n / 2 ^ 0 := by rw [pow_zero, div_one]
  exact isFraction_of_value? hwhole hn (Nat.zero_le _) value?_ofInt

/-- A small fraction of natural numbers. -/
theorem isFraction_dyadic {k e : Nat} (hk : k < 2 ^ 53) (he : e ≤ 1074) :
    (dyadic k e).IsFraction k e := by
  have hcast : (k : ℚ) / 2 ^ e = ((k : Int) : ℚ) / 2 ^ e := by rw [Int.cast_natCast]
  exact isFraction_of_value? hcast hk he value?_dyadic

namespace IsFraction

variable {x y : Binary64} {m n r : Int} {e f : Nat}

/-- A fraction can be extended by a power of two. -/
theorem extend (hx : x.IsFraction m e) (k : Nat) : x.IsFraction (m * 2 ^ k) (e + k) := by
  unfold IsFraction at hx ⊢
  rw [hx, pow_add]
  push_cast
  rw [mul_div_mul_right _ _ (by positivity)]

/-- Fractions over one power of two are added exactly if the sum is small. -/
theorem add (hx : x.IsFraction m e) (hy : y.IsFraction n e) (hr : m + n = r)
    (hsmall : r.natAbs < 2 ^ 53) (he : e ≤ 1074) : (x + y).IsFraction r e := by
  have hsum : (m : ℚ) / 2 ^ e + n / 2 ^ e = r / 2 ^ e := by
    rw [← hr, ← add_div]
    push_cast
    rfl
  exact isFraction_of_value? hsum hsmall he (value?_add hx hy)

/-- Fractions over one power of two are subtracted exactly if the difference is small. -/
theorem sub (hx : x.IsFraction m e) (hy : y.IsFraction n e) (hr : m - n = r)
    (hsmall : r.natAbs < 2 ^ 53) (he : e ≤ 1074) : (x - y).IsFraction r e := by
  have hdiff : (m : ℚ) / 2 ^ e - n / 2 ^ e = r / 2 ^ e := by
    rw [← hr, ← sub_div]
    push_cast
    rfl
  exact isFraction_of_value? hdiff hsmall he (value?_sub hx hy)

/-- Fractions are multiplied exactly if the product is small. -/
theorem mul (hx : x.IsFraction m e) (hy : y.IsFraction n f) (hr : m * n = r)
    (hsmall : r.natAbs < 2 ^ 53) (he : e + f ≤ 1074) : (x * y).IsFraction r (e + f) := by
  have hprod : (m : ℚ) / 2 ^ e * (n / 2 ^ f) = r / 2 ^ (e + f) := by
    rw [← hr, div_mul_div_comm, pow_add]
    push_cast
    rfl
  exact isFraction_of_value? hprod hsmall he (value?_mul hx hy)

/-- A fraction is divided exactly by a power of two. -/
theorem div_two_pow (hx : x.IsFraction m e) (hy : y.IsFraction (2 ^ f) 0)
    (hsmall : m.natAbs < 2 ^ 53) (he : e + f ≤ 1074) : (x / y).IsFraction m (e + f) := by
  have hquot : (m : ℚ) / 2 ^ e / (((2 ^ f : Int) : ℚ) / 2 ^ 0) = m / 2 ^ (e + f) := by
    rw [pow_zero, div_one, div_div, pow_add]
    push_cast
    rfl
  have hzero : ((2 ^ f : Int) : ℚ) / 2 ^ 0 ≠ 0 := by positivity
  exact isFraction_of_value? hquot hsmall he (value?_div hx hy hzero)

end IsFraction

/-! ## The floor -/

/-- The floor of a value within 64 bits. -/
theorem toInt_floorInt64 {x : Binary64} {q : ℚ} (hx : x.value? = some q)
    (hlow : Int64.minValue.toInt ≤ ⌊q⌋) (hhigh : ⌊q⌋ ≤ Int64.maxValue.toInt) :
    x.floorInt64.toInt = ⌊q⌋ := by
  obtain ⟨s, a, ha, rfl, rfl⟩ := exists_units hx
  have hwhole : Int.fdiv (signedUnits s a) unitsPerOne =
      ⌊(signedUnits s a : ℚ) / unitsPerOne⌋ := by
    rw [Rat.floor_intCast_div_natCast]
    exact Int.fdiv_eq_ediv_of_nonneg _ (Int.natCast_nonneg _)
  unfold floorInt64
  dsimp only
  rw [hwhole]
  generalize ⌊(signedUnits s a : ℚ) / unitsPerOne⌋ = whole at hlow hhigh ⊢
  rw [if_neg (by omega), if_neg (by omega)]
  exact Int64.toInt_ofInt_of_le hlow (Int.lt_of_le_of_lt hhigh (by decide))

/-- The floor of a fraction is the quotient of its parts, rounded down. -/
theorem IsFraction.toInt_floorInt64 {x : Binary64} {n : Int} {e : Nat} (hx : x.IsFraction n e)
    (hlow : Int64.minValue.toInt ≤ n / 2 ^ e) (hhigh : n / 2 ^ e ≤ Int64.maxValue.toInt) :
    x.floorInt64.toInt = n / 2 ^ e := by
  have hfloor : ⌊(n : ℚ) / 2 ^ e⌋ = n / 2 ^ e := by
    have hcast := Rat.floor_intCast_div_natCast n (2 ^ e)
    push_cast at hcast
    exact hcast
  rw [← hfloor] at hlow hhigh ⊢
  exact Binary64.toInt_floorInt64 hx hlow hhigh

end DiceDuel.Binary64
