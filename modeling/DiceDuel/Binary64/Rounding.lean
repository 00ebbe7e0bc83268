/-!
# Rounding magnitudes to binary64

Every finite binary64 magnitude is a whole number of units of `2 ^ -1074`, so this file
speaks of magnitudes as naturals. It says which naturals the format can hold, rounds an
exact quotient to the nearest of them with ties to the even neighbour, and shows that the
result is one the format can hold and that a magnitude it can hold is not moved.
Overflow is not decided here: the caller compares the result with `limit`.
-/

namespace DiceDuel.Binary64

-- A power is the core library's, whatever other instances a module that uses this one brings in.
attribute [local instance (high)] instPowNat

/-- The first magnitude above the finite range: `2 ^ 1024`, in units of `2 ^ -1074`. -/
def limit : Nat := 2 ^ (2098 : Nat)

/-- The binary exponent of the grid that holds the neighbours of a magnitude: there are 53
significant bits, and below `2 ^ 53` units the grid is the unit itself. -/
def spacing (units : Nat) : Nat := units.log2 - 52

/-- A magnitude lies on its own grid. -/
def OnGrid (units : Nat) : Prop := 2 ^ spacing units ∣ units

/-- A magnitude that a finite binary64 number can have. -/
def Fits (units : Nat) : Prop := units < limit ∧ OnGrid units

instance (units : Nat) : Decidable (OnGrid units) :=
  inferInstanceAs (Decidable (2 ^ spacing units ∣ units))

instance (units : Nat) : Decidable (Fits units) :=
  inferInstanceAs (Decidable (units < limit ∧ OnGrid units))

/-- The whole number nearest to a quotient, the even one of two equally near. -/
def nearestEven (num den : Nat) : Nat :=
  let whole := num / den
  let rest := num % den
  if 2 * rest < den then whole
  else if den < 2 * rest then whole + 1
  else if whole % 2 = 0 then whole else whole + 1

/-- The magnitude nearest to a quotient of units, the even one of two equally near. The grid is
that of the quotient's whole part. -/
def roundUnits (num den : Nat) : Nat :=
  let e := spacing (num / den)
  nearestEven num (den * 2 ^ e) * 2 ^ e

/-- Rounding moves a quotient up by less than one whole number. -/
theorem nearestEven_le (num den : Nat) : nearestEven num den ≤ num / den + 1 := by
  simp only [nearestEven]
  split <;> try split <;> try split
  all_goals omega

/-- An exact quotient is its own nearest whole number. -/
theorem nearestEven_mul_left (n den : Nat) (h : 0 < den) : nearestEven (n * den) den = n := by
  simp [nearestEven, Nat.mul_div_cancel n h, h]

/-- Fifty-three significant bits, shifted, lie on the grid. -/
theorem onGrid_mul_two_pow {m : Nat} (e : Nat) (h : m ≤ 2 ^ (53 : Nat)) : OnGrid (m * 2 ^ e) := by
  unfold OnGrid spacing
  by_cases hz : m * 2 ^ e = 0
  · rw [hz]; exact Nat.dvd_zero _
  · rcases Nat.lt_or_ge m (2 ^ (53 : Nat)) with hlt | hge
    · have hlog : (m * 2 ^ e).log2 < 53 + e := by
        rw [Nat.log2_lt hz, Nat.pow_add]
        exact Nat.mul_lt_mul_of_pos_right hlt (Nat.two_pow_pos e)
      exact Nat.dvd_trans (Nat.pow_dvd_pow 2 (by omega)) (Nat.dvd_mul_left _ _)
    · have hm : m = 2 ^ (53 : Nat) := by omega
      subst hm
      rw [← Nat.pow_add, Nat.log2_two_pow]
      exact Nat.pow_dvd_pow 2 (by omega)

/-- What rounding gives lies on the grid. -/
theorem onGrid_roundUnits (num den : Nat) : OnGrid (roundUnits num den) := by
  refine onGrid_mul_two_pow (spacing (num / den)) ?_
  refine Nat.le_trans (nearestEven_le _ _) ?_
  suffices hq : num / (den * 2 ^ spacing (num / den)) < 2 ^ (53 : Nat) by omega
  rw [← Nat.div_div_eq_div_mul]
  generalize num / den = q
  rw [Nat.div_lt_iff_lt_mul (Nat.two_pow_pos _), ← Nat.pow_add]
  have hself := Nat.lt_log2_self (n := q)
  refine Nat.lt_of_lt_of_le hself (Nat.pow_le_pow_right (by decide) ?_)
  unfold spacing
  omega

/-- A magnitude on the grid is not moved by rounding. -/
theorem roundUnits_mul_left {units : Nat} (den : Nat) (h : 0 < den) (grid : OnGrid units) :
    roundUnits (units * den) den = units := by
  unfold roundUnits
  rw [Nat.mul_div_cancel units h]
  obtain ⟨k, hk⟩ := grid
  have hpos : 0 < 2 ^ spacing units := Nat.two_pow_pos _
  have hnum : units * den = k * (den * 2 ^ spacing units) := by
    calc units * den = (2 ^ spacing units * k) * den := by rw [← hk]
      _ = k * (den * 2 ^ spacing units) := by
        rw [Nat.mul_comm (2 ^ spacing units) k, Nat.mul_assoc, Nat.mul_comm (2 ^ spacing units) den]
  simp only
  rw [hnum, nearestEven_mul_left _ _ (Nat.mul_pos h hpos), Nat.mul_comm]
  exact hk.symm

end DiceDuel.Binary64
