/-!
# The path of a hash

The cells of a table are tried in a fixed order: runs of sixteen neighbours, the first from the cell
that the hash names, each later one further on by one run more than the one before it. The number of
cells is a power of two. Then the starts of the runs reach every residue, and no cell is left out.
-/

namespace DiceDuel.HashTable

-- A power is the core library's, whatever other instances a module that uses this one brings in.
attribute [local instance (high)] instPowNat

/-- How many runs further on a run starts than the first one. -/
def lead : Nat → Nat
  | 0 => 0
  | run + 1 => lead run + (run + 1)

/-- The cells that a hash tries, among a number of cells. -/
def path (size : Nat) (hash : UInt64) : List Nat :=
  (List.range ((size + 15) / 16)).flatMap fun run =>
    (List.range 16).map fun step => (hash.toNat + 16 * lead run + step) % size

/-- Twice a lead is a product of neighbours. -/
theorem two_mul_lead (run : Nat) : 2 * lead run = run * (run + 1) := by
  induction run with
  | zero => rfl
  | succ run ih =>
    rw [lead]
    grind

/-- Among twice a power of two of runs, a run and the one that mirrors it differ in their leads by
that power. -/
theorem lead_mirror {half run mirror : Nat} (hmirror : run + mirror + 1 = 2 * half) :
    lead mirror % (2 * half) = (lead run + half) % (2 * half) := by
  have hrun := two_mul_lead run
  have hother := two_mul_lead mirror
  have hsum : lead mirror + 2 * half * (run + 1) = lead run + half + 2 * half * half := by
    grind
  rw [← Nat.add_mul_mod_self_left (lead mirror) (2 * half) (run + 1), hsum,
    Nat.add_mul_mod_self_left]

/-- A number below twice another leaves itself as the remainder, or is the remainder and the other. -/
theorem eq_mod_or_eq_mod_add {n half : Nat} (hn : n < 2 * half) :
    n = n % half ∨ n = n % half + half := by
  by_cases hlow : n < half
  · exact .inl (Nat.mod_eq_of_lt hlow).symm
  · have hrest : n % half = n - half := by
      rw [Nat.mod_eq_sub_mod (Nat.le_of_not_lt hlow)]
      exact Nat.mod_eq_of_lt (by omega)
    exact .inr (by omega)

/-- Of two different numbers with one remainder, both below twice the divisor, each is the other
moved on by the divisor. -/
theorem add_mod_of_mod_eq {n other half : Nat} (hn : n < 2 * half) (hother : other < 2 * half)
    (hmod : n % half = other % half) (hne : n ≠ other) : (n + half) % (2 * half) = other := by
  have hcases := eq_mod_or_eq_mod_add hn
  have hothers := eq_mod_or_eq_mod_add hother
  have hrest : n % half < half := Nat.mod_lt n (by omega)
  rw [hmod] at hcases hrest
  by_cases hlow : n + half < 2 * half
  · rw [Nat.mod_eq_of_lt hlow]
    omega
  · rw [Nat.mod_eq_sub_mod (Nat.le_of_not_lt hlow), Nat.mod_eq_of_lt (by omega)]
    omega

/-- The leads of a power of two of runs reach every residue. -/
theorem exists_lead_mod (exponent : Nat) {residue : Nat} (hresidue : residue < 2 ^ exponent) :
    ∃ run, run < 2 ^ exponent ∧ lead run % 2 ^ exponent = residue := by
  induction exponent generalizing residue with
  | zero => exact ⟨0, Nat.one_pos, by omega⟩
  | succ exponent ih =>
    have hpositive : 0 < 2 ^ exponent := Nat.two_pow_pos exponent
    obtain ⟨run, hrun, hlead⟩ := ih (Nat.mod_lt residue hpositive)
    rw [Nat.pow_succ, Nat.mul_comm] at hresidue ⊢
    generalize 2 ^ exponent = half at hresidue hpositive hrun hlead ⊢
    by_cases hexact : lead run % (2 * half) = residue
    · exact ⟨run, by omega, hexact⟩
    · -- Modulo the smaller power the lead is right, so it is wrong by that power.
      have hmirror : run + (2 * half - 1 - run) + 1 = 2 * half := by omega
      refine ⟨2 * half - 1 - run, by omega, ?_⟩
      have hlower : lead run % (2 * half) % half = residue % half := by
        rw [Nat.mod_mul_left_mod, hlead]
      rw [lead_mirror hmirror, ← Nat.mod_add_mod]
      exact add_mod_of_mod_eq (Nat.mod_lt _ (by omega)) hresidue hlower hexact

/-- How far a cell is from another, going round. -/
theorem add_distance_mod (start : Nat) {size place : Nat} (hplace : place < size) :
    (start + (place + size - start % size) % size) % size = place := by
  have hstart : start % size < size := Nat.mod_lt start (by omega)
  rw [Nat.add_mod_mod, ← Nat.mod_add_mod, show start % size + (place + size - start % size) =
    place + size by omega, Nat.add_mod_right, Nat.mod_eq_of_lt hplace]

/-- A table of one run at most has every cell on the path. -/
theorem mem_path_of_le {size place : Nat} (hsize : size ≤ 16) (hplace : place < size)
    (hash : UInt64) : place ∈ path size hash := by
  have hstep := Nat.mod_lt (place + size - hash.toNat % size) (Nat.zero_lt_of_lt hplace)
  have hround := add_distance_mod hash.toNat hplace
  simp only [path, List.mem_flatMap, List.mem_map, List.mem_range]
  exact ⟨0, by omega, _, by omega, hround⟩

/-- A table of a power of two of runs has every cell on the path. -/
theorem mem_path_of_runs {exponent place : Nat} (hplace : place < 16 * 2 ^ exponent)
    (hash : UInt64) : place ∈ path (16 * 2 ^ exponent) hash := by
  have hround := add_distance_mod hash.toNat hplace
  have hdistance := Nat.mod_lt (place + 16 * 2 ^ exponent - hash.toNat % (16 * 2 ^ exponent))
    (Nat.zero_lt_of_lt hplace)
  generalize (place + _ - _) % _ = distance at hround hdistance
  have hresidue : distance / 16 < 2 ^ exponent := by omega
  obtain ⟨run, hrun, hlead⟩ := exists_lead_mod exponent hresidue
  simp only [path, List.mem_flatMap, List.mem_map, List.mem_range]
  refine ⟨run, by omega, distance % 16, Nat.mod_lt _ (by decide), ?_⟩
  -- The run starts where the distance has its last multiple of sixteen.
  have hstart : 16 * lead run % (16 * 2 ^ exponent) = 16 * (distance / 16) := by
    rw [Nat.mul_mod_mul_left, hlead]
  calc (hash.toNat + 16 * lead run + distance % 16) % (16 * 2 ^ exponent)
      = (hash.toNat + distance % 16 + 16 * lead run % (16 * 2 ^ exponent)) %
          (16 * 2 ^ exponent) := by rw [Nat.add_mod_mod, Nat.add_right_comm]
    _ = (hash.toNat + distance) % (16 * 2 ^ exponent) := by
      rw [hstart]
      congr 1
      omega
    _ = place := hround

/-- A power of two of cells, four or more, is on every path as a whole. -/
theorem mem_path {exponent place : Nat} (hplace : place < 4 * 2 ^ exponent) (hash : UInt64) :
    place ∈ path (4 * 2 ^ exponent) hash := by
  match exponent with
  | 0 => exact mem_path_of_le (by decide) hplace hash
  | 1 => exact mem_path_of_le (by decide) hplace hash
  | exponent + 2 =>
    have hsize : 4 * 2 ^ (exponent + 2) = 16 * 2 ^ exponent := by
      rw [Nat.pow_add]
      omega
    rw [hsize] at hplace ⊢
    exact mem_path_of_runs hplace hash

end DiceDuel.HashTable
