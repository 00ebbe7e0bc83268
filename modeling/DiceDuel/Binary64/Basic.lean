import DiceDuel.Binary64.Rounding

/-!
# Binary64 numbers

The weights, chances and blends of a duel are binary64 numbers. Here they are data: a finite
number is a sign and a magnitude in units of `2 ^ -1074`, and each operation is the exact
result rounded once, to nearest with ties to even. There is one NaN; the sign of zero is kept.
Nothing here is an approximation of another arithmetic: these are the definitions that run.
-/

namespace DiceDuel

-- A power is the core library's, whatever other instances a module that uses this one brings in.
attribute [local instance (high)] instPowNat

/-- A binary64 number. -/
inductive Binary64 where
  /-- The result of an operation that has none. -/
  | nan
  /-- Beyond the finite range, on one side. -/
  | infinite (negative : Bool)
  /-- A magnitude in units of `2 ^ -1074`, with its sign; zero has two. -/
  | finite (negative : Bool) (units : Nat) (fits : Binary64.Fits units)
deriving DecidableEq

namespace Binary64

/-- Zero with a sign. -/
def zero (negative : Bool) : Binary64 := .finite negative 0 (by decide +kernel)

instance : Inhabited Binary64 := ⟨zero false⟩

/-- The number nearest to a signed quotient of units; infinite once the magnitude passes the
finite range. -/
def round (negative : Bool) (num den : Nat) : Binary64 :=
  if h : roundUnits num den < limit then
    .finite negative (roundUnits num den) ⟨h, onGrid_roundUnits num den⟩
  else .infinite negative

/-- The number of units in one. -/
def unitsPerOne : Nat := 2 ^ (1074 : Nat)

/-- The number nearest to an integer. -/
def ofInt (n : Int) : Binary64 := round (n < 0) (n.natAbs * unitsPerOne) 1

/-- The number nearest to `k / 2 ^ e`. -/
def dyadic (k e : Nat) : Binary64 := round false (k * unitsPerOne) (2 ^ e)

/-- A magnitude with its sign, as an integer count of units. -/
def signedUnits (negative : Bool) (units : Nat) : Int :=
  if negative then -(units : Int) else units

/-- The same magnitude with the other sign. -/
def neg : Binary64 → Binary64
  | .nan => .nan
  | .infinite s => .infinite (!s)
  | .finite s a h => .finite (!s) a h

/-- The exact sum, rounded. A sum of zero is negative only when both terms are negative. -/
def add : Binary64 → Binary64 → Binary64
  | .finite s a _, .finite t b _ =>
    let sum := signedUnits s a + signedUnits t b
    if sum = 0 then zero (s && t) else round (sum < 0) sum.natAbs 1
  | .infinite s, .infinite t => if s = t then .infinite s else .nan
  | .infinite s, .finite .. => .infinite s
  | .finite .., .infinite t => .infinite t
  | .nan, _ => .nan
  | _, .nan => .nan

/-- The exact difference, rounded. -/
def sub (x y : Binary64) : Binary64 := add x (neg y)

/-- The exact product, rounded. Its sign is negative when the signs differ. -/
def mul : Binary64 → Binary64 → Binary64
  | .finite s a _, .finite t b _ => round (s != t) (a * b) unitsPerOne
  | .infinite s, .infinite t => .infinite (s != t)
  | .infinite s, .finite t b _ => if b = 0 then .nan else .infinite (s != t)
  | .finite s a _, .infinite t => if a = 0 then .nan else .infinite (s != t)
  | .nan, _ => .nan
  | _, .nan => .nan

/-- The exact quotient, rounded. A finite number over zero is infinite, zero over zero has no
result. -/
def div : Binary64 → Binary64 → Binary64
  | .finite s a _, .finite t b _ =>
    if b = 0 then (if a = 0 then .nan else .infinite (s != t))
    else round (s != t) (a * unitsPerOne) b
  | .infinite _, .infinite _ => .nan
  | .infinite s, .finite t _ _ => .infinite (s != t)
  | .finite s _ _, .infinite t => zero (s != t)
  | .nan, _ => .nan
  | _, .nan => .nan

instance : Neg Binary64 := ⟨neg⟩
instance : Add Binary64 := ⟨add⟩
instance : Sub Binary64 := ⟨sub⟩
instance : Mul Binary64 := ⟨mul⟩
instance : Div Binary64 := ⟨div⟩
instance (n : Nat) : OfNat Binary64 n := ⟨ofInt n⟩

/-- How two numbers compare. The two zeros are equal, and NaN compares with nothing. -/
def compare? : Binary64 → Binary64 → Option Ordering
  | .finite s a _, .finite t b _ => some (compare (signedUnits s a) (signedUnits t b))
  | .infinite s, .infinite t => some (compare t s)
  | .infinite s, .finite .. => some (if s then .lt else .gt)
  | .finite .., .infinite t => some (if t then .gt else .lt)
  | .nan, _ => none
  | _, .nan => none

/-- Strictly below; false if either is NaN. -/
def lt (x y : Binary64) : Bool := compare? x y == some .lt

/-- Below or equal; false if either is NaN. -/
def le (x y : Binary64) : Bool := lt x y || compare? x y == some .eq

/-- Equal in value; false if either is NaN. -/
def same (x y : Binary64) : Bool := compare? x y == some .eq

/-- Neither infinite nor NaN. -/
def isFinite : Binary64 → Bool
  | .finite .. => true
  | _ => false

/-- The greatest integer not above a finite number, held within the 64-bit range. Infinities
give the ends of that range and NaN gives zero. -/
def floorInt64 : Binary64 → Int64
  | .nan => 0
  | .infinite s => if s then Int64.minValue else Int64.maxValue
  | .finite s a _ =>
    let whole := Int.fdiv (signedUnits s a) unitsPerOne
    if whole < Int64.minValue.toInt then Int64.minValue
    else if Int64.maxValue.toInt < whole then Int64.maxValue
    else Int64.ofInt whole

/-- The limit of the finite range is a power of two, and the smaller powers lie below it. -/
theorem two_pow_le_limit {e : Nat} (h : e ≤ 2098) : 2 ^ e ≤ limit := by
  unfold limit
  generalize 2098 = top at h ⊢
  exact Nat.pow_le_pow_right (by decide) h

/-- Magnitudes of 53 bits on a grid within the exponent range can be held. -/
theorem fits_mul_two_pow {m e : Nat} (hm : m < 2 ^ (53 : Nat)) (he : e ≤ 2045) :
    Fits (m * 2 ^ e) := by
  refine ⟨?_, onGrid_mul_two_pow e (Nat.le_of_lt hm)⟩
  calc m * 2 ^ e < 2 ^ (53 : Nat) * 2 ^ e := Nat.mul_lt_mul_of_pos_right hm (Nat.two_pow_pos e)
    _ = 2 ^ (53 + e) := by rw [Nat.pow_add]
    _ ≤ limit := two_pow_le_limit (by omega)

/-- The number that sixty-four bits stand for: sign, eleven exponent bits, fifty-two fraction
bits. -/
def ofBits (bits : UInt64) : Binary64 :=
  let negative := decide (2 ^ (63 : Nat) ≤ bits.toNat)
  let exponent := bits.toNat / 2 ^ (52 : Nat) % 2 ^ (11 : Nat)
  let fraction := bits.toNat % 2 ^ (52 : Nat)
  if h : exponent = 2047 then (if fraction = 0 then .infinite negative else .nan)
  else if exponent = 0 then
    .finite negative fraction (by
      have hf : fraction < 2 ^ (53 : Nat) :=
        Nat.lt_trans (Nat.mod_lt _ (Nat.two_pow_pos 52)) (by decide)
      simpa using fits_mul_two_pow (e := 0) hf (by omega))
  else
    .finite negative ((2 ^ (52 : Nat) + fraction) * 2 ^ (exponent - 1)) (by
      have hf : fraction < 2 ^ (52 : Nat) := Nat.mod_lt _ (Nat.two_pow_pos 52)
      have he : exponent < 2 ^ (11 : Nat) := Nat.mod_lt _ (Nat.two_pow_pos 11)
      exact fits_mul_two_pow (by omega) (by omega))

/-- The sixty-four bits that stand for a number; NaN is the quiet one with no payload. -/
def toBits : Binary64 → UInt64
  | .nan => 0x7ff8000000000000
  | .infinite s => if s then 0xfff0000000000000 else 0x7ff0000000000000
  | .finite s a _ =>
    let body := spacing a * 2 ^ (52 : Nat) + a / 2 ^ spacing a
    UInt64.ofNat (if s then 2 ^ (63 : Nat) + body else body)

end Binary64

end DiceDuel
