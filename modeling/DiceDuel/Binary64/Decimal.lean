import DiceDuel.Binary64.Basic

/-!
# Decimal text of binary64 numbers

A finite number is written with the fewest digits that read back to it, always positionally
and with no point when it is whole. All quantities here are exact naturals on the finest decimal
grid, `10 ^ -1074`, on which every binary64 magnitude lies, so no step of the selection rounds.
-/

namespace DiceDuel.Binary64

-- A power is the core library's, whatever other instances a module that uses this one brings in.
attribute [local instance (high)] instPowNat

/-- The decimal places of the finest grid, on which every magnitude lies. -/
def finestPlaces : Nat := 1074

/-- A magnitude counted in steps of the finest decimal grid. -/
def exactSteps (units : Nat) : Nat := units * 5 ^ finestPlaces

/-- The decimals that read back to one magnitude, with ends in quarters of a finest step. -/
structure ReadBack where
  /-- Halfway to the magnitude below. -/
  low : Nat
  /-- Halfway to the magnitude above. -/
  high : Nat
  /-- Whether the ends themselves read back, which is when the last significant bit is even. -/
  closed : Bool

/-- The decimals that read back to a magnitude. Below a power of two the neighbour is half as far
away as above it, unless the power is at the bottom of the range. -/
def readBack (units : Nat) : ReadBack :=
  let gap := 2 ^ spacing units * 5 ^ finestPlaces
  let narrow := 0 < spacing units && units == 2 ^ (52 + spacing units)
  { low := 4 * exactSteps units - (if narrow then gap else 2 * gap)
    high := 4 * exactSteps units + 2 * gap
    closed := units / 2 ^ spacing units % 2 == 0 }

/-- Whether a decimal, in finest steps, reads back. -/
def ReadBack.holds (r : ReadBack) (steps : Nat) : Bool :=
  if r.closed then r.low ≤ 4 * steps && 4 * steps ≤ r.high
  else r.low < 4 * steps && 4 * steps < r.high

/-- The nearest decimal that reads back, taken from the coarsest grid of at most `10 ^ places`
steps whose two neighbours of the value hold one. Of two equally near the greater is taken; on the
finest grid the value itself is the decimal. -/
def shortestFrom (exact : Nat) (r : ReadBack) : Nat → Nat
  | 0 => exact
  | places + 1 =>
    let grid := 10 ^ (places + 1)
    let below := exact / grid * grid
    let above := below + grid
    match r.holds below, r.holds above with
    | true, true => if 2 * exact < below + above then below else above
    | true, false => below
    | false, true => above
    | false, false => shortestFrom exact r places

/-- The decimal with the fewest digits that reads back to a magnitude, in finest steps. The first
grid tried is that of the leading digit. -/
def shortest (units : Nat) : Nat :=
  let exact := exactSteps units
  shortestFrom exact (readBack units) ((Nat.toDigits 10 exact).length - 1)

/-- The digits after the point, without trailing zeros. -/
def fractionDigits (steps : Nat) : List Char :=
  let digits := Nat.toDigits 10 (steps % 10 ^ finestPlaces)
  let padded := List.replicate (finestPlaces - digits.length) '0' ++ digits
  (padded.reverse.dropWhile (· == '0')).reverse

/-- A decimal in positional form. -/
def positional (steps : Nat) : String :=
  let whole := toString (steps / 10 ^ finestPlaces)
  match fractionDigits steps with
  | [] => whole
  | digits => whole ++ "." ++ String.ofList digits

/-- The text of a number: the fewest digits that read back, a sign for every negative number and
for negative zero. -/
def text : Binary64 → String
  | .nan => "NaN"
  | .infinite s => if s then "-inf" else "inf"
  | .finite s a _ => (if s then "-" else "") ++ positional (shortest a)

instance : ToString Binary64 := ⟨text⟩

end DiceDuel.Binary64
