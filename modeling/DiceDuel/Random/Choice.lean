import DiceDuel.Random.Generator

/-!
# Weighted choice

A table pairs keys with weights. It is checked entry by entry before a draw is made, and a key is
chosen in proportion to its weight; a weight of zero means never, also when the shares, once rounded,
add up to less than the draw.
-/

namespace DiceDuel

/-- Why a table of weights is refused. -/
inductive WeightFault where
  /-- There are fewer than two entries. -/
  | tooFew (count : Nat)
  /-- A weight is infinite or NaN. -/
  | notFinite (index : Nat)
  /-- A weight is below zero. -/
  | negative (index : Nat) (weight : Binary64)
  /-- The weights add up to zero. -/
  | zeroTotal
deriving DecidableEq

/-- The text of a fault. -/
def WeightFault.message : WeightFault → String
  | .tooFew count => "provide at least 2 options, got " ++ toString count
  | .notFinite index => "weight at index " ++ toString index ++ " must be a finite number"
  | .negative index weight =>
    "weight at index " ++ toString index ++ " must be >= 0, got " ++ weight.text
  | .zeroTotal => "total weight must be > 0"

/-- An entry of an accepted table. -/
structure Share where
  /-- The place of the entry in the table. -/
  index : Nat
  /-- The weight as given. -/
  weight : Binary64
  /-- The weight over the total. -/
  probability : Binary64
deriving DecidableEq

namespace Share

/-- The fault of the first faulty weight, counting from an index. -/
def firstFault? : Nat → List Binary64 → Option WeightFault
  | _, [] => none
  | index, weight :: rest =>
    if !weight.isFinite then some (.notFinite index)
    else if weight.lt 0 then some (.negative index weight)
    else firstFault? (index + 1) rest

/-- The sum of the weights, from left to right. -/
def total (weights : List Binary64) : Binary64 := weights.foldl (· + ·) 0

/-- The share of each weight, or the first fault of the table. -/
def ofWeights (weights : List Binary64) : Except WeightFault (List Share) :=
  if weights.length < 2 then .error (.tooFew weights.length)
  else
    match firstFault? 0 weights with
    | some fault => .error fault
    | none =>
      if (total weights).le 0 then .error .zeroTotal
      else .ok (weights.mapIdx fun index weight => ⟨index, weight, weight / total weights⟩)

/-- Whether an entry may be chosen at all. -/
def isLive (share : Share) : Bool := (0 : Binary64).lt share.weight

/-- The first live entry at which the running sum of the shares passes a draw. -/
def reach? (draw : Binary64) : Binary64 → List Share → Option Share
  | _, [] => none
  | sum, share :: rest =>
    let sum := sum + share.probability
    if draw.lt sum && share.isLive then some share else reach? draw sum rest

/-- The entry that a draw chooses. If the running sum never passes the draw it is the last live
entry, and the last entry of a table in which none is live. -/
def choose? (draw : Binary64) (shares : List Share) : Option Share :=
  (reach? draw 0 shares).or ((shares.reverse.find? isLive).or shares.getLast?)

end Share

namespace Generator

/-- Draws a key of a table in proportion to its weight. A refused table costs no draw. -/
def key {κ ρ : Type} [WordReader ρ] (table : List (κ × Binary64)) (g : Generator ρ) :
    Except WeightFault κ × Generator ρ :=
  match Share.ofWeights (table.map (·.2)) with
  | .error fault => (.error fault, g)
  | .ok shares =>
    g.making unit fun draw =>
      match (Share.choose? draw shares).bind fun share => table[share.index]? with
      | some entry => .ok entry.1
      | none => .error .zeroTotal

end Generator

end DiceDuel
