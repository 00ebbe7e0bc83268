import DiceDuel.Spell.Scaling
import DiceDuel.Text.Numeral

/-!
# Values of tokens

A token is the raw text of a spell's group. By its form it stands for a band, for the indices up to
a bound, for a number, or for itself; a band with no entry and a bound that is too great are faults.
-/

namespace DiceDuel

-- A power is the core library's, whatever other instances a module that uses this one brings in.
attribute [local instance (high)] instPowNat

/-- What a token resolves to. -/
inductive Value where
  /-- A number, written out or taken from a band. -/
  | integer (n : Int64)
  /-- Indices to choose from, in order. -/
  | sequence (indices : List UInt32)
  /-- A text such as the name of a class. -/
  | literal (text : String)
deriving DecidableEq

/-- Why a token does not resolve. -/
inductive TokenFault where
  /-- There is no band with the number. -/
  | unknownBand (number : UInt32)
  /-- More indices were asked for than may be. -/
  | tooManyIndices (requested : UInt64) (limit : UInt32)
deriving DecidableEq

/-- The text of a fault. -/
def TokenFault.message : TokenFault → String
  | .unknownBand number => "invalid ranged value R" ++ toString number.toNat
  | .tooManyIndices requested limit =>
    "index range max(" ++ toString requested.toNat ++ ") exceeds limit of " ++ toString limit.toNat

/-- The form of a token, with the number in it. -/
inductive TokenForm where
  /-- The letter of bands and one or two digits. -/
  | band (number : Nat)
  /-- A numeral as the bound of a sequence. -/
  | upTo (bound : Nat)
  /-- A numeral within the range of integers. -/
  | number (n : Nat)
  /-- Any other text. -/
  | text
deriving DecidableEq

/-- The form of a token. -/
def TokenForm.ofChars : List Char → TokenForm
  | 'R' :: digits =>
    if Text.isNumeral digits && digits.length ≤ 2 then .band (Text.numeralValue digits) else .text
  | 'm' :: 'a' :: 'x' :: '(' :: rest =>
    if rest.getLast? == some ')' && Text.isNumeral rest.dropLast then
      .upTo (Text.numeralValue rest.dropLast)
    else .text
  | cs =>
    if Text.isNumeral cs && Text.numeralValue cs < 2 ^ (63 : Nat) then
      .number (Text.numeralValue cs)
    else .text

namespace Value

/-- The greatest bound of a sequence. -/
def maxIndices : UInt32 := 1024

/-- The indices from one to a bound. -/
def indicesTo (bound : Nat) : List UInt32 := (List.range bound).map fun i => UInt32.ofNat (i + 1)

/-- What a token stands for under a scaling. A bound beyond 64 bits is reported as the greatest
that fits. -/
def ofToken (scaling : Scaling) (raw : String) : Except TokenFault Value :=
  match TokenForm.ofChars raw.toList with
  | .band number =>
    match Band.scaledOfNumber? number scaling with
    | some n => .ok (.integer n)
    | none => .error (.unknownBand (UInt32.ofNat number))
  | .upTo bound =>
    if maxIndices.toNat < bound then
      .error (.tooManyIndices (UInt64.ofNat (min bound (UInt64.size - 1))) maxIndices)
    else .ok (.sequence (indicesTo bound))
  | .number n => .ok (.integer (Int64.ofNat n))
  | .text => .ok (.literal raw)

/-- What an optional token stands for; a fault counts as absence. -/
def ofToken? (scaling : Scaling) (raw : Option String) : Option Value :=
  raw.bind fun token => (ofToken scaling token).toOption

/-- The number of an integer. -/
def integer? : Value → Option Int64
  | .integer n => some n
  | _ => none

/-- The indices of a sequence. -/
def sequence? : Value → Option (List UInt32)
  | .sequence indices => some indices
  | _ => none

/-- The text of a literal. -/
def literal? : Value → Option String
  | .literal text => some text
  | _ => none

/-- A value as text: a sequence in brackets with commas and no blanks. -/
def text : Value → String
  | .integer n => toString n.toInt
  | .sequence indices => "[" ++ ",".intercalate (indices.map fun i => toString i.toNat) ++ "]"
  | .literal s => s

end Value

end DiceDuel
