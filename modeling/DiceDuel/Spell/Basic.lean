import DiceDuel.SortedMap
import DiceDuel.Spell.Base
import DiceDuel.Spell.Code
import DiceDuel.Spell.Scaling

/-!
# Spells

A spell is a code taken apart: the roll-again mark, the base as written, the leading token, the
lettered tokens and the scaling. This file holds the type and the canonical code of a spell, in
which the lettered tokens stand in alphabetical order.
-/

namespace DiceDuel

/-- A code taken apart. -/
structure Spell where
  /-- The base as written, which need not be one of the catalog. -/
  base : String
  /-- The leading token. -/
  first : Option String
  /-- The lettered tokens. -/
  tokens : SortedMap Char String
  /-- The scaling of the suffix. -/
  scaling : Scaling
  /-- Whether a die decides first if the spell goes ahead. -/
  rollAgain : Bool
deriving DecidableEq

namespace Spell

/-- The characters that mark a spell as gated by a die. -/
def rollAgainMark : List Char := ['R', 'A']

/-- The base of the catalog, if the spell has one. -/
def knownBase? (spell : Spell) : Option Base := Base.ofCode? spell.base

/-- The token with a letter. -/
def token? (spell : Spell) (letter : Char) : Option String := spell.tokens.get? letter

/-- A token in braces. -/
def group (raw : String) : List Char := '{' :: raw.toList ++ ['}']

/-- The suffix of a scaling, which is written only when all three values are there. -/
def scalingSuffix : Scaling → List Char
  | ⟨some t, some l, some p⟩ =>
    '-' :: Text.numeral t.toNat ++ Text.numeral l.toNat ++ Text.numeral p.toNat
  | _ => []

/-- The characters of the canonical code. -/
def chars (spell : Spell) : List Char :=
  (if spell.rollAgain then rollAgainMark else [])
    ++ spell.base.toList
    ++ (spell.first.map group).getD []
    ++ spell.tokens.entries.flatMap (fun entry => entry.1 :: group entry.2)
    ++ scalingSuffix spell.scaling

/-- The canonical code of a spell. -/
def code (spell : Spell) : Code := ⟨String.ofList spell.chars⟩

end Spell

end DiceDuel
