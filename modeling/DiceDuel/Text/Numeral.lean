/-!
# Decimal numerals

A numeral is a non-empty run of ASCII digits. This file has its value and the numeral that is
written for a natural number.
-/

namespace DiceDuel.Text

/-- Whether the characters form a numeral. -/
def isNumeral (cs : List Char) : Bool := !cs.isEmpty && cs.all Char.isDigit

/-- The value of one digit. -/
def digitValue (c : Char) : Nat := c.toNat - '0'.toNat

/-- The value of a numeral. -/
def numeralValue (cs : List Char) : Nat := cs.foldl (fun n c => 10 * n + digitValue c) 0

/-- The numeral of a natural number, without leading zeros. -/
def numeral (n : Nat) : List Char := Nat.toDigits 10 n

end DiceDuel.Text
