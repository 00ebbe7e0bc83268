import DiceDuel.Text.Unprinted
import DiceDuel.Text.GraphemeExtend
import DiceDuel.Text.DefaultIgnorable

/-!
# Quoted text

Messages show a text that somebody supplied in double quotes, with everything that would not show
escaped: a backslash and a letter for the common cases, and the code point in braces for the rest.
-/

namespace DiceDuel.Text

/-- The escape of a code point: its lower-case hexadecimal digits in braces. -/
def escapePoint (c : Char) : List Char :=
  ['\\', 'u', '{'] ++ Nat.toDigits 16 c.toNat ++ ['}']

/-- Whether a character stands for itself inside quotes: it has a printed form, is not blank by
default and does not combine with the character before it. -/
def isShown (c : Char) : Bool := !(isUnprinted c || isDefaultIgnorable c || isCombining c)

/-- How one character stands inside double quotes. A single quote stands for itself; a mark that
combines with the character before it is escaped wherever it stands. -/
def quoteChar (c : Char) : List Char :=
  match c with
  | '\x00' => ['\\', '0']
  | '\t' => ['\\', 't']
  | '\n' => ['\\', 'n']
  | '\r' => ['\\', 'r']
  | '"' => ['\\', '"']
  | '\\' => ['\\', '\\']
  | c => if isShown c then [c] else escapePoint c

/-- A text in double quotes, with what would not show escaped. -/
def quote (s : String) : String :=
  String.ofList ('"' :: s.toList.flatMap quoteChar ++ ['"'])

end DiceDuel.Text
