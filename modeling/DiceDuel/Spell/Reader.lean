import DiceDuel.Spell.Basic

/-!
# Reading codes

A code is read from the outside in: the scaling suffix is taken off the end, then the roll-again
mark off the front, then the base up to the first brace; what remains is scanned for groups.
Reading never fails. Text between groups is dropped, except that a capital right before a brace is
the letter of the group, and a group that is not closed ends the scan.
-/

namespace DiceDuel

/-- One group of a code. -/
structure Group where
  /-- The capital right before the brace. -/
  letter : Option Char
  /-- The text between the braces. -/
  raw : List Char
deriving DecidableEq, Repr

namespace Group

/-- Where a scan for groups stands. -/
inductive Place where
  /-- Between groups, with the letter that a brace would take up here. -/
  | between (letter : Option Char)
  /-- Inside a group, with its letter and the text so far, last character first. -/
  | within (letter : Option Char) (reversed : List Char)

/-- The letter that a character gives to a group behind it: ASCII capitals only. -/
def letterOf? (c : Char) : Option Char := if c.isUpper then some c else none

/-- The groups of a text, read from a place on. A group runs to the next closing brace and may
hold opening ones. -/
def scan : Place → List Char → List Group
  | _, [] => []
  | .between letter, c :: rest =>
    if c = '{' then scan (.within letter []) rest else scan (.between (letterOf? c)) rest
  | .within letter reversed, c :: rest =>
    if c = '}' then ⟨letter, reversed.reverse⟩ :: scan (.between none) rest
    else scan (.within letter (c :: reversed)) rest

/-- The leading token: the text of the first group without a letter. -/
def first? (groups : List Group) : Option String :=
  (groups.find? fun g => g.letter.isNone).map fun g => String.ofList g.raw

/-- The lettered tokens; of two groups with one letter the later counts. -/
def tokens (groups : List Group) : SortedMap Char String :=
  .ofList (groups.filterMap fun g => g.letter.map fun letter => (letter, String.ofList g.raw))

end Group

namespace Spell

/-- The digit that a character stands for. -/
def digit? (c : Char) : Option UInt8 :=
  if c.isDigit then some (UInt8.ofNat (Text.digitValue c)) else none

/-- A text cut before a final hyphen and three digits, and the scaling they give; a text without
such an end stays whole. -/
def splitScaling (cs : List Char) : List Char × Scaling :=
  match cs.reverse with
  | p :: l :: t :: '-' :: rest =>
    match digit? t, digit? l, digit? p with
    | some tier, some level, some rate => (rest.reverse, .of tier level rate)
    | _, _, _ => (cs, {})
  | _ => (cs, {})

/-- A text without a leading roll-again mark, and whether it had one. -/
def splitMark : List Char → List Char × Bool
  | 'R' :: 'A' :: rest => (rest, true)
  | cs => (cs, false)

/-- Takes a code apart. -/
def ofChars (cs : List Char) : Spell :=
  let (body, scaling) := splitScaling cs
  let (body, rollAgain) := splitMark body
  let groups := Group.scan (.between none) (body.dropWhile (· != '{'))
  { base := String.ofList (body.takeWhile (· != '{'))
    first := Group.first? groups
    tokens := Group.tokens groups
    scaling
    rollAgain }

/-- Takes a code apart. -/
def ofCode (code : Code) : Spell := ofChars code.text.toList

end Spell

end DiceDuel
