/-!
# Written values

Values are written down as JSON: a record is an object with a field for each part, a choice is its
name or an object of one field, whose name is that of the choice. This file has the type, the reading
of fields and choices, and the forms of the basic types. A field that is absent reads as null, which
only an optional part accepts; fields that nobody asks for are passed over.
-/

namespace DiceDuel

-- A power is the core library's, whatever other instances a module that uses this one brings in.
attribute [local instance (high)] instPowNat

/-- A written value. -/
inductive Json where
  /-- Nothing. -/
  | null
  /-- A truth value. -/
  | bool (b : Bool)
  /-- A whole number. -/
  | int (n : Int)
  /-- A number with a fractional part: a whole number over a power of ten. No type reads one. -/
  | decimal (numerator : Int) (places : Nat)
  /-- A text. -/
  | text (s : String)
  /-- Values in order. -/
  | list (items : List Json)
  /-- Values by name. -/
  | object (fields : List (String × Json))
deriving Inhabited

/-- A type whose values can be written down and read. -/
class JsonForm (α : Type) where
  /-- The written form of a value. -/
  toJson : α → Json
  /-- The value of a written form, if it is one. -/
  ofJson? : Json → Option α

export JsonForm (toJson ofJson?)

namespace Json

/-- The content of a field; null if the field is absent, and nothing if there are no fields. -/
def field? (name : String) : Json → Option Json
  | .object fields => some ((fields.lookup name).getD .null)
  | _ => none

/-- The value in a field. -/
def get? {α : Type} [JsonForm α] (j : Json) (name : String) : Option α :=
  (j.field? name).bind ofJson?

/-- The name and the content of a choice. A bare name is the choice without content. -/
def choice? : Json → Option (String × Json)
  | .text name => some (name, .null)
  | .object [(name, content)] => some (name, content)
  | _ => none

/-- The written form of a choice with content. -/
def choice (name : String) (content : Json) : Json := .object [(name, content)]

/-- A natural number below a bound. -/
def natBelow? (bound : Nat) : Json → Option Nat
  | .int n => if 0 ≤ n ∧ n < bound then some n.toNat else none
  | _ => none

end Json

instance : JsonForm Bool where
  toJson := .bool
  ofJson?
    | .bool b => some b
    | _ => none

instance : JsonForm String where
  toJson := .text
  ofJson?
    | .text s => some s
    | _ => none

instance : JsonForm UInt8 where
  toJson n := .int n.toNat
  ofJson? j := (j.natBelow? UInt8.size).map UInt8.ofNat

instance : JsonForm UInt32 where
  toJson n := .int n.toNat
  ofJson? j := (j.natBelow? UInt32.size).map UInt32.ofNat

instance : JsonForm UInt64 where
  toJson n := .int n.toNat
  ofJson? j := (j.natBelow? UInt64.size).map UInt64.ofNat

instance {w : Nat} : JsonForm (BitVec w) where
  toJson n := .int n.toNat
  ofJson? j := (j.natBelow? (2 ^ w)).map (BitVec.ofNat w)

instance : JsonForm Int64 where
  toJson n := .int n.toInt
  ofJson?
    | .int n => if -2 ^ (63 : Nat) ≤ n ∧ n < 2 ^ (63 : Nat) then some (Int64.ofInt n) else none
    | _ => none

instance {α : Type} [JsonForm α] : JsonForm (Option α) where
  toJson
    | none => .null
    | some a => toJson a
  ofJson?
    | .null => some none
    | j => (ofJson? j).map some

instance {α : Type} [JsonForm α] : JsonForm (List α) where
  toJson items := .list (items.map toJson)
  ofJson?
    | .list items => items.mapM ofJson?
    | _ => none

end DiceDuel
