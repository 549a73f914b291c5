/-!
Document trees: what is left of a text in JSON or YAML once its punctuation is read. A scalar that
YAML leaves unquoted keeps its text, because its meaning depends on what is expected in its place.
-/

namespace AppDriver

/-- A scalar. A numeral without sign, fraction and exponent below 2^64 is `natural`; every other
number is `number`, which no field takes. What can only be skipped is `unreadable`: a number that no
double holds, a text with half a surrogate pair, what is nested too deep. -/
inductive Scalar where
  | null
  | flag (b : Bool)
  | natural (n : Nat)
  | number
  | text (s : String)
  | plain (s : String)
  | unreadable
deriving DecidableEq, Repr

/-- A document. The fields of a record keep their order, and a key can occur more than once. -/
inductive Tree where
  | scalar (s : Scalar)
  | list (items : List Tree)
  | record (fields : List (String × Tree))
deriving Repr

namespace Tree

def null : Tree := .scalar .null
def flag (b : Bool) : Tree := .scalar (.flag b)
def natural (n : Nat) : Tree := .scalar (.natural n)
def text (s : String) : Tree := .scalar (.text s)
def texts (ss : List String) : Tree := .list (ss.map text)

/-- `null` for an absent value. -/
def ofOption (f : α → Tree) : Option α → Tree
  | none => null
  | some a => f a

/-- A field that is left out if its value is absent. -/
def optionalField (key : String) (f : α → Tree) : Option α → List (String × Tree)
  | none => []
  | some a => [(key, f a)]

mutual

/-- A tree in which lists and records that are nested deeper than `depth` are unreadable. -/
def prune : Nat → Tree → Tree
  | _, .scalar s => .scalar s
  | 0, .list _ | 0, .record _ => .scalar .unreadable
  | depth + 1, .list items => .list (pruneItems depth items)
  | depth + 1, .record fields => .record (pruneFields depth fields)

def pruneItems (depth : Nat) : List Tree → List Tree
  | [] => []
  | t :: ts => t.prune depth :: pruneItems depth ts

def pruneFields (depth : Nat) : List (String × Tree) → List (String × Tree)
  | [] => []
  | (k, t) :: ts => (k, t.prune depth) :: pruneFields depth ts

end

mutual

/-- Whether every part of a tree can be read. -/
def isReadable : Tree → Bool
  | .scalar s => s != .unreadable
  | .list items => areItemsReadable items
  | .record fields => areFieldsReadable fields

def areItemsReadable : List Tree → Bool
  | [] => true
  | t :: ts => t.isReadable && areItemsReadable ts

def areFieldsReadable : List (String × Tree) → Bool
  | [] => true
  | (_, t) :: ts => t.isReadable && areFieldsReadable ts

end

end Tree
end AppDriver
