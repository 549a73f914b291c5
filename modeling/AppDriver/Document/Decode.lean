import AppDriver.Document.Plain

/-!
Reading values out of a document tree. A record names the fields it knows; a known field that occurs
twice is refused, and an unknown one is refused where the record is closed. A record with a tag is
read whole before its tag is known, so that all of it must be readable and its unquoted scalars have
the types of their texts, whatever is expected of them.
-/

namespace AppDriver

/-- A reader of values. -/
abbrev Decoder (α : Type) := Tree → Option α

namespace Tree

/-- A text; where one is expected, any unquoted scalar is its own text. -/
def asText : Decoder String
  | .scalar (.text s) | .scalar (.plain s) => some s
  | _ => none

def asFlag : Decoder Bool
  | .scalar (.flag b) => some b
  | .scalar (.plain s) => Plain.flag? s
  | _ => none

/-- A natural number below `2 ^ bits`. -/
def asNatural (bits : Nat) : Decoder Nat
  | .scalar (.natural n) => if n < Nat.pow 2 bits then some n else none
  | .scalar (.plain s) => (Plain.natural? s).filter (· < Nat.pow 2 bits)
  | _ => none

/-- Whether a value stands for an absent one. -/
def isNull : Tree → Bool
  | .scalar .null => true
  | .scalar (.plain s) => Plain.isNull s
  | _ => false

/-- The items of a list; nothing at all is an empty list where one is expected. -/
def items? : Tree → Option (List Tree)
  | .list items => some items
  | .scalar (.plain "") => some []
  | _ => none

/-- The fields of a record; nothing at all is an empty record where one is expected. -/
def fields? : Tree → Option (List (String × Tree))
  | .record fields => some fields
  | .scalar (.plain "") => some []
  | _ => none

def asList (f : Decoder α) : Decoder (List α) := fun t => t.items?.bind fun items => items.mapM f

/-- A value or nothing. -/
def asOption (f : Decoder α) : Decoder (Option α) := fun t =>
  if t.isNull then some none else (f t).map some

/-- A table of texts, in which the last entry of a key counts. -/
def asTable (f : Decoder α) : Decoder (List (String × α)) := fun t =>
  t.fields?.bind fun fields => fields.mapM fun e => (f e.2).map (e.1, ·)

/-- One of the values that have names. -/
def asNamed (ofName? : String → Option α) : Decoder α := fun t => t.asText.bind ofName?

end Tree

/-- The fields of a record that is being read. -/
abbrev Fields := List (String × Tree)

namespace Fields

/-- Whether each of the known keys occurs at most once, and no other key if the record is closed. -/
def admissible (known : List String) (isClosed : Bool) (fs : Fields) : Bool :=
  (known.all fun k => (fs.filter (·.1 == k)).length ≤ 1) &&
    (!isClosed || fs.all fun e => known.contains e.1)

/-- The fields of a record with these keys. -/
def of? (known : List String) (isClosed : Bool) (t : Tree) : Option Fields :=
  t.fields?.filter (admissible known isClosed)

/-- A field that must be there. -/
def required (fs : Fields) (key : String) (f : Decoder α) : Option α := (fs.lookup key).bind f

/-- A field with a value for its absence. -/
def withDefault (fs : Fields) (key : String) (f : Decoder α) (default : α) : Option α :=
  match fs.lookup key with
  | none => some default
  | some t => f t

/-- A field that can be absent or null. -/
def optional (fs : Fields) (key : String) (f : Decoder α) : Option (Option α) :=
  fs.withDefault key (Tree.asOption f) none

end Fields

namespace Tree

/-- A scalar with the type of its text if it is unquoted. -/
def typedScalar : Scalar → Scalar
  | .plain s => Plain.typed s
  | s => s

mutual

/-- A tree whose unquoted scalars have the types of their texts. -/
def typed : Tree → Tree
  | .scalar s => .scalar (typedScalar s)
  | .list items => .list (typedItems items)
  | .record fields => .record (typedFields fields)

def typedItems : List Tree → List Tree
  | [] => []
  | t :: ts => t.typed :: typedItems ts

def typedFields : List (String × Tree) → List (String × Tree)
  | [] => []
  | (k, t) :: ts => (k, t.typed) :: typedFields ts

end

/-- The tag of a record and its other fields. The tag can stand anywhere, but only once. -/
def tagged? (key : String) (t : Tree) : Option (String × Fields) :=
  match t.typed with
  | .record fields =>
    if areFieldsReadable fields then
      match fields.filter (·.1 == key) with
      | [(_, tag)] => tag.asText.map (·, fields.filter (·.1 != key))
      | _ => none
    else none
  | _ => none

end Tree
end AppDriver
