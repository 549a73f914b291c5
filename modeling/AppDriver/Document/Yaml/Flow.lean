import AppDriver.Document.Tree
import AppDriver.Document.Yaml.Scalar

/-!
Collections in brackets. They can spread over lines; an entry without a value has the empty one.
-/

namespace AppDriver.Yaml

/-- What stands where nothing is written. -/
def empty : Tree := .scalar (.plain "")

/-- The scalar that starts here, as a tree and as a text. -/
def flowScalar (c : Cursor) : Option (Tree × String × Cursor) :=
  match quoted? c with
  | some none => none
  | some (some (cs, after)) =>
    let s := String.ofList cs
    some (.text s, s, after)
  | none =>
    if startsPlain true c.line then
      (plain (c.measure + 1) true 0 c).map fun (cs, after) =>
        let s := String.ofList cs
        (.scalar (.plain s), s, after)
    else none

/-- The position after a colon that follows on the same line as the key before it. -/
def afterColon? (before after : Cursor) : Option Cursor :=
  let here := after.skipWhile isBlank
  if before.below.length = after.below.length && here.line.head? == some ':' then
    some (here.skip 1)
  else none

/-- The position of what comes next inside brackets; a document does not end there. -/
def nextInFlow? (c : Cursor) : Option Cursor :=
  (c.next? true).bind fun (c, _) => if c.isEnd || c.isMarker then none else some c

mutual

/-- The node that starts here. -/
def flowNode : Nat → Cursor → Option (Tree × Cursor)
  | 0, _ => none
  | fuel + 1, c =>
    match c.line.head? with
    | some '[' => (flowItems fuel [] (c.skip 1)).map fun (items, c) => (.list items, c)
    | some '{' => (flowFields fuel [] (c.skip 1)).map fun (fields, c) => (.record fields, c)
    | _ => (flowScalar c).map fun (t, _, c) => (t, c)

/-- The value after a colon: the empty one before a comma or a bracket. -/
def flowValue : Nat → Cursor → Option (Tree × Cursor)
  | 0, _ => none
  | fuel + 1, c =>
    (nextInFlow? c).bind fun c =>
      if c.line.head?.any fun ch => ch == ',' || ch == ']' || ch == '}' then some (empty, c)
      else flowNode fuel c

/-- The rest of a list, whose items so far are given in reverse. An item with a colon is a record of
one field. -/
def flowItems : Nat → List Tree → Cursor → Option (List Tree × Cursor)
  | 0, _, _ => none
  | fuel + 1, items, c =>
    (nextInFlow? c).bind fun c =>
      if c.line.head? == some ']' then some (items.reverse, c.skip 1)
      else
        let pair : Option (String × Cursor) := (flowScalar c).bind fun (_, key, after) =>
          (afterColon? c after).map fun c => (key, c)
        let item : Option (Tree × Cursor) := match pair with
          | some (key, after) =>
            (flowValue fuel after).map fun (t, c) => (Tree.record [(key, t)], c)
          | none => flowNode fuel c
        item.bind fun (t, c) =>
          (nextInFlow? c).bind fun c =>
            match c.line.head? with
            | some ',' => flowItems fuel (t :: items) (c.skip 1)
            | some ']' => some ((t :: items).reverse, c.skip 1)
            | _ => none

/-- The rest of a record, whose fields so far are given in reverse. -/
def flowFields : Nat → List (String × Tree) → Cursor → Option (List (String × Tree) × Cursor)
  | 0, _, _ => none
  | fuel + 1, fields, c =>
    (nextInFlow? c).bind fun c =>
      if c.line.head? == some '}' then some (fields.reverse, c.skip 1)
      else (flowScalar c).bind fun (_, key, after) =>
        let value : Option (Tree × Cursor) := match afterColon? c after with
          | some c => flowValue fuel c
          | none => some (empty, after)
        value.bind fun (t, c) =>
          (nextInFlow? c).bind fun c =>
            match c.line.head? with
            | some ',' => flowFields fuel ((key, t) :: fields) (c.skip 1)
            | some '}' => some (((key, t) :: fields).reverse, c.skip 1)
            | _ => none

end

end AppDriver.Yaml
