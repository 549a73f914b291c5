import AppDriver.Document.Yaml.Flow

/-!
Reading YAML: block mappings and sequences by indentation, collections in brackets, plain and quoted
scalars, comments, and one document with an optional marker in front. Anchors, tags, block scalars,
directives and keys that are collections are refused.
-/

namespace AppDriver.Yaml

/-- Where a block node stands. Its lines are indented to `least` at the least, a block sequence to
`leastDash`; a block collection can start on the line where the node is expected if `compact`. -/
structure Place where
  least : Nat
  leastDash : Nat
  compact : Bool

/-- The scalar or the collection in brackets that starts here, alone on the rest of its line. -/
def inlineNode (least : Nat) (c : Cursor) : Option (Tree × Cursor) :=
  let node := match c.line.head? with
    | some '[' | some '{' => flowNode (c.measure + 1) c
    | _ =>
      match quoted? c with
      | some q => q.map fun (cs, after) => (.text (String.ofList cs), after)
      | none =>
        if startsPlain false c.line then
          (plain (c.measure + 1) false least c).map fun (cs, after) =>
            (.scalar (.plain (String.ofList cs)), after)
        else none
  node.filter fun (_, after) => after.restIsBlank

/-- The key that starts here and the position after its colon, if the line starts with a key. -/
def key? (c : Cursor) : Option (String × Cursor) :=
  let scalar := match quoted? c with
    | some q => q
    | none =>
      if startsPlain false c.line then
        (plainLine false c.line).map fun cs =>
          let text := dropTrailingBlanks cs
          (text, c.skip text.length)
      else none
  scalar.bind fun (cs, after) =>
    (afterColon? c after).bind fun c =>
      if endsKey c.line then some (String.ofList cs, c) else none

mutual

/-- The node that is expected at a place. -/
def node : Nat → Place → Cursor → Option (Tree × Cursor)
  | 0, _, _ => none
  | fuel + 1, place, c =>
    (c.next? false).bind fun (next, moved) =>
      if next.isEnd || (moved && next.isMarker) then some (empty, next)
      else if moved && decide (next.column < place.least) then
        if next.isDash && decide (place.leastDash ≤ next.column) then
          (sequence fuel next.column [] next).map fun (items, c) => (.list items, c)
        else some (empty, next)
      else if moved || place.compact then
        if next.isDash then
          (sequence fuel next.column [] next).map fun (items, c) => (.list items, c)
        else match key? next with
          | some _ => (mapping fuel next.column [] next).map fun (fields, c) => (.record fields, c)
          | none => inlineNode place.least next
      else inlineNode place.least next

/-- The rest of a block sequence in a column, from an entry on; the entries so far are given in
reverse. -/
def sequence : Nat → Nat → List Tree → Cursor → Option (List Tree × Cursor)
  | 0, _, _, _ => none
  | fuel + 1, column, items, c =>
    let entry := c.skip 1
    if (entry.skipWhile (· == ' ')).line.head? == some '\t' then none
    else (node fuel ⟨column + 1, column + 1, true⟩ entry).bind fun (t, c) =>
      (c.next? false).bind fun (next, _) =>
        if next.isEnd || next.isMarker || decide (next.column < column) then
          some ((t :: items).reverse, next)
        else if column < next.column then none
        else if next.isDash then sequence fuel column (t :: items) next
        else some ((t :: items).reverse, next)

/-- The rest of a block mapping in a column, from a key on; the fields so far are given in
reverse. -/
def mapping : Nat → Nat → List (String × Tree) → Cursor →
    Option (List (String × Tree) × Cursor)
  | 0, _, _, _ => none
  | fuel + 1, column, fields, c =>
    (key? c).bind fun (key, after) =>
      (node fuel ⟨column + 1, column, false⟩ after).bind fun (t, c) =>
        (c.next? false).bind fun (next, _) =>
          if next.isEnd || next.isMarker || decide (next.column < column) then
            some (((key, t) :: fields).reverse, next)
          else if column < next.column then none
          else if next.isDash then none
          else mapping fuel column ((key, t) :: fields) next

end

/-- Whether nothing but the marker of the document's end and comments follow. -/
def isFinished (c : Cursor) : Bool :=
  match c.next? false with
  | none => false
  | some (c, _) =>
    c.isEnd || (c.isMarker && c.line.head? == some '.' && (c.skip 3).restIsBlank &&
      (Cursor.descend false c.below).any (·.isEnd))

/-- The document from a position on. -/
def document (c : Cursor) : Option Tree :=
  (c.next? false).bind fun (first, _) =>
    let opened := first.isMarker && first.line.head? == some '-'
    let root := if opened then node (c.measure + 1) ⟨0, 0, false⟩ (first.skip 3)
      else node (c.measure + 1) ⟨0, 0, true⟩ first
    root.bind fun (t, c) => if isFinished c then some t else none

/-- How deep a document can nest where it is read. -/
def maxDepth : Nat := 128

/-- The tree of a YAML text. -/
def parse? (s : String) : Option Tree :=
  let cs := match s.toList with
    | '\ufeff' :: cs => cs
    | cs => cs
  if cs.all isAllowed then (document (Cursor.start cs)).map (·.prune maxDepth) else none

end AppDriver.Yaml
