import AppDriver.Document.Yaml.Cursor

/-!
Scalars of YAML: quoted ones with their escapes, and plain ones, which end before a colon, a comment
or, inside brackets, a bracket or a comma. A scalar over several lines is folded: one line break is
a blank, and of more breaks one is dropped.
-/

namespace AppDriver.Yaml

/-- What stands between two parts of a folded scalar, for a number of line breaks. -/
def fold (breaks : Nat) : List Char :=
  if breaks ≤ 1 then [' '] else List.replicate (breaks - 1) '\n'

def dropTrailingBlanks (cs : List Char) : List Char := (cs.reverse.dropWhile isBlank).reverse

/-- The next line of a folded scalar with something on it, and the number of breaks before it. -/
def nextLine (breaks : Nat) : List (List Char) → Option (Cursor × Nat)
  | [] => none
  | line :: below =>
    let c : Cursor := ⟨0, line, below⟩
    let c := if c.isMarker then c else c.skipWhile isBlank
    if c.line.isEmpty then nextLine (breaks + 1) below else some (c, breaks + 1)

/-! Quoted scalars. -/

/-- The code of an escape's digits. -/
def hexValue (cs : List Char) : Option Nat :=
  cs.foldlM (fun n c =>
    if c.isDigit then some (16 * n + (c.toNat - 48))
    else if 'a' ≤ c && c ≤ 'f' then some (16 * n + (c.toNat - 87))
    else if 'A' ≤ c && c ≤ 'F' then some (16 * n + (c.toNat - 55))
    else none) 0

/-- The character of an escape with `n` digits. -/
def coded (n : Nat) (cs : List Char) : Option (Char × List Char) :=
  if cs.length < n then none
  else (hexValue (cs.take n)).bind fun code =>
    if code.isValidChar then some (Char.ofNat code, cs.drop n) else none

/-- The character that an escape stands for, and what follows the escape. -/
def escape : List Char → Option (Char × List Char)
  | 'x' :: cs => coded 2 cs
  | 'u' :: cs => coded 4 cs
  | 'U' :: cs => coded 8 cs
  | c :: cs =>
    let table := [('0', '\x00'), ('a', '\x07'), ('b', '\x08'), ('t', '\t'), ('\t', '\t'),
      ('n', '\n'), ('v', '\x0b'), ('f', '\x0c'), ('r', '\r'), ('e', '\x1b'), (' ', ' '),
      ('"', '"'), ('/', '/'), ('\\', '\\'), ('N', '\u0085'), ('_', '\u00a0'), ('L', '\u2028'),
      ('P', '\u2029')]
    (table.lookup c).map (·, cs)
  | [] => none

/-- Reads on inside double quotes; `text` is what is read, in reverse. -/
def doubleQuoted : Nat → Cursor → List Char → Option (List Char × Cursor)
  | 0, _, _ => none
  | fuel + 1, c, text =>
    match c.line with
    | '"' :: _ => some (text.reverse, c.skip 1)
    | ['\\'] =>
      (nextLine 0 c.below).bind fun (next, breaks) =>
        if next.isMarker then none
        else doubleQuoted fuel next (List.replicate (breaks - 1) '\n' ++ text)
    | '\\' :: cs =>
      (escape cs).bind fun (ch, rest) =>
        doubleQuoted fuel (c.skip (c.line.length - rest.length)) (ch :: text)
    | ch :: _ =>
      if c.line.all isBlank then continueBelow fuel c text
      else doubleQuoted fuel (c.skip 1) (ch :: text)
    | [] => continueBelow fuel c text
where
  /-- Goes on at the next line. -/
  continueBelow (fuel : Nat) (c : Cursor) (text : List Char) : Option (List Char × Cursor) :=
    match nextLine 0 c.below with
    | none => none
    | some (next, breaks) =>
      if next.isMarker then none else doubleQuoted fuel next ((fold breaks).reverse ++ text)

/-- Reads on inside single quotes, where only the quote is escaped, by writing it twice. -/
def singleQuoted : Nat → Cursor → List Char → Option (List Char × Cursor)
  | 0, _, _ => none
  | fuel + 1, c, text =>
    match c.line with
    | '\'' :: '\'' :: _ => singleQuoted fuel (c.skip 2) ('\'' :: text)
    | '\'' :: _ => some (text.reverse, c.skip 1)
    | ch :: _ =>
      if c.line.all isBlank then continueBelow fuel c text
      else singleQuoted fuel (c.skip 1) (ch :: text)
    | [] => continueBelow fuel c text
where
  /-- Goes on at the next line. -/
  continueBelow (fuel : Nat) (c : Cursor) (text : List Char) : Option (List Char × Cursor) :=
    match nextLine 0 c.below with
    | none => none
    | some (next, breaks) =>
      if next.isMarker then none else singleQuoted fuel next ((fold breaks).reverse ++ text)

/-- The scalar in quotes that starts here, if one does. -/
def quoted? (c : Cursor) : Option (Option (List Char × Cursor)) :=
  match c.line with
  | '"' :: _ => some (doubleQuoted (c.measure + 1) (c.skip 1) [])
  | '\'' :: _ => some (singleQuoted (c.measure + 1) (c.skip 1) [])
  | _ => none

/-! Plain scalars. -/

def isFlowIndicator (c : Char) : Bool :=
  c == ',' || c == '[' || c == ']' || c == '{' || c == '}'

/-- The characters that start something other than a plain scalar. -/
def isIndicator (c : Char) : Bool :=
  isFlowIndicator c || ['#', '&', '*', '!', '|', '>', '\'', '"', '%', '@', '\x60'].contains c

/-- Whether a plain scalar starts here. -/
def startsPlain (inFlow : Bool) (line : List Char) : Bool :=
  let followed := fun (rest : List Char) => rest.head?.any (!isBlank ·)
  match line with
  | [] => false
  | '-' :: rest => followed rest
  | '?' :: rest | ':' :: rest => !inFlow && followed rest
  | c :: _ => !isIndicator c && !isBlank c

/-- Whether a colon is followed by what makes it end a scalar. -/
def endsKey (rest : List Char) : Bool := rest.isEmpty || rest.head?.any isBlank

/-- The characters of a plain scalar on one line, trailing blanks included. Inside brackets, a colon
right before a bracket or a comma is refused. -/
def plainLine (inFlow : Bool) : List Char → Option (List Char)
  | [] => some []
  | ':' :: rest =>
    if endsKey rest then some []
    else if inFlow && rest.head?.any fun c => isFlowIndicator c || c == '?' then none
    else (plainLine inFlow rest).map (':' :: ·)
  | c :: rest =>
    if inFlow && isFlowIndicator c then some []
    else if isBlank c && rest.head? == some '#' then some []
    else (plainLine inFlow rest).map (c :: ·)

/-- The plain scalar that starts here, over as many lines as belong to it: those that are indented
to `least` at the least, unless inside brackets. -/
def plain : Nat → Bool → Nat → Cursor → Option (List Char × Cursor)
  | 0, _, _, _ => none
  | fuel + 1, inFlow, least, c =>
    (plainLine inFlow c.line).bind fun cs =>
      let text := dropTrailingBlanks cs
      let after := c.skip text.length
      if !(after.skipWhile isBlank).line.isEmpty then some (text, after)
      else match nextLine 0 c.below with
        | none => some (text, after)
        | some (next, breaks) =>
          let indentedWithTab := !inFlow &&
            (c.below.drop (breaks - 1)).head?.any fun line => (line.take least).contains '\t' &&
              decide ((line.takeWhile (· == ' ')).length < least)
          if next.isMarker || next.line.head? == some '#' then some (text, after)
          else if indentedWithTab then none
          else if !inFlow && decide (next.column < least) then some (text, after)
          else if inFlow && next.line.head?.any isFlowIndicator then some (text, after)
          else if next.line.head? == some ':' && endsKey (next.line.drop 1) then some (text, after)
          else (plain fuel inFlow least next).map fun (more, last) =>
            (text ++ fold breaks ++ more, last)

end AppDriver.Yaml
