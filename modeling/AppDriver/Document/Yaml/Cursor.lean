/-!
Positions in a YAML text: the rest of a line with its column, and the lines below. A line ends at
any of the line breaks of YAML, and a comment reaches to the end of its line.
-/

namespace AppDriver.Yaml

/-- The characters that a YAML text can hold. -/
def isAllowed (c : Char) : Bool :=
  let n := c.toNat
  n == 0x09 || n == 0x0A || n == 0x0D || (0x20 ≤ n && n ≤ 0x7E) || n == 0x85 ||
    (0xA0 ≤ n && n ≤ 0xFFFD) || 0x10000 ≤ n

def isBreak (c : Char) : Bool :=
  c == '\n' || c == '\r' || c.toNat == 0x85 || c.toNat == 0x2028 || c.toNat == 0x2029

def isBlank (c : Char) : Bool := c == ' ' || c == '\t'

/-- Puts a character in front of the first line. -/
def consLine (c : Char) : List (List Char) → List (List Char)
  | [] => [[c]]
  | line :: lines => (c :: line) :: lines

/-- The lines of a text. A carriage return and a line feed after it are one break. -/
def lines : List Char → List (List Char)
  | [] => [[]]
  | '\r' :: '\n' :: cs => [] :: lines cs
  | c :: cs => if isBreak c then [] :: lines cs else consLine c (lines cs)

/-- A position in a text. -/
structure Cursor where
  column : Nat
  line : List Char
  below : List (List Char)
deriving Repr

namespace Cursor

def start (text : List Char) : Cursor :=
  match lines text with
  | [] => ⟨0, [], []⟩
  | line :: below => ⟨0, line, below⟩

/-- The position `n` characters further on the line. -/
def skip (c : Cursor) (n : Nat) : Cursor :=
  { c with column := c.column + n, line := c.line.drop n }

def isEnd (c : Cursor) : Bool := c.line.isEmpty && c.below.isEmpty

/-- More than the number of steps that reading from here on can take. -/
def measure (c : Cursor) : Nat :=
  c.line.length + c.below.flatten.length + c.below.length + 2

/-- The position after the blanks of a class on the line. -/
def skipWhile (p : Char → Bool) (c : Cursor) : Cursor := c.skip (c.line.takeWhile p).length

/-- Whether nothing but a comment is left on the line. -/
def restIsBlank (c : Cursor) : Bool :=
  match (c.skipWhile isBlank).line with
  | [] => true
  | ch :: _ => ch == '#'

/-- Whether the line is the marker of a document's start or end. -/
def isMarker (c : Cursor) : Bool :=
  c.column == 0 &&
    match c.line with
    | '-' :: '-' :: '-' :: rest | '.' :: '.' :: '.' :: rest =>
      rest.isEmpty || rest.head?.any isBlank
    | _ => false

/-- Whether an entry of a block sequence starts here. -/
def isDash (c : Cursor) : Bool :=
  match c.line with
  | '-' :: rest => rest.isEmpty || rest.head?.any isBlank
  | _ => false

/-- The next position below at which something stands, or the end. Only spaces indent, unless inside
brackets. -/
def descend (inFlow : Bool) : List (List Char) → Option Cursor
  | [] => some ⟨0, [], []⟩
  | line :: below =>
    let c : Cursor := ⟨0, line, below⟩
    let c := c.skipWhile fun ch => ch == ' ' || (inFlow && ch == '\t')
    match c.line with
    | [] => descend inFlow below
    | '#' :: _ => descend inFlow below
    | '\t' :: _ => none
    | _ => some c

/-- The next position at which something stands, and whether it is on a line below. -/
def next? (inFlow : Bool) (c : Cursor) : Option (Cursor × Bool) :=
  let here := c.skipWhile isBlank
  match here.line with
  | [] | '#' :: _ => (descend inFlow c.below).map (·, true)
  | _ => some (here, false)

end Cursor
end AppDriver.Yaml
