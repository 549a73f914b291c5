import AppDriver.Document.Tree

/-!
Writing JSON, in one line without blanks or with one entry per line. Fields keep their order; a text
is escaped only where it has to be.
-/

namespace AppDriver.Json

def hexDigit (n : Nat) : Char := if n < 10 then Char.ofNat (48 + n) else Char.ofNat (87 + n)

/-- A character inside a quoted text: the quote, the backslash and control characters are escaped,
all others stand for themselves. -/
def escape (c : Char) : List Char :=
  match c with
  | '"' => ['\\', '"']
  | '\\' => ['\\', '\\']
  | '\x08' => ['\\', 'b']
  | '\x0c' => ['\\', 'f']
  | '\n' => ['\\', 'n']
  | '\r' => ['\\', 'r']
  | '\t' => ['\\', 't']
  | c =>
    if c.toNat < 0x20 then
      ['\\', 'u', '0', '0', hexDigit (c.toNat / 16), hexDigit (c.toNat % 16)]
    else [c]

def quote (s : String) : String :=
  "\"" ++ String.ofList (s.toList.flatMap escape) ++ "\""

/-- A scalar. A text that YAML left unquoted is a text; no document of the project holds a number
without a natural value, or what is unreadable. -/
def scalar : Scalar → String
  | .null => "null"
  | .flag true => "true"
  | .flag false => "false"
  | .natural n => toString n
  | .number | .unreadable => "null"
  | .text s | .plain s => quote s

mutual

/-- A tree in one line. -/
def compact : Tree → String
  | .scalar s => scalar s
  | .list items => "[" ++ ",".intercalate (compactItems items) ++ "]"
  | .record fields => "\x7b" ++ ",".intercalate (compactFields fields) ++ "\x7d"

def compactItems : List Tree → List String
  | [] => []
  | t :: ts => compact t :: compactItems ts

def compactFields : List (String × Tree) → List String
  | [] => []
  | (k, t) :: ts => (quote k ++ ":" ++ compact t) :: compactFields ts

end

/-- Two blanks per level. -/
def indentation (level : Nat) : String := String.join (List.replicate level "  ")

/-- Entries between brackets, one per line and one level deeper; brackets alone if there are none. -/
def enclose (level : Nat) (before after : String) (entries : List String) : String :=
  if entries.isEmpty then before ++ after
  else before ++ "\n" ++
    ",\n".intercalate (entries.map (indentation (level + 1) ++ ·)) ++ "\n" ++
    indentation level ++ after

mutual

/-- A tree with one entry per line, at some level of indentation. -/
def prettyAt (level : Nat) : Tree → String
  | .scalar s => scalar s
  | .list items => enclose level "[" "]" (prettyItems (level + 1) items)
  | .record fields => enclose level "\x7b" "\x7d" (prettyFields (level + 1) fields)

def prettyItems (level : Nat) : List Tree → List String
  | [] => []
  | t :: ts => prettyAt level t :: prettyItems level ts

def prettyFields (level : Nat) : List (String × Tree) → List String
  | [] => []
  | (k, t) :: ts => (quote k ++ ": " ++ prettyAt level t) :: prettyFields level ts

end

def pretty (t : Tree) : String := prettyAt 0 t

end AppDriver.Json
