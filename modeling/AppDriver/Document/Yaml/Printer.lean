import AppDriver.Document.Plain

/-!
Writing YAML in block style: two blanks per level, a list at the indentation of its key, brackets
only for what is empty. A text is written plain where it reads back as itself, else in single
quotes, else in double quotes; a text with line breaks is a literal block where that can hold it.
-/

namespace AppDriver.Yaml

/-- How a text is written. -/
inductive Style where
  | plain | single | double | literal
deriving DecidableEq, Repr

/-- The characters that are written as they are. -/
def isPrintable (c : Char) : Bool :=
  let n := c.toNat
  n == 0x0A || (0x20 ≤ n && n ≤ 0x7E) || (0xA0 ≤ n && n ≤ 0xFFFD && n != 0xFEFF)

def isLineBreak (c : Char) : Bool :=
  c == '\n' || c == '\r' || c.toNat == 0x85 || c.toNat == 0x2028 || c.toNat == 0x2029

/-- Whether a blank or a break, or nothing, comes next. -/
def blankNext (cs : List Char) : Bool :=
  match cs with
  | [] => true
  | c :: _ => c == ' ' || c == '\t' || isLineBreak c

/-- Whether the characters after the first one hold a mark that ends a plain text: a colon before a
blank, or a comment. -/
def hasInnerMark (afterBlank : Bool) : List Char → Bool
  | [] => false
  | c :: cs =>
    (c == ':' && blankNext cs) || (c == '#' && afterBlank) ||
      hasInnerMark (c == ' ' || c == '\t' || isLineBreak c) cs

/-- Whether a text starts with or holds something that is punctuation where a text is plain. -/
def hasMark (cs : List Char) : Bool :=
  match cs with
  | [] => false
  | '-' :: '-' :: '-' :: _ | '.' :: '.' :: '.' :: _ => true
  | c :: rest =>
    ['#', ',', '[', ']', '{', '}', '&', '*', '!', '|', '>', '\'', '"', '%', '@', '\x60'].contains c ||
      ((c == '?' || c == ':' || c == '-') && blankNext rest) ||
      hasInnerMark (c == ' ' || c == '\t' || isLineBreak c) rest

/-- Whether one character of a class comes right before one of another. -/
def hasPair (p q : Char → Bool) : List Char → Bool
  | a :: b :: cs => (p a && q b) || hasPair p q (b :: cs)
  | _ => false

def endsWith (p : Char → Bool) (cs : List Char) : Bool := cs.getLast?.any p

/-- How a text is written, as a key or elsewhere. -/
def styleOf (isKey : Bool) (s : String) : Style :=
  let cs := s.toList
  let isSpace := fun c : Char => c == ' '
  let isEdge := fun c : Char => isSpace c || isLineBreak c
  let spaceBeforeBreak := hasPair isSpace isLineBreak cs
  let breakBeforeSpace := hasPair isLineBreak isSpace cs
  let onlyDouble := spaceBeforeBreak || !cs.all isPrintable
  let multiline := cs.any isLineBreak
  let wanted :=
    if cs.contains '\n' then Style.literal
    else if Plain.isTyped s || Plain.isZeroPadded s then .single
    else if cs.head?.any isEdge || endsWith isEdge cs || multiline || hasMark cs then .single
    else .plain
  match wanted with
  | .literal =>
    if isKey || onlyDouble || endsWith isSpace cs then .double else .literal
  | style =>
    if onlyDouble || breakBeforeSpace || (isKey && multiline) then .double else style

/-- Upper-case hexadecimal digits, `n` of them. -/
def hexDigits (n value : Nat) : List Char :=
  (List.range n).reverse.map fun i =>
    let d := value / Nat.pow 16 i % 16
    if d < 10 then Char.ofNat (48 + d) else Char.ofNat (55 + d)

/-- A character inside double quotes. -/
def escapeDouble (c : Char) : List Char :=
  let named := [('\x00', '0'), ('\x07', 'a'), ('\x08', 'b'), ('\t', 't'), ('\n', 'n'),
    ('\x0b', 'v'), ('\x0c', 'f'), ('\r', 'r'), ('\x1b', 'e'), ('"', '"'), ('\\', '\\'),
    ('\u0085', 'N'), ('\u2028', 'L'), ('\u2029', 'P')]
  match named.lookup c with
  | some letter => ['\\', letter]
  | none =>
    if isPrintable c then [c]
    else if c.toNat ≤ 0xFF then '\\' :: 'x' :: hexDigits 2 c.toNat
    else if c.toNat ≤ 0xFFFF then '\\' :: 'u' :: hexDigits 4 c.toNat
    else '\\' :: 'U' :: hexDigits 8 c.toNat

/-- A character inside single quotes: the quote is written twice. -/
def escapeSingle (c : Char) : List Char :=
  if c == '\'' then ['\'', '\''] else [c]

/-- The lines of a text between its line feeds. -/
def textLines : List Char → List (List Char)
  | [] => [[]]
  | '\n' :: cs => [] :: textLines cs
  | c :: cs =>
    match textLines cs with
    | [] => [[c]]
    | line :: lines => (c :: line) :: lines

/-- How the end of a literal block is marked: without a break, with one, or with all of them. -/
def chomping (cs : List Char) : String :=
  match cs.reverse with
  | '\n' :: '\n' :: _ => "+"
  | ['\n'] => "+"
  | '\n' :: _ => ""
  | _ => "-"

/-- A line one level deeper. -/
def indent (line : String) : String := if line.isEmpty then line else "  " ++ line

/-- The lines of a literal block. -/
def literal (s : String) : List String :=
  let cs := s.toList
  let hint := if cs.head?.any fun c => c == ' ' || isLineBreak c then "2" else ""
  let body := if endsWith (· == '\n') cs then (textLines cs).dropLast else textLines cs
  ("|" ++ hint ++ chomping cs) :: body.map fun line => indent (String.ofList line)

/-- The lines of a text. -/
def text (isKey : Bool) (s : String) : List String :=
  match styleOf isKey s with
  | .plain => [s]
  | .single => ["'" ++ String.ofList (s.toList.flatMap escapeSingle) ++ "'"]
  | .double => ["\"" ++ String.ofList (s.toList.flatMap escapeDouble) ++ "\""]
  | .literal => literal s

/-- The lines of a scalar. A text that was read unquoted is a text; no document of the project holds
a number without a natural value, or what is unreadable. -/
def scalar : Scalar → List String
  | .null => ["null"]
  | .flag true => ["true"]
  | .flag false => ["false"]
  | .natural n => [toString n]
  | .number | .unreadable => ["null"]
  | .text s | .plain s => text false s

/-- Lines with a text in front of the first one. -/
def after (before : String) : List String → List String
  | [] => [before]
  | line :: lines => (before ++ line) :: lines

/-- The lines of an entry of a list: those after the first are one level deeper. -/
def dashed : List String → List String
  | [] => ["-"]
  | line :: lines => ("- " ++ line) :: lines.map indent

/-- A key with its colon. -/
def key (k : String) : String := String.join (text true k) ++ ":"

mutual

/-- The lines of a list. -/
def items : List Tree → List String
  | [] => []
  | .scalar s :: ts => after "- " (scalar s) ++ items ts
  | .list [] :: ts => "- []" :: items ts
  | .record [] :: ts => "- \x7b\x7d" :: items ts
  | .list (x :: xs) :: ts => dashed (items (x :: xs)) ++ items ts
  | .record (f :: fs) :: ts => dashed (fields (f :: fs)) ++ items ts

/-- The lines of a record. A list that is the value of a key stands at the indentation of the key,
a record one level deeper. -/
def fields : List (String × Tree) → List String
  | [] => []
  | (k, .scalar s) :: ts => after (key k ++ " ") (scalar s) ++ fields ts
  | (k, .list []) :: ts => (key k ++ " []") :: fields ts
  | (k, .record []) :: ts => (key k ++ " \x7b\x7d") :: fields ts
  | (k, .list (x :: xs)) :: ts => key k :: items (x :: xs) ++ fields ts
  | (k, .record (f :: fs)) :: ts => key k :: (fields (f :: fs)).map indent ++ fields ts

end

/-- The lines of a document. -/
def documentLines : Tree → List String
  | .scalar s => scalar s
  | .list [] => ["[]"]
  | .record [] => ["\x7b\x7d"]
  | .list (x :: xs) => items (x :: xs)
  | .record (f :: fs) => fields (f :: fs)

/-- A tree as YAML text, which ends with a line break. -/
def render (t : Tree) : String := String.join ((documentLines t).map (· ++ "\n"))

end AppDriver.Yaml
