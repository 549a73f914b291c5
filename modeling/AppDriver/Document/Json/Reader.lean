import AppDriver.Document.Decimal
import AppDriver.Document.Tree

/-!
Reading JSON. Two machines do it: the first reads one character at a time and gives tokens, the
second reads one token at a time and builds the tree. Both stop at the first character or token that
cannot continue a document. What is well-formed but has no value is unreadable and can be skipped.
-/

namespace AppDriver.Json

/-- A token. A string with half a surrogate pair has no text. -/
inductive Token where
  | openBrace | closeBrace | openBracket | closeBracket | colon | comma
  | string (s : Option String)
  | scalar (s : Scalar)
deriving Repr

/-! Numbers. -/

/-- The characters that can occur in a number. -/
def isNumberChar (c : Char) : Bool :=
  c.isDigit || c == '-' || c == '+' || c == '.' || c == 'e' || c == 'E'

/-- A number: its sign, its parts, and whether it is nothing but digits. -/
structure Numeral where
  negative : Bool
  decimal : Decimal
  isWhole : Bool
deriving Repr

/-- The parts of a number, if it is one: no superfluous zero in front, and digits in every part. -/
def numeral? (text : List Char) : Option Numeral :=
  let negative := text.head? == some '-'
  let unsigned := if negative then text.drop 1 else text
  let whole := unsigned.takeWhile Char.isDigit
  let rest := unsigned.dropWhile Char.isDigit
  let hasFraction := rest.head? == some '.'
  let fraction := if hasFraction then (rest.drop 1).takeWhile Char.isDigit else []
  let rest := if hasFraction then (rest.drop 1).dropWhile Char.isDigit else rest
  let hasPower := rest.head? == some 'e' || rest.head? == some 'E'
  let power := if hasPower then powerSign (rest.drop 1) else (false, [])
  let valid := !whole.isEmpty && (whole.length == 1 || whole.head? != some '0') &&
    (!hasFraction || !fraction.isEmpty) &&
    if hasPower then !power.2.isEmpty && power.2.all Char.isDigit else rest.isEmpty
  if valid then some ⟨negative, ⟨whole, fraction, power.1, power.2⟩, !hasFraction && !hasPower⟩
  else none

/-- The scalar that a number stands for. -/
def Numeral.scalar (n : Numeral) : Scalar :=
  let value := digitsValue n.decimal.whole
  if !n.negative && n.isWhole && value < Nat.pow 2 64 then .natural value
  else if n.decimal.isFinite then .number
  else .unreadable

/-! From characters to tokens. -/

/-- The text of a string as far as it is read, in reverse; none if it has half a surrogate pair. -/
abbrev Partial := Option (List Char)

/-- Where the reader of characters stands: between tokens, inside a string, after a backslash, in
the digits of an escape (with the first half of a surrogate pair if that is read), between the
halves of a surrogate pair, or in a number or a word. -/
inductive Reading where
  | between
  | string (text : Partial)
  | escape (text : Partial)
  | hex (text : Partial) (high : Option Nat) (digits : Nat) (value : Nat)
  | highRead (text : Partial) (high : Nat)
  | highEscape (text : Partial) (high : Nat)
  | number (text : List Char)
  | word (text : List Char)
deriving Repr

/-- The character that a one-letter escape stands for. -/
def escaped? : Char → Option Char
  | '"' => some '"'
  | '\\' => some '\\'
  | '/' => some '/'
  | 'b' => some '\x08'
  | 'f' => some '\x0c'
  | 'n' => some '\n'
  | 'r' => some '\r'
  | 't' => some '\t'
  | _ => none

def hexDigit? (c : Char) : Option Nat :=
  if c.isDigit then some (c.toNat - 48)
  else if 'a' ≤ c && c ≤ 'f' then some (c.toNat - 87)
  else if 'A' ≤ c && c ≤ 'F' then some (c.toNat - 55)
  else none

/-- After the four digits of an escape. The halves of a surrogate pair come in order, and neither
comes alone. -/
def afterHex (text : Partial) (high : Option Nat) (value : Nat) : Reading :=
  let isHigh := 0xD800 ≤ value && value ≤ 0xDBFF
  let isLow := 0xDC00 ≤ value && value ≤ 0xDFFF
  match high with
  | none =>
    if isHigh then .highRead text value
    else if isLow then .string none
    else .string (text.map (Char.ofNat value :: ·))
  | some h =>
    if isLow then
      .string (text.map (Char.ofNat (0x10000 + (h - 0xD800) * 0x400 + (value - 0xDC00)) :: ·))
    else .string none

/-- The token that a number or a word ends as. -/
def Reading.flush? : Reading → Option (List Token)
  | .between => some []
  | .number text => (numeral? text.reverse).map fun n => [.scalar n.scalar]
  | .word text =>
    match String.ofList text.reverse with
    | "null" => some [.scalar .null]
    | "true" => some [.scalar (.flag true)]
    | "false" => some [.scalar (.flag false)]
    | _ => none
  | _ => none

/-- What a character between tokens starts or is. -/
def start? (c : Char) : Option (Reading × List Token) :=
  match c with
  | ' ' | '\n' | '\r' | '\t' => some (.between, [])
  | '{' => some (.between, [.openBrace])
  | '}' => some (.between, [.closeBrace])
  | '[' => some (.between, [.openBracket])
  | ']' => some (.between, [.closeBracket])
  | ':' => some (.between, [.colon])
  | ',' => some (.between, [.comma])
  | '"' => some (.string (some []), [])
  | c =>
    if c.isDigit || c == '-' then some (.number [c], [])
    else if c.isAlpha then some (.word [c], [])
    else none

/-- Ends a number or a word before a character. -/
def flushBefore? (r : Reading) (c : Char) : Option (Reading × List Token) :=
  match r.flush?, start? c with
  | some before, some (next, tokens) => some (next, before ++ tokens)
  | _, _ => none

/-- Reads one character of a string. -/
def inString? (text : Partial) (c : Char) : Option (Reading × List Token) :=
  if c == '"' then some (.between, [.string (text.map fun cs => String.ofList cs.reverse)])
  else if c == '\\' then some (.escape text, [])
  else if c.toNat < 0x20 then none
  else some (.string (text.map (c :: ·)), [])

/-- Reads the character after a backslash. -/
def inEscape? (text : Partial) (high : Option Nat) (c : Char) : Option (Reading × List Token) :=
  if c == 'u' then some (.hex text high 4 0, [])
  else (escaped? c).map fun e =>
    (.string (if high.isSome then none else text.map (e :: ·)), [])

/-- Reads one character. -/
def Reading.step? (r : Reading) (c : Char) : Option (Reading × List Token) :=
  match r with
  | .between => start? c
  | .number text => if isNumberChar c then some (.number (c :: text), []) else flushBefore? r c
  | .word text => if c.isAlpha then some (.word (c :: text), []) else flushBefore? r c
  | .string text => inString? text c
  | .escape text => inEscape? text none c
  | .hex text high digits value =>
    (hexDigit? c).map fun d =>
      (if digits = 1 then afterHex text high (16 * value + d)
        else .hex text high (digits - 1) (16 * value + d), [])
  | .highRead text high => if c == '\\' then some (.highEscape text high, []) else inString? none c
  | .highEscape text high => inEscape? text (some high) c

/-! From tokens to a tree. -/

/-- An open list or record with what is read of it, latest first, and the key of the field whose
value is read. A record with a key that has no text is unreadable, and its fields are lost. -/
inductive Frame where
  | list (items : List Tree)
  | record (fields : Option (List (String × Tree))) (key : Option String)

/-- What must come next. -/
inductive Expected where
  | value | itemOrClose | keyOrClose | key | colon | commaOrClose | finish

structure Builder where
  expected : Expected
  frames : List Frame
  result : Option Tree

namespace Builder

def new : Builder := ⟨.value, [], none⟩

/-- Puts a complete value where one is expected. -/
def deliver (v : Tree) : List Frame → Builder
  | [] => ⟨.finish, [], some v⟩
  | .list items :: frames => ⟨.commaOrClose, .list (v :: items) :: frames, none⟩
  | .record fields key :: frames =>
    let fields := fields.bind fun fs => key.map fun k => (k, v) :: fs
    ⟨.commaOrClose, .record fields key :: frames, none⟩

/-- Starts a value. -/
def startValue (b : Builder) : Token → Option Builder
  | .openBrace => some ⟨.keyOrClose, .record (some []) none :: b.frames, none⟩
  | .openBracket => some ⟨.itemOrClose, .list [] :: b.frames, none⟩
  | .string (some s) => some (deliver (.text s) b.frames)
  | .string none => some (deliver (.scalar .unreadable) b.frames)
  | .scalar s => some (deliver (.scalar s) b.frames)
  | _ => none

/-- Closes the innermost list or record. -/
def close (b : Builder) : Token → Option Builder
  | .closeBrace =>
    match b.frames with
    | .record (some fields) _ :: frames => some (deliver (.record fields.reverse) frames)
    | .record none _ :: frames => some (deliver (.scalar .unreadable) frames)
    | _ => none
  | .closeBracket =>
    match b.frames with
    | .list items :: frames => some (deliver (.list items.reverse) frames)
    | _ => none
  | _ => none

/-- Takes the key of a field. -/
def takeKey (b : Builder) : Token → Option Builder
  | .string key =>
    match b.frames with
    | .record fields _ :: frames => some ⟨.colon, .record fields key :: frames, none⟩
    | _ => none
  | _ => none

/-- Reads one token. -/
def step (b : Builder) (t : Token) : Option Builder :=
  match b.expected with
  | .value => b.startValue t
  | .itemOrClose => (b.close t).or (b.startValue t)
  | .keyOrClose => (b.close t).or (b.takeKey t)
  | .key => b.takeKey t
  | .colon =>
    match t with
    | .colon => some { b with expected := .value }
    | _ => none
  | .commaOrClose =>
    match t, b.frames with
    | .comma, .list _ :: _ => some { b with expected := .value }
    | .comma, .record _ _ :: _ => some { b with expected := .key }
    | t, _ => b.close t
  | .finish => none

def steps (b : Builder) : List Token → Option Builder
  | [] => some b
  | t :: ts => (b.step t).bind fun b => b.steps ts

end Builder

/-- Reads characters, starting where the two machines stand. -/
def readFrom (r : Reading) (b : Builder) : List Char → Option Builder
  | [] => r.flush?.bind b.steps
  | c :: cs =>
    match r.step? c with
    | none => none
    | some (r, tokens) =>
      match b.steps tokens with
      | none => none
      | some b => readFrom r b cs

/-- How deep a document can nest where it is read. -/
def maxDepth : Nat := 127

/-- The tree of a JSON text. -/
def parse? (s : String) : Option Tree :=
  (readFrom .between .new s.toList).bind fun b => b.result.map (·.prune maxDepth)

end AppDriver.Json
