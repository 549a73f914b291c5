import AppDriver.Document.Decimal
import AppDriver.Document.Tree

/-!
The meaning of an unquoted scalar: what its text is as a flag or as a number, and which type the
text has where nothing says what is expected.
-/

namespace AppDriver.Plain

/-- The unquoted texts that stand for nothing. -/
def isNull (s : String) : Bool := ["", "~", "null", "Null", "NULL"].contains s

def flag? (s : String) : Option Bool :=
  if ["true", "True", "TRUE"].contains s then some true
  else if ["false", "False", "FALSE"].contains s then some false
  else none

def digit? (base : Nat) (c : Char) : Option Nat :=
  let value :=
    if c.isDigit then c.toNat - 48
    else if 'a' ≤ c && c ≤ 'f' then c.toNat - 87
    else if 'A' ≤ c && c ≤ 'F' then c.toNat - 55
    else base
  if value < base then some value else none

/-- The value of digits that follow digits of value `n`. -/
def digitsFrom (base n : Nat) : List Char → Option Nat
  | [] => some n
  | c :: cs => (digit? base c).bind fun d => digitsFrom base (base * n + d) cs

/-- The value of one digit or more. -/
def digits? (base : Nat) : List Char → Option Nat
  | [] => none
  | cs => digitsFrom base 0 cs

/-- A decimal numeral with a superfluous zero in front is no number. -/
def hasLeadingZero : List Char → Bool
  | '0' :: c :: cs => (c :: cs).all Char.isDigit
  | _ => false

/-- The value of a numeral without a sign: hexadecimal, octal, binary or decimal. It has 128 bits at
the most. -/
def magnitude? (cs : List Char) : Option Nat :=
  (match cs with
    | '0' :: 'x' :: cs => digits? 16 cs
    | '0' :: 'o' :: cs => digits? 8 cs
    | '0' :: 'b' :: cs => digits? 2 cs
    | cs => if hasLeadingZero cs then none else digits? 10 cs).filter (· < Nat.pow 2 128)

/-- The value of an integer numeral; a sign can only be a plus. -/
def natural? (s : String) : Option Nat :=
  match s.toList with
  | '+' :: cs => magnitude? cs
  | cs => magnitude? cs

/-- The magnitude of a negative integer numeral. -/
def negative? (s : String) : Option Nat :=
  match s.toList with
  | '-' :: cs => (magnitude? cs).filter (· ≤ Nat.pow 2 127)
  | _ => none

/-- The parts of a decimal numeral without a sign, if a text is one: there are digits before or
after the point. -/
def unsignedDecimal? (cs : List Char) : Option Decimal :=
  let whole := cs.takeWhile Char.isDigit
  let rest := cs.dropWhile Char.isDigit
  let hasPoint := rest.head? == some '.'
  let fraction := if hasPoint then (rest.drop 1).takeWhile Char.isDigit else []
  let rest := if hasPoint then (rest.drop 1).dropWhile Char.isDigit else rest
  if whole.isEmpty && fraction.isEmpty then none
  else match rest with
    | [] => some ⟨whole, fraction, false, []⟩
    | c :: cs =>
      let power := powerSign cs
      if (c == 'e' || c == 'E') && !power.2.isEmpty && power.2.all Char.isDigit then
        some ⟨whole, fraction, power.1, power.2⟩
      else none

/-- The words for infinity and for no number. -/
def specialNumbers : List String :=
  [".inf", ".Inf", ".INF", "+.inf", "+.Inf", "+.INF", "-.inf", "-.Inf", "-.INF", ".nan", ".NaN",
    ".NAN"]

/-- A text without the sign in front. -/
def withoutSign : List Char → List Char
  | '+' :: cs | '-' :: cs => cs
  | cs => cs

/-- Whether digits with a superfluous zero in front, and perhaps a sign, are the whole text. -/
def isZeroPadded (s : String) : Bool := hasLeadingZero (withoutSign s.toList)

/-- Whether a text is a number that is no integer, or an integer beyond the range of integers. -/
def isDecimal (s : String) : Bool :=
  specialNumbers.contains s ||
    (!isZeroPadded s && (unsignedDecimal? (withoutSign s.toList)).any (·.isFinite))

/-- The typed scalar that an unquoted text is where nothing is expected of it. Integers beyond 64
bits are not read. -/
def typed (s : String) : Scalar :=
  if isNull s then .null
  else match flag? s with
    | some b => .flag b
    | none =>
      match natural? s, negative? s with
      | some n, _ => if n < Nat.pow 2 64 then .natural n else .unreadable
      | none, some 0 => .natural 0
      | none, some n => if n ≤ Nat.pow 2 63 then .number else .unreadable
      | none, none => if isDecimal s then .number else .text s

/-- Whether an unquoted text would be taken for something other than itself. -/
def isTyped (s : String) : Bool :=
  match typed s with
  | .text _ => false
  | _ => true

end AppDriver.Plain
