import AppDriver.Text.LetterCase

/-!
Labels: identifiers that name stand-ins in generated sources. A label is made from a hint by writing
`_` for each character that an identifier cannot hold, and made unique by a number.
-/

namespace AppDriver.Label

/-- The reserved words that no label equals. -/
def keywords : List String :=
  ["abstract", "boolean", "break", "byte", "case", "catch", "char", "class", "const", "continue",
   "default", "do", "double", "else", "enum", "extends", "final", "finally", "float", "for",
   "goto", "if", "implements", "import", "instanceof", "int", "interface", "long", "native",
   "new", "package", "private", "protected", "public", "return", "short", "static", "super",
   "switch", "synchronized", "this", "throw", "throws", "transient", "try", "void", "volatile",
   "while"]

/-- The characters of a label: ASCII letters, digits and `_`. -/
def isLabelChar (c : Char) : Bool := c.isAlphanum || c == '_'

/-- A hint with `_` for each character that a label cannot hold. -/
def sanitize (hint : List Char) : List Char :=
  hint.map fun c => if isLabelChar c then c else '_'

/-- A label does not start with a digit. -/
def withStart : List Char → List Char
  | [] => ['_']
  | c :: cs => if c.isDigit then '_' :: c :: cs else c :: cs

/-- The label for a hint as long as nothing else has it. -/
def base (hint : String) : String :=
  let text := String.ofList (withStart (sanitize hint.toList))
  if keywords.contains text then text ++ "_" else text

/-- The candidates for a label: the base itself, then the base with a number from 2 on. -/
def candidate (base : String) : Nat → String
  | 0 => base
  | n + 1 => base ++ "_" ++ toString (n + 2)

/-- The first candidate from the `n`-th on that is not taken, looking at `tries` of them at most. -/
def firstFree (taken : List String) (base : String) : Nat → Nat → String
  | 0, n => candidate base n
  | tries + 1, n =>
    if taken.contains (candidate base n) then firstFree taken base tries (n + 1)
    else candidate base n

/-- The first candidate that is not taken. The candidates differ from one another, so if as many of
them as there are taken labels are taken, the next one is not. -/
def fresh (taken : List String) (hint : String) : String :=
  firstFree taken (base hint) taken.length 0

end AppDriver.Label
