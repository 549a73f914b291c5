/-!
The case of a first letter, as far as a label can show it. A label keeps ASCII letters, digits and
`_` and writes every other character as `_`, so of a case mapping only the ASCII characters of its
result and the number of the others can be seen. `upperShape` and `lowerShape` give a mapping up to
that: an ASCII character stands for itself and `_` for any other character.
-/

namespace AppDriver

/-- Characters outside ASCII whose upper case holds an ASCII letter, with what is seen of it. -/
def upperIntoAscii : List (Nat × List Char) :=
  [(0xDF, ['S', 'S']), (0x131, ['I']), (0x149, ['_', 'N']), (0x17F, ['S']), (0x1F0, ['J', '_']),
   (0x1E96, ['H', '_']), (0x1E97, ['T', '_']), (0x1E98, ['W', '_']), (0x1E99, ['Y', '_']),
   (0x1E9A, ['A', '_']), (0xFB00, ['F', 'F']), (0xFB01, ['F', 'I']), (0xFB02, ['F', 'L']),
   (0xFB03, ['F', 'F', 'I']), (0xFB04, ['F', 'F', 'L']), (0xFB05, ['S', 'T']), (0xFB06, ['S', 'T'])]

/-- Characters whose upper case is two characters outside ASCII. -/
def upperIntoTwo (n : Nat) : Bool :=
  n == 0x587 || (0x1F80 ≤ n && n ≤ 0x1FAF) || (0xFB13 ≤ n && n ≤ 0xFB17) ||
    [0x1F50, 0x1FB2, 0x1FB3, 0x1FB4, 0x1FB6, 0x1FBC, 0x1FC2, 0x1FC3, 0x1FC4, 0x1FC6, 0x1FCC,
     0x1FD6, 0x1FE4, 0x1FE6, 0x1FF2, 0x1FF3, 0x1FF4, 0x1FF6, 0x1FFC].contains n

/-- Characters whose upper case is three characters outside ASCII. -/
def upperIntoThree (n : Nat) : Bool :=
  [0x390, 0x3B0, 0x1F52, 0x1F54, 0x1F56, 0x1FB7, 0x1FC7, 0x1FD2, 0x1FD3, 0x1FD7, 0x1FE2, 0x1FE3,
   0x1FE7, 0x1FF7].contains n

/-- What a label can see of the upper case of a character. -/
def upperShape (c : Char) : List Char :=
  if c.toNat < 0x80 then [c.toUpper]
  else match upperIntoAscii.lookup c.toNat with
    | some shape => shape
    | none =>
      if upperIntoTwo c.toNat then ['_', '_']
      else if upperIntoThree c.toNat then ['_', '_', '_']
      else ['_']

/-- What a label can see of the lower case of a character: outside ASCII only the dotted capital I
and the Kelvin sign have a lower case with an ASCII letter in it. -/
def lowerShape (c : Char) : List Char :=
  if c.toNat < 0x80 then [c.toLower]
  else if c.toNat == 0x130 then ['i', '_']
  else if c.toNat == 0x212A then ['k']
  else ['_']

/-- A text with its first character in upper case, as a label sees it. -/
def capitalized (s : String) : String :=
  match s.toList with
  | [] => ""
  | c :: cs => String.ofList (upperShape c ++ cs)

/-- A text with its first character in lower case, as a label sees it. -/
def uncapitalized (s : String) : String :=
  match s.toList with
  | [] => ""
  | c :: cs => String.ofList (lowerShape c ++ cs)

end AppDriver
