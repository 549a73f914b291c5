/-!
Decimal numerals: digits with a point and a power of ten, and whether a double can hold their value.
-/

namespace AppDriver

/-- The value of decimal digits. -/
def digitsValue (ds : List Char) : Nat := ds.foldl (fun n c => 10 * n + (c.toNat - 48)) 0

/-- A numeral in parts, without its sign: the digits before the point and after it, and the power of
ten with its sign. -/
structure Decimal where
  whole : List Char
  fraction : List Char
  negativePower : Bool
  power : List Char
deriving Repr

/-- Whether a double can hold the value: it is below the midpoint between the greatest double and
the power of two after it. -/
def Decimal.isFinite (d : Decimal) : Bool :=
  let mantissa := digitsValue (d.whole ++ d.fraction)
  let power := digitsValue d.power
  let bound := Nat.pow 2 1024 - Nat.pow 2 970
  if mantissa = 0 then true
  else if d.negativePower then
    decide (d.whole.length < power) ||
      decide (mantissa < bound * Nat.pow 10 (d.fraction.length + power))
  else if 400 + d.fraction.length < power then false
  else decide (mantissa * Nat.pow 10 power < bound * Nat.pow 10 d.fraction.length)

/-- Takes the sign of a power of ten. -/
def powerSign : List Char → Bool × List Char
  | '-' :: cs => (true, cs)
  | '+' :: cs => (false, cs)
  | cs => (false, cs)

end AppDriver
