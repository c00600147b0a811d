import SvgJsx.Text.Basic

/-! Whether a decimal numeral rounds to a finite double. -/

namespace SvgJsx.Decimal
open Text

/-- The value of the decimal digits in a text; other characters do not count. -/
def digitsValue (t : Text) : Nat :=
  (t.filter Char.isDigit).foldl (fun n c => 10 * n + (c.toNat - '0'.toNat)) 0

/-- The least number that rounds to infinity: the middle between the greatest finite double and the
next power of two. -/
def overflowBound : Nat := Nat.pow 2 1024 - Nat.pow 2 970

/-- Whether `digits` times ten to the power `scale` is below the bound. Numbers whose size alone
decides are not written out. -/
def scaledInRange (digits : Nat) (scale : Int) : Bool :=
  let size := ((decimal digits).length : Int) + scale
  if digits = 0 ∨ size < 300 then true
  else if 320 < size then false
  else if 0 ≤ scale then decide (digits * Nat.pow 10 scale.toNat < overflowBound)
  else decide (digits < overflowBound * Nat.pow 10 (-scale).toNat)

def isInRange (numeral : Text) : Bool :=
  let isMark (c : Char) : Bool := c == 'e' || c == 'E'
  let mantissa := numeral.takeWhile (!isMark ·)
  let exponent := (numeral.dropWhile (!isMark ·)).drop 1
  let places := ((mantissa.dropWhile (· ≠ '.')).filter Char.isDigit).length
  let power : Int :=
    if exponent.head? = some '-' then -(digitsValue exponent : Int) else digitsValue exponent
  scaledInRange (digitsValue mantissa) (power - places)

end SvgJsx.Decimal
