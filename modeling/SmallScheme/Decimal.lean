/-!
Decimal numbers: a coefficient times a power of ten. They have a positional text, and the double
nearest to them.
-/

namespace SmallScheme

/-- The number `coefficient * 10 ^ exponent`. -/
structure Decimal where
  coefficient : Nat
  exponent : Int
  deriving DecidableEq, Repr, Inhabited

namespace Decimal

/-- The digits of a number without the zeros at its end, and how many those are. -/
def significant (n : Nat) : List Char × Nat :=
  let digits := Nat.toDigits 10 n
  let kept := (digits.reverse.dropWhile (· == '0')).reverse
  (kept, digits.length - kept.length)

/-- Digits with the decimal point `places` digits from their end. -/
def point (digits : List Char) (places : Nat) : List Char :=
  if places < digits.length then
    digits.take (digits.length - places) ++ '.' :: digits.drop (digits.length - places)
  else '0' :: '.' :: (List.replicate (places - digits.length) '0' ++ digits)

/-- The text in full, without an exponent and without zeros at the end of the fraction. -/
def print (d : Decimal) : String :=
  if d.coefficient = 0 then "0"
  else
    let (digits, zeros) := significant d.coefficient
    match d.exponent + zeros with
    | .ofNat e => String.ofList (digits ++ List.replicate e '0')
    | .negSucc e => String.ofList (point digits (e + 1))

/-- The nearest double, an even one of two that are equally near; infinity above the largest. -/
def toFloat (d : Decimal) : Float :=
  Float.ofScientific d.coefficient (decide (d.exponent < 0)) d.exponent.natAbs

end Decimal

end SmallScheme
