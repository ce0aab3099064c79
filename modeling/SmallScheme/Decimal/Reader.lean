import SmallScheme.Decimal

/-!
Reading numbers. `readInt` takes a sign and digits that make a 64-bit integer; `readFloat` takes
a sign and a decimal with an optional point and exponent, or a name of infinity or not-a-number.
-/

namespace SmallScheme

def digitsValue (digits : List Char) : Nat :=
  digits.foldl (fun n c => 10 * n + (c.toNat - '0'.toNat)) 0

/-- Splits a sign off a text: whether it is a minus sign, and the rest. -/
def splitSign : List Char → Bool × List Char
  | '-' :: cs => (true, cs)
  | '+' :: cs => (false, cs)
  | cs => (false, cs)

/-- The integer that a text of an optional sign and at least one digit spells. -/
def readDigits (text : List Char) : Option Int :=
  let (negative, digits) := splitSign text
  if digits.isEmpty || !digits.all Char.isDigit then none
  else some (if negative then -(digitsValue digits : Int) else digitsValue digits)

/-- The integer lies in the range of 64-bit words. -/
def fitsInt64 (n : Int) : Bool := -9223372036854775808 ≤ n && n ≤ 9223372036854775807

/-- The 64-bit integer that a text spells. -/
def readInt (text : String) : Option Int64 :=
  (readDigits text.toList).bind fun n => if fitsInt64 n then some (Int64.ofInt n) else none

namespace Decimal

/-- The exponent that follows the digits of a decimal: nothing, or a mark and an integer. -/
def readExponent : List Char → Option Int
  | [] => some 0
  | c :: cs => if c = 'e' || c = 'E' then readDigits cs else none

/-- The decimal that a text without a sign spells. -/
def read (text : List Char) : Option Decimal :=
  let whole := text.takeWhile Char.isDigit
  let (fraction, rest) :=
    match text.dropWhile Char.isDigit with
    | '.' :: rest => (rest.takeWhile Char.isDigit, rest.dropWhile Char.isDigit)
    | rest => ([], rest)
  if whole.isEmpty && fraction.isEmpty then none
  else (readExponent rest).map fun e => ⟨digitsValue (whole ++ fraction), e - fraction.length⟩

end Decimal

def readUnsigned (text : List Char) : Option Float :=
  let word := text.map Char.toLower
  if word = "inf".toList || word = "infinity".toList then some (1.0 / 0.0)
  else if word = "nan".toList then some (0.0 / 0.0)
  else (Decimal.read text).map Decimal.toFloat

def readFloat (text : String) : Option Float :=
  let (negative, rest) := splitSign text.toList
  (readUnsigned rest).map fun x => if negative then -x else x

end SmallScheme
