import SmallScheme.Decimal.Reader
import SmallScheme.Decimal.Shortest

/-!
Numbers: 64-bit integers, which are exact and never wrap, and doubles. An operation on two
integers gives an integer or says why there is none; with a double in it, it gives a double.
-/

namespace SmallScheme

inductive Number where
  | int (n : Int64)
  | float (x : Float)
  deriving Repr, Inhabited

inductive Operator where
  | add
  | sub
  | mul
  | div
  deriving DecidableEq, Repr

/-- Why an operation on integers has no result. -/
inductive ArithmeticError where
  | divisionByZero
  | overflow
  deriving DecidableEq, Repr

namespace Number

def print : Number → String
  | int n => toString n.toInt
  | float x => printFloat x

/-- The double nearest to a number. -/
def toFloat : Number → Float
  | int n => Float.ofInt n.toInt
  | float x => x

/-- An integer as a number, if it fits 64 bits. -/
def ofInt (n : Int) : Except ArithmeticError Number :=
  if fitsInt64 n then .ok (.int (Int64.ofInt n)) else .error .overflow

/-- An operation on integers; a quotient is cut off towards zero. -/
def applyInt (op : Operator) (a b : Int) : Except ArithmeticError Number :=
  match op with
  | .add => ofInt (a + b)
  | .sub => ofInt (a - b)
  | .mul => ofInt (a * b)
  | .div => if b = 0 then .error .divisionByZero else ofInt (Int.tdiv a b)

def applyFloat (op : Operator) (a b : Float) : Float :=
  match op with
  | .add => a + b
  | .sub => a - b
  | .mul => a * b
  | .div => a / b

/-- An operation on numbers: two integers give an integer, all else gives a double. -/
def apply (op : Operator) (a b : Number) : Except ArithmeticError Number :=
  match a, b with
  | .int a, .int b => applyInt op a.toInt b.toInt
  | a, b => .ok (.float (applyFloat op a.toFloat b.toFloat))

def negate : Number → Except ArithmeticError Number
  | int n => ofInt (-n.toInt)
  | float x => .ok (.float (-x))

end Number

end SmallScheme
