import SmallScheme.Decimal

/-!
The shortest decimal that reads back as a given double. A positive double is `m * 2 ^ q` and is
read from every number in an interval around it, whose ends belong to it when `m` is even. On
the grid of decimals with `n` significant digits, the neighbours of the double below and above
are tried for `n = 1, 2, …, 17`: the first grid with a neighbour inside the interval wins, and
of two such neighbours the nearer, or the upper one if both are as near.
-/

namespace SmallScheme

/-- A positive binary number `mantissa * 2 ^ exponent` as a member of its number format. -/
structure Binary where
  mantissa : Nat
  exponent : Int
  /-- The next number below is only half as far away as the next above. -/
  narrowBelow : Bool
  deriving DecidableEq, Repr

namespace Binary

/-- A fraction of two naturals for `n * base ^ e`, with the numerator first. -/
def scale (base n : Nat) : Int → Nat × Nat
  | .ofNat e => (n * base.pow e, 1)
  | .negSucc e => (n, base.pow (e + 1))

/-- The number lies below `10 ^ k`. -/
def isBelow (b : Binary) (k : Int) : Bool :=
  let (num, den) := scale 2 b.mantissa b.exponent
  let (num', den') := scale 10 1 k
  num * den' < num' * den

/-- The decimal exponent just above the number, which lies between `10 ^ (k - 1)` and `10 ^ k`. The
binary exponent times the decimal logarithm of two is less than it by two at most. -/
def magnitude (b : Binary) : Int :=
  let guess := (b.mantissa.log2 + b.exponent) * 30103 / 100000
  if b.isBelow guess then guess
  else if b.isBelow (guess + 1) then guess + 1
  else guess + 2

/-- The neighbour on the grid of multiples of `10 ^ g` that reads back as the number, if there
is one; of two the nearer, and of two equally near the larger. Everything is measured in a unit
in which the grid and the ends of the interval, which lie a quarter or a half of the last place
away, are whole. -/
def onGrid (b : Binary) (g : Int) : Option Nat :=
  let (unit, den) := scale 2 1 (b.exponent - 2)
  let (step, den') := scale 10 1 g
  let grid := step * den
  let quarters (n : Nat) := n * unit * den'
  let value := quarters (4 * b.mantissa)
  let low := quarters (4 * b.mantissa - if b.narrowBelow then 1 else 2)
  let high := quarters (4 * b.mantissa + 2)
  let closed := b.mantissa % 2 = 0
  let d := value / grid
  let below := low < d * grid ∨ (closed ∧ low = d * grid)
  let above := (d + 1) * grid < high ∨ (closed ∧ (d + 1) * grid = high)
  if below ∧ above then
    some (if 2 * (value % grid) < grid then d else d + 1)
  else if below then some d
  else if above then some (d + 1)
  else none

/-- The shortest decimal that reads back as the number. -/
def shortest (b : Binary) : Decimal :=
  let k := b.magnitude
  let found := (List.range 17).findSome? fun (n : Nat) =>
    (b.onGrid (k - (n + 1))).map fun d => (⟨d, k - (n + 1)⟩ : Decimal)
  found.getD ⟨0, 0⟩

end Binary

/-- The parts of a double. -/
inductive FloatClass where
  | nan
  | infinite (negative : Bool)
  | zero (negative : Bool)
  | finite (negative : Bool) (magnitude : Binary)
  deriving Repr

def FloatClass.ofFloat (x : Float) : FloatClass :=
  let bits := x.toBits.toNat
  let negative := bits ≥ Nat.pow 2 63
  let exponent : Nat := bits / Nat.pow 2 52 % Nat.pow 2 11
  let fraction : Nat := bits % Nat.pow 2 52
  if exponent = Nat.pow 2 11 - 1 then
    if fraction = 0 then .infinite negative else .nan
  else if exponent = 0 then
    if fraction = 0 then .zero negative else .finite negative ⟨fraction, -1074, false⟩
  else .finite negative ⟨Nat.pow 2 52 + fraction, exponent - 1075, fraction = 0 ∧ 1 < exponent⟩

/-- The text of a double: the shortest digits that read back, in full and without a fraction
when it is whole. -/
def printFloat (x : Float) : String :=
  let sign (negative : Bool) := if negative then "-" else ""
  match FloatClass.ofFloat x with
  | .nan => "NaN"
  | .infinite negative => sign negative ++ "inf"
  | .zero negative => sign negative ++ "0"
  | .finite negative b => sign negative ++ b.shortest.print

end SmallScheme
