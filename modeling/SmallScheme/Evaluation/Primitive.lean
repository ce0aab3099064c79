import SmallScheme.Evaluation.Outcome

/-!
What the primitives do. The arithmetic ones take their arguments from left to right and report
the first that is no number or makes the result leave the integers of 64 bits; the others write.
-/

namespace SmallScheme

namespace Primitive

/-- The error of a primitive whose operation has no result. -/
def arithmeticError (p : Primitive) (span : Span) : ArithmeticError → EvalError
  | .divisionByZero => .divisionByZero p span
  | .overflow => .integerOverflow p span

/-- The number that the argument with the given number is. -/
def operand (p : Primitive) (span : Span) (index : Nat) (v : Value) : Except EvalError Number :=
  match v.number? with
  | some n => .ok n
  | none => .error (.notANumber p index v.type span)

/-- An operation whose failure is an error of the primitive. -/
def operate (p : Primitive) (span : Span) (op : Operator) (a b : Number) :
    Except EvalError Number :=
  (Number.apply op a b).mapError (p.arithmeticError span)

/-- Takes arguments into a number one after another, the first of which has the given number. -/
def fold (p : Primitive) (span : Span) (op : Operator) :
    Number → Nat → List Value → Except EvalError Number
  | acc, _, [] => .ok acc
  | acc, index, v :: rest => do
    let n ← p.operand span index v
    let acc ← p.operate span op acc n
    p.fold span op acc (index + 1) rest

/-- The difference of the first argument and all others, or the first with the other sign if it
stands alone. -/
def difference (span : Span) : List Value → Except EvalError Number
  | [] => .error (.primitiveArity minus (.atLeast 1) 0 span)
  | [v] => do
    let n ← minus.operand span 1 v
    n.negate.mapError (minus.arithmeticError span)
  | v :: rest => do
    let n ← minus.operand span 1 v
    minus.fold span .sub n 2 rest

def quotient (span : Span) : List Value → Except EvalError Number
  | [a, b] => do
    let a ← divide.operand span 1 a
    let b ← divide.operand span 2 b
    divide.operate span .div a b
  | args => .error (.primitiveArity divide (.exactly 2) args.length span)

/-- The text that a primitive which writes leaves. -/
def outputText (p : Primitive) (span : Span) (args : List Value) : Except EvalError String :=
  match p, args with
  | newline, [] => .ok "\n"
  | newline, args => .error (.primitiveArity p (.exactly 0) args.length span)
  | displayln, [v] => .ok (v.print ++ "\n")
  | _, [v] => .ok v.print
  | p, args => .error (.primitiveArity p (.exactly 1) args.length span)

def apply (p : Primitive) (args : List Value) (span : Span) : Eval (Option Value) :=
  let number (r : Except EvalError Number) : Eval (Option Value) :=
    Eval.ofExcept (r.map fun n => some (.number n))
  match p with
  | plus => number (plus.fold span .add (.int 0) 1 args)
  | multiply => number (multiply.fold span .mul (.int 1) 1 args)
  | minus => number (difference span args)
  | divide => number (quotient span args)
  | display | displayln | newline => do
    let text ← Eval.ofExcept (p.outputText span args)
    Eval.write text
    return none

end Primitive

end SmallScheme
