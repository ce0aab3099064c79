import SmallScheme.Sink
import SmallScheme.Value

/-!
Why an evaluation fails, where, and the words for it.
-/

namespace SmallScheme

/-- How many arguments a primitive takes. -/
inductive Arity where
  | exactly (count : Nat)
  | atLeast (count : Nat)
  deriving DecidableEq, Repr

def Arity.print : Arity → String
  | exactly count => toString count
  | atLeast count => "at least " ++ toString count

inductive DefineFault where
  | nothing
  | notOneExpression
  | noBody
  | noName
  | noTarget
  deriving DecidableEq, Repr

def DefineFault.message : DefineFault → String
  | nothing => "expected a name and an expression"
  | notOneExpression => "expected exactly one expression after the name"
  | noBody => "missing function body"
  | noName => "missing function name"
  | noTarget => "expected an identifier or a (name param...) head"

inductive EvalError where
  | notDefined (name : String) (span : Span)
  | notCallable (name : String) (span : Span)
  | arityMismatch (name : String) (expected got : Nat) (span : Span)
  | primitiveArity (p : Primitive) (expected : Arity) (got : Nat) (span : Span)
  /-- The argument with number `index`, counted from one, is no number. -/
  | notANumber (p : Primitive) (index : Nat) (found : ValueType) (span : Span)
  | divisionByZero (p : Primitive) (span : Span)
  | integerOverflow (p : Primitive) (span : Span)
  | invalidParameter (found : String) (span : Span)
  | malformedDefine (fault : DefineFault) (span : Span)
  | noValue (expression : String) (span : Span)
  | invalidLiteral (text : String) (kind : TokenKind) (span : Span)
  | output (error : SinkError)
  | notRoot (kind : NodeKind)
  deriving DecidableEq, Repr

namespace EvalError

/-- The place of the error in the source that the failing node came from. -/
def span? : EvalError → Option Span
  | notDefined _ span | notCallable _ span | arityMismatch _ _ _ span
  | primitiveArity _ _ _ span | notANumber _ _ _ span | divisionByZero _ span
  | integerOverflow _ span | invalidParameter _ span | malformedDefine _ span
  | noValue _ span | invalidLiteral _ _ span => some span
  | output _ | notRoot _ => none

def message : EvalError → String
  | notDefined name _ => "\"" ++ name ++ "\" is not defined"
  | notCallable name _ => "\"" ++ name ++ "\" is not a function"
  | arityMismatch name expected got _ =>
    name ++ ": unexpected number of arguments, expected " ++ toString expected ++ ", got " ++
      toString got
  | primitiveArity p expected got _ =>
    p.name ++ ": unexpected number of arguments, expected " ++ expected.print ++ ", got " ++
      toString got
  | notANumber p index found _ =>
    p.name ++ ": argument " ++ toString index ++ " is " ++ found.name ++ ", not a number"
  | divisionByZero p _ => p.name ++ ": division by zero"
  | integerOverflow p _ => p.name ++ ": integer overflow"
  | invalidParameter found _ => found ++ " is not a valid identifier"
  | malformedDefine fault _ => "malformed define: " ++ fault.message
  | noValue expression _ => expression ++ " has no value"
  | invalidLiteral text kind _ => "invalid " ++ kind.name ++ " literal `" ++ text ++ "`"
  | output error => "failed to write output: " ++ error.message
  | notRoot kind => "available for root node only, got " ++ kind.name

def headline : EvalError → String
  | notDefined .. => "Not defined"
  | notCallable .. => "Not a function"
  | arityMismatch .. | primitiveArity .. => "Unexpected number of arguments"
  | notANumber .. => "Not a number"
  | divisionByZero .. => "Division by zero"
  | integerOverflow .. => "Integer overflow"
  | invalidParameter .. => "Invalid parameter"
  | malformedDefine .. => "Malformed define"
  | noValue .. => "Expression has no value"
  | invalidLiteral .. => "Invalid literal"
  | output _ => "Output error"
  | notRoot _ => "Not a program"

def notes : EvalError → List String
  | notDefined name _ => ["`" ++ name ++ "` is not defined in this scope"]
  | notCallable name _ => ["`" ++ name ++ "` cannot be called"]
  | arityMismatch name expected got _ =>
    ["`" ++ name ++ "` takes " ++ toString expected ++ " arguments, but " ++ toString got ++
      " were given"]
  | primitiveArity p expected got _ =>
    ["`" ++ p.name ++ "` takes " ++ expected.print ++ " arguments, but " ++ toString got ++
      " were given"]
  | notANumber p index found _ =>
    ["`" ++ p.name ++ "` expects numbers, argument " ++ toString index ++ " is " ++ found.name]
  | divisionByZero .. => []
  | integerOverflow p _ => ["`" ++ p.name ++ "` overflowed a 64-bit integer"]
  | invalidParameter found _ => ["`" ++ found ++ "` is not a valid identifier"]
  | malformedDefine fault _ => [fault.message]
  | noValue expression _ => ["`" ++ expression ++ "` does not produce a value"]
  | invalidLiteral text kind _ => ["`" ++ text ++ "` is not a valid " ++ kind.name]
  | output error => [error.message]
  | notRoot kind => ["only a Root node can be evaluated, got " ++ kind.name]

end EvalError

end SmallScheme
