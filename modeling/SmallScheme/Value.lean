import SmallScheme.Node
import SmallScheme.Value.Number

/-!
Values: numbers, strings and procedures. A procedure is a primitive of the language or a function
that a program defined, which keeps its body and the scope that was opened for it when it was
defined.
-/

namespace SmallScheme

/-- The procedures of the language itself. -/
inductive Primitive where
  | plus
  | minus
  | multiply
  | divide
  | display
  | displayln
  | newline
  deriving DecidableEq, Repr, Inhabited

namespace Primitive

def name : Primitive → String
  | plus => "+"
  | minus => "-"
  | multiply => "*"
  | divide => "/"
  | display => "display"
  | displayln => "displayln"
  | newline => "newline"

def all : List Primitive := [plus, minus, multiply, divide, display, displayln, newline]

end Primitive

/-- A scope, by its place in the arena of scopes. -/
abbrev ScopeId := Nat

/-- A function that a program defined, with the scope that it can see. -/
structure Closure where
  name : String
  params : List String
  body : Node
  /-- The scope that was opened when the function was defined. -/
  scope : ScopeId
  deriving Repr, Inhabited

inductive Callable where
  | primitive (p : Primitive)
  | closure (c : Closure)
  deriving Repr, Inhabited

namespace Callable

def name : Callable → String
  | primitive p => p.name
  | closure c => c.name

def print : Callable → String
  | primitive p => "#<primitive " ++ p.name ++ ">"
  | closure c => "#<lambda " ++ c.name ++ ">"

end Callable

inductive Value where
  | number (n : Number)
  | string (s : String)
  | callable (c : Callable)
  deriving Repr, Inhabited

inductive ValueType where
  | integer
  | float
  | string
  | procedure
  deriving DecidableEq, Repr, Inhabited

def ValueType.name : ValueType → String
  | integer => "integer"
  | float => "float"
  | string => "string"
  | procedure => "procedure"

namespace Value

def type : Value → ValueType
  | number (.int _) => .integer
  | number (.float _) => .float
  | string _ => .string
  | callable _ => .procedure

/-- The text of a value; a string is its own text. -/
def print : Value → String
  | number n => n.print
  | string s => s
  | callable c => c.print

def number? : Value → Option Number
  | number n => some n
  | _ => none

end Value

end SmallScheme
