import SmallScheme.Token

/-!
Syntax trees. A `Node` has a kind, the token it was made from, its children in order and a span.
A leaf keeps its own token, a call its opening parenthesis and a definition its keyword. `print`
is the text of a tree.
-/

namespace SmallScheme

inductive NodeKind where
  /-- The forms of a program in order. -/
  | root
  /-- A function and its arguments. -/
  | call
  /-- A number or a string. -/
  | literal
  /-- A name that stands for its value. -/
  | variable
  /-- A name, or a name with parameters, and what it is defined as. -/
  | define
  /-- The body of a function. -/
  | function
  deriving DecidableEq, Repr, Inhabited

def NodeKind.name : NodeKind → String
  | .root => "Root"
  | .call => "Call"
  | .literal => "Literal"
  | .variable => "VariableRef"
  | .define => "Define"
  | .function => "Function"

structure Node where
  kind : NodeKind
  token : Option Token
  children : List Node
  span : Span
  deriving Repr, Inhabited

namespace Node

/-- A node without children that is made from a token and stands where the token does. -/
def ofToken (kind : NodeKind) (t : Token) : Node := ⟨kind, some t, [], t.span⟩

/-- A token that is a form by itself: an identifier is a variable, all else a literal. -/
def leaf (t : Token) : Node :=
  ofToken (if t.kind = .identifier then .variable else .literal) t

/-- The span from the first of some nodes to the last. -/
def spanOf (nodes : List Node) : Span :=
  match nodes.head?, nodes.getLast? with
  | some first, some last => first.span.merge last.span
  | _, _ => ⟨0, 0⟩

/-- The forms of a program under a root. -/
def program (forms : List Node) : Node := ⟨.root, none, forms, spanOf forms⟩

def body (forms : List Node) : Node := ⟨.function, none, forms, spanOf forms⟩

/-- The name that a variable node stands for. -/
def identifier (n : Node) : Option String :=
  if n.kind = .variable then n.token.map Token.text else none

mutual

def print : Node → String
  | ⟨kind, token, children, _⟩ =>
    match kind with
    | .root => "\n".intercalate (printAll children)
    | .call => "(" ++ " ".intercalate (printAll children) ++ ")"
    | .define =>
      if children.isEmpty then "(define)"
      else "(define " ++ " ".intercalate (printAll children) ++ ")"
    | .function => " ".intercalate (printAll children)
    | .literal | .variable => token.elim "" Token.literal

def printAll : List Node → List String
  | [] => []
  | n :: ns => print n :: printAll ns

end

theorem printAll_eq_map (ns : List Node) : printAll ns = ns.map print := by
  induction ns with
  | nil => rfl
  | cons n ns ih => rw [printAll, ih, List.map_cons]

mutual

/-- The nodes of a tree in preorder, each with its depth below `depth`. -/
def preorder (depth : Nat) : Node → List (Nat × Node)
  | ⟨kind, token, children, span⟩ =>
    (depth, ⟨kind, token, children, span⟩) :: preorderAll (depth + 1) children

def preorderAll (depth : Nat) : List Node → List (Nat × Node)
  | [] => []
  | n :: ns => preorder depth n ++ preorderAll depth ns

end

end Node

end SmallScheme
