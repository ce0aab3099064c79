import SmallScheme.Evaluation.Primitive

/-!
The evaluator. `evaluateStep` says how a node is evaluated in a scope, given how the nodes that
it needs are evaluated; `evaluateNode` ties the knot, with fuel for the depth to which it may go.
`apply` calls a procedure and `evaluate` runs a whole program in the global scope.
-/

namespace SmallScheme

abbrev Evaluator := Node → ScopeId → Eval (Option Value)

namespace Evaluator

variable (ev : Evaluator)

/-- The value of a node that must have one. -/
def value (n : Node) (scope : ScopeId) : Eval Value := do
  match ← ev n scope with
  | some v => return v
  | none => Eval.fail (.noValue n.print n.span)

/-- The values of nodes that must have one, from left to right. -/
def values (scope : ScopeId) : List Node → Eval (List Value)
  | [] => return []
  | n :: ns => do
    let v ← ev.value n scope
    let vs ← values scope ns
    return v :: vs

/-- The result of the last of some nodes, which are all evaluated in order after one with the
result `last`. -/
def sequence (scope : ScopeId) : Option Value → List Node → Eval (Option Value)
  | last, [] => return last
  | _, n :: ns => do
    let r ← ev n scope
    sequence scope r ns

end Evaluator

def literalValue (n : Node) : Except EvalError Value :=
  match n.token with
  | none => .error (.noValue n.print n.span)
  | some t =>
    let read : Option Value :=
      match t.kind with
      | .integer => (readInt t.text).map fun i => .number (.int i)
      | .float => (readFloat t.text).map fun x => .number (.float x)
      | .string => some (.string t.text)
      | .paren | .identifier | .quote => none
    match read with
    | some v => .ok v
    | none => .error (.invalidLiteral t.text t.kind n.span)

def variableValue (n : Node) (scope : ScopeId) : Eval Value := do
  let name := n.identifier.getD ""
  match ← Eval.find scope name with
  | some v => return v
  | none => Eval.fail (.notDefined name n.span)

def bindAll (scope : ScopeId) : List (String × Value) → Eval Unit
  | [] => return ()
  | (name, value) :: rest => do
    Eval.bindName scope name value
    bindAll scope rest

/-- Calls a function: its body is evaluated in a new scope below the one it was defined with. -/
def callClosure (ev : Evaluator) (f : Closure) (args : List Value) (span : Span) :
    Eval (Option Value) :=
  if args.length = f.params.length then do
    let scope ← Eval.spawn f.scope
    bindAll scope (f.params.zip args)
    ev f.body scope
  else Eval.fail (.arityMismatch f.name f.params.length args.length span)

def applyWith (ev : Evaluator) (c : Callable) (args : List Value) (span : Span) :
    Eval (Option Value) :=
  match c with
  | .primitive p => p.apply args span
  | .closure f => callClosure ev f args span

/-- Evaluates a call: first the head, then the arguments from left to right, then the procedure. -/
def evaluateCall (ev : Evaluator) (n : Node) (scope : ScopeId) : Eval (Option Value) :=
  match n.children with
  | [] => Eval.fail (.notCallable n.print n.span)
  | head :: arguments => do
    match ← ev.value head scope with
    | .callable c => do
      let args ← ev.values scope arguments
      applyWith ev c args n.span
    | _ => Eval.fail (.notCallable head.print head.span)

/-- The names in the head of a function definition. -/
def headNames : List Node → Except EvalError (List String)
  | [] => .ok []
  | n :: ns =>
    match n.identifier with
    | none => .error (.invalidParameter n.print n.span)
    | some name => (headNames ns).map (name :: ·)

def defineVariable (ev : Evaluator) (n target : Node) (rest : List Node) (scope : ScopeId) :
    Eval (Option Value) :=
  match rest with
  | [expression] => do
    let v ← ev.value expression scope
    Eval.bindName scope (target.identifier.getD "") v
    return none
  | _ => Eval.fail (.malformedDefine .notOneExpression n.span)

/-- Defines a function, with a new scope below the one it is defined in. -/
def defineFunction (n target : Node) (rest : List Node) (scope : ScopeId) :
    Eval (Option Value) :=
  if rest.isEmpty then Eval.fail (.malformedDefine .noBody n.span)
  else do
    match ← Eval.ofExcept (headNames target.children) with
    | [] => Eval.fail (.malformedDefine .noName target.span)
    | name :: params => do
      let captured ← Eval.spawn scope
      Eval.bindName scope name (.callable (.closure ⟨name, params, Node.body rest, captured⟩))
      return none

def evaluateDefine (ev : Evaluator) (n : Node) (scope : ScopeId) : Eval (Option Value) :=
  match n.children with
  | [] => Eval.fail (.malformedDefine .nothing n.span)
  | target :: rest =>
    match target.kind with
    | .variable => defineVariable ev n target rest scope
    | .call => defineFunction n target rest scope
    | _ => Eval.fail (.malformedDefine .noTarget target.span)

/-- Evaluates a node, given how to evaluate the nodes that it needs. -/
def evaluateStep (ev : Evaluator) : Evaluator := fun n scope =>
  match n.kind with
  | .root | .function => ev.sequence scope none n.children
  | .literal => Eval.ofExcept ((literalValue n).map some)
  | .variable => do
    let v ← variableValue n scope
    return some v
  | .call => evaluateCall ev n scope
  | .define => evaluateDefine ev n scope

/-- Evaluates a node in a scope, to a depth of at most `fuel`. -/
def evaluateNode : Nat → Evaluator
  | 0 => fun _ _ => Eval.exhausted
  | fuel + 1 => evaluateStep (evaluateNode fuel)

/-- Calls a procedure, to a depth of at most `fuel` below the call. -/
def apply (fuel : Nat) : Callable → List Value → Span → Eval (Option Value) :=
  applyWith (evaluateNode fuel)

/-- Runs a program in the global scope; the result is that of its last form. The output is
written through at the end. -/
def evaluate (fuel : Nat) (root : Node) : Eval (Option Value) :=
  if root.kind = .root then do
    let result ← evaluateNode fuel root Scopes.global
    Eval.flush
    return result
  else Eval.fail (.notRoot root.kind)

/-- Fuel for a run that is to end by itself: deeper than any computation that fits a machine. -/
def ampleFuel : Nat := 1000000000

end SmallScheme
