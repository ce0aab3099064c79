import SmallScheme.Evaluation

/-!
Syntax and values without their places. `erase` puts every span and every position at the start of
the source, in tokens and trees, in the bodies of functions, and so in values, scopes and errors.
Two things are equal up to places when they are equal once erased.

The text of a tree does not depend on places (`Node.print_erase`), nor does the message of an error
(`EvalError.message_erase`), and the operations on scopes commute with erasure (`Scopes.find_erase`,
`Scopes.bind_erase`, `Scopes.spawn_erase`).
-/

namespace SmallScheme

/-! ## tokens and trees -/

/-- The token without its place. -/
def Token.erase (t : Token) : Token := ⟨t.text, t.kind, ⟨0, 0⟩, ⟨0, 0⟩⟩

namespace Token

variable (t : Token)

@[simp]
theorem isOpen_erase : t.erase.isOpen = t.isOpen := rfl

@[simp]
theorem isClose_erase : t.erase.isClose = t.isClose := rfl

@[simp]
theorem isIdentifier_erase (name : String) : t.erase.isIdentifier name = t.isIdentifier name := rfl

end Token

namespace Node

mutual

/-- The tree without its places. -/
def erase : Node → Node
  | ⟨kind, token, children, _⟩ => ⟨kind, token.map Token.erase, eraseAll children, ⟨0, 0⟩⟩

def eraseAll : List Node → List Node
  | [] => []
  | n :: ns => erase n :: eraseAll ns

end

theorem eraseAll_eq_map (ns : List Node) : eraseAll ns = ns.map erase := by
  induction ns with
  | nil => rfl
  | cons n ns ih => rw [eraseAll, ih, List.map_cons]

theorem erase_mk (kind : NodeKind) (token : Option Token) (children : List Node) (span : Span) :
    erase ⟨kind, token, children, span⟩ =
      ⟨kind, token.map Token.erase, children.map erase, ⟨0, 0⟩⟩ := by
  rw [erase, eraseAll_eq_map]

section Fields

variable (n : Node)

@[simp]
theorem kind_erase : n.erase.kind = n.kind := by
  obtain ⟨kind, token, children, span⟩ := n
  rw [erase_mk]

@[simp]
theorem token_erase : n.erase.token = n.token.map Token.erase := by
  obtain ⟨kind, token, children, span⟩ := n
  rw [erase_mk]

@[simp]
theorem children_erase : n.erase.children = n.children.map erase := by
  obtain ⟨kind, token, children, span⟩ := n
  rw [erase_mk]

@[simp]
theorem span_erase : n.erase.span = ⟨0, 0⟩ := by
  obtain ⟨kind, token, children, span⟩ := n
  rw [erase_mk]

@[simp]
theorem identifier_erase : n.erase.identifier = n.identifier := by
  unfold identifier
  rw [kind_erase, token_erase, Option.map_map]
  rfl

end Fields

mutual

theorem print_erase : ∀ n : Node, n.erase.print = n.print
  | ⟨kind, token, children, span⟩ => by
    have hall := printAll_erase children
    rw [erase_mk]
    cases kind with
    | root | call | function => simp only [print, hall]
    | define => simp only [print, hall, List.isEmpty_map]
    | _ => cases token <;> simp only [print] <;> rfl

theorem printAll_erase : ∀ ns : List Node, printAll (ns.map erase) = printAll ns
  | [] => rfl
  | n :: ns => by rw [List.map_cons, printAll, printAll, print_erase n, printAll_erase ns]

end

theorem spanOf_erase (ns : List Node) : spanOf (ns.map erase) = ⟨0, 0⟩ := by
  unfold spanOf
  rw [List.head?_map, List.getLast?_map]
  cases ns.head? <;> cases ns.getLast? <;> simp [Span.merge]

theorem erase_program (ns : List Node) : (program ns).erase = program (ns.map erase) := by
  rw [program, program, spanOf_erase, erase_mk, Option.map_none]

theorem erase_body (ns : List Node) : (body ns).erase = body (ns.map erase) := by
  rw [body, body, spanOf_erase, erase_mk, Option.map_none]

theorem erase_leaf (t : Token) : (leaf t).erase = leaf t.erase := by
  rw [leaf, leaf, ofToken, ofToken, erase_mk]
  rfl

end Node

/-! ## values -/

def Closure.erase (f : Closure) : Closure := { f with body := f.body.erase }

def Callable.erase : Callable → Callable
  | .primitive p => .primitive p
  | .closure f => .closure f.erase

def Value.erase : Value → Value
  | .number n => .number n
  | .string s => .string s
  | .callable c => .callable c.erase

namespace Value

variable (v : Value)

@[simp]
theorem number?_erase : v.erase.number? = v.number? := by
  cases v <;> rfl

@[simp]
theorem type_erase : v.erase.type = v.type := by
  cases v <;> rfl

@[simp]
theorem print_erase : v.erase.print = v.print := by
  cases v with
  | callable c => cases c <;> rfl
  | number | string => rfl

end Value

/-! ## scopes -/

namespace Bindings

def erase (b : Bindings) : Bindings := b.map fun e => (e.1, e.2.erase)

theorem get?_erase (b : Bindings) (name : String) :
    b.erase.get? name = (b.get? name).map Value.erase := by
  induction b with
  | nil => rfl
  | cons e rest ih =>
    by_cases h : e.1 = name
    · simp [erase, get?, h]
    · simpa [erase, get?, h] using ih

theorem set_erase (b : Bindings) (name : String) (v : Value) :
    b.erase.set name v.erase = (b.set name v).erase := by
  induction b with
  | nil => rfl
  | cons e rest ih =>
    by_cases h : e.1 = name
    · simp [erase, set, h]
    · simpa [erase, set, h] using ih

end Bindings

def Scope.erase (s : Scope) : Scope := ⟨s.parent, s.bindings.erase⟩

namespace Scopes

def erase (a : Scopes) : Scopes := ⟨a.arena.map Scope.erase⟩

variable (a : Scopes)

@[simp]
theorem size_erase : a.erase.size = a.size := by simp [erase, size]

theorem get?_erase (id : ScopeId) : a.erase.get? id = (a.get? id).map Scope.erase := by
  simp [erase, get?]

theorem findWithin_erase (name : String) (fuel : Nat) : ∀ id,
    a.erase.findWithin name fuel id = (a.findWithin name fuel id).map Value.erase := by
  induction fuel with
  | zero => intro id; rfl
  | succ fuel ih =>
    intro id
    rw [findWithin, findWithin, get?_erase]
    cases a.get? id with
    | none => rfl
    | some scope =>
      simp only [Option.map_some, Option.bind_some, Scope.erase, Bindings.get?_erase]
      cases Bindings.get? name scope.bindings with
      | some v => rfl
      | none =>
        cases scope.parent with
        | none => rfl
        | some p => exact ih p

theorem find_erase (id : ScopeId) (name : String) :
    a.erase.find id name = (a.find id name).map Value.erase := by
  rw [find, find, size_erase, findWithin_erase]

theorem bind_erase (id : ScopeId) (name : String) (v : Value) :
    a.erase.bind id name v.erase = (a.bind id name v).erase := by
  unfold bind
  rw [get?_erase]
  cases a.get? id with
  | none => rfl
  | some scope => simp [erase, Scope.erase, Bindings.set_erase, Array.map_setIfInBounds]

theorem spawn_erase (p : ScopeId) : a.erase.spawn p = ((a.spawn p).1, (a.spawn p).2.erase) := by
  simp [spawn, erase, size, Scope.erase, Bindings.erase]

end Scopes

def Interpreter.erase (i : Interpreter) : Interpreter := ⟨i.scopes.erase, i.out⟩

/-! ## errors and outcomes -/

section Results

variable {ε δ α : Type} (f : ε → δ)

@[simp]
theorem mapError_ok (a : α) : (Except.ok a : Except ε α).mapError f = .ok a := rfl

@[simp]
theorem mapError_error (e : ε) : (Except.error e : Except ε α).mapError f = .error (f e) := rfl

end Results

namespace EvalError

def erase : EvalError → EvalError
  | notDefined name _ => notDefined name ⟨0, 0⟩
  | notCallable name _ => notCallable name ⟨0, 0⟩
  | arityMismatch name expected got _ => arityMismatch name expected got ⟨0, 0⟩
  | primitiveArity p expected got _ => primitiveArity p expected got ⟨0, 0⟩
  | notANumber p index found _ => notANumber p index found ⟨0, 0⟩
  | divisionByZero p _ => divisionByZero p ⟨0, 0⟩
  | integerOverflow p _ => integerOverflow p ⟨0, 0⟩
  | invalidParameter found _ => invalidParameter found ⟨0, 0⟩
  | malformedDefine fault _ => malformedDefine fault ⟨0, 0⟩
  | noValue expression _ => noValue expression ⟨0, 0⟩
  | invalidLiteral text kind _ => invalidLiteral text kind ⟨0, 0⟩
  | output error => output error
  | notRoot kind => notRoot kind

theorem message_erase (e : EvalError) : e.erase.message = e.message := by
  cases e <;> rfl

end EvalError

/-- The outcome without places, where `f` takes them from the value. -/
def Outcome.erase {α β : Type} (f : α → β) : Outcome α → Outcome β
  | .value a => .value (f a)
  | .error e => .error e.erase
  | .outOfFuel => .outOfFuel

end SmallScheme
