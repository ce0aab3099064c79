import SmallScheme.Evaluation.Error
import SmallScheme.Scope

/-!
Computations of the interpreter. A computation starts from a state of the interpreter and ends
in a state, whether it gives a value, fails, or is cut short because it went deeper than it was
allowed to. What it did before it failed stays done.
-/

namespace SmallScheme

inductive Outcome (α : Type) where
  | value (a : α)
  | error (e : EvalError)
  /-- The computation went deeper than it was allowed to. -/
  | outOfFuel
  deriving Repr

/-- The state of the interpreter: all scopes, and the output. -/
structure Interpreter where
  scopes : Scopes
  out : Sink
  deriving Repr

def Interpreter.new (globals : Bindings) (out : Sink) : Interpreter := ⟨.ofGlobals globals, out⟩

/-- A computation of the interpreter. -/
def Eval (α : Type) : Type := Interpreter → Outcome α × Interpreter

namespace Eval

variable {α β : Type}

def pure (a : α) : Eval α := fun s => (.value a, s)

def bind (x : Eval α) (f : α → Eval β) : Eval β := fun s =>
  match x s with
  | (.value a, s') => f a s'
  | (.error e, s') => (.error e, s')
  | (.outOfFuel, s') => (.outOfFuel, s')

instance : Monad Eval where
  pure := pure
  bind := bind

@[simp]
theorem pure_apply (a : α) (s : Interpreter) : (Pure.pure a : Eval α) s = (.value a, s) := rfl

theorem bind_apply (x : Eval α) (f : α → Eval β) (s : Interpreter) :
    (x >>= f) s = match x s with
      | (.value a, s') => f a s'
      | (.error e, s') => (.error e, s')
      | (.outOfFuel, s') => (.outOfFuel, s') := rfl

instance : LawfulMonad Eval := by
  refine LawfulMonad.mk' Eval (fun x => ?_) (fun a f => rfl) (fun x f g => ?_)
  · funext s
    show (x >>= Pure.pure) s = x s
    rw [bind_apply]
    rcases x s with ⟨a | e | _, s'⟩ <;> rfl
  · funext s
    rw [bind_apply, bind_apply, bind_apply]
    rcases x s with ⟨a | e | _, s'⟩ <;> rfl

def fail (e : EvalError) : Eval α := fun s => (.error e, s)

def exhausted : Eval α := fun s => (.outOfFuel, s)

/-- A result that was found without the state. -/
def ofExcept : Except EvalError α → Eval α
  | .ok a => pure a
  | .error e => fail e

def find (scope : ScopeId) (name : String) : Eval (Option Value) := fun s =>
  (.value (s.scopes.find scope name), s)

def bindName (scope : ScopeId) (name : String) (value : Value) : Eval Unit := fun ⟨scopes, out⟩ =>
  (.value (), ⟨scopes.bind scope name value, out⟩)

def spawn (parent : ScopeId) : Eval ScopeId := fun ⟨scopes, out⟩ =>
  let (id, scopes) := scopes.spawn parent
  (.value id, ⟨scopes, out⟩)

def write (text : String) : Eval Unit := fun ⟨scopes, out⟩ =>
  match out.write (utf8 text) with
  | (.ok (), out) => (.value (), ⟨scopes, out⟩)
  | (.error e, out) => (.error (.output e), ⟨scopes, out⟩)

def flush : Eval Unit := fun s =>
  match s.out.flush with
  | .ok () => (.value (), s)
  | .error e => (.error (.output e), s)

end Eval

end SmallScheme
