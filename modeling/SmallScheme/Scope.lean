import SmallScheme.Value

/-!
Scopes. A scope binds names to values and has a parent, in which a name that it does not bind is
looked up. All scopes of a run stand in one arena in the order in which they were opened, the
global one first, and none is ever removed.
-/

namespace SmallScheme

/-! ## bindings -/

/-- Names with their values; a name occurs once. -/
abbrev Bindings := List (String × Value)

namespace Bindings

def get? (name : String) : Bindings → Option Value
  | [] => none
  | (n, v) :: rest => if n = name then some v else get? name rest

/-- Binds a name, in place of what it was bound to. -/
def set (name : String) (value : Value) : Bindings → Bindings
  | [] => [(name, value)]
  | (n, v) :: rest => if n = name then (n, value) :: rest else (n, v) :: set name value rest

@[simp]
theorem get?_set (name other : String) (value : Value) (b : Bindings) :
    (b.set name value).get? other = if name = other then some value else b.get? other := by
  induction b with
  | nil => simp [set, get?]
  | cons e rest ih =>
    obtain ⟨n, v⟩ := e
    by_cases hn : n = name <;> by_cases ho : name = other <;> simp_all [set, get?]

def builtins : Bindings := Primitive.all.map fun p => (p.name, .callable (.primitive p))

end Bindings

/-! ## scopes -/

structure Scope where
  parent : Option ScopeId
  bindings : Bindings
  deriving Repr, Inhabited

structure Scopes where
  arena : Array Scope
  deriving Repr

namespace Scopes

def ofGlobals (globals : Bindings) : Scopes := ⟨#[⟨none, globals⟩]⟩

def global : ScopeId := 0

def size (s : Scopes) : Nat := s.arena.size

def get? (s : Scopes) (id : ScopeId) : Option Scope := s.arena[id]?

/-- Looks a name up in a scope and at most `fuel - 1` scopes above it. -/
def findWithin (s : Scopes) (name : String) : Nat → ScopeId → Option Value
  | 0, _ => none
  | fuel + 1, id =>
    (s.get? id).bind fun scope =>
      match Bindings.get? name scope.bindings with
      | some v => some v
      | none => scope.parent.bind (findWithin s name fuel)

/-- The value of a name in a scope: what the nearest scope on the way up from it binds it to. A
way that ends visits no scope twice, so that it is not longer than the arena. -/
def find (s : Scopes) (id : ScopeId) (name : String) : Option Value :=
  s.findWithin name s.size id

/-- Binds a name in a scope itself, never in one above it. -/
def bind (s : Scopes) (id : ScopeId) (name : String) (value : Value) : Scopes :=
  match s.get? id with
  | some scope =>
    ⟨s.arena.setIfInBounds id { scope with bindings := scope.bindings.set name value }⟩
  | none => s

/-- Opens a scope without bindings below another one. -/
def spawn (s : Scopes) (parent : ScopeId) : ScopeId × Scopes :=
  (s.size, ⟨s.arena.push ⟨some parent, []⟩⟩)

@[simp]
theorem size_bind (s : Scopes) (id : ScopeId) (name : String) (value : Value) :
    (s.bind id name value).size = s.size := by
  unfold bind
  split <;> simp [size]

@[simp]
theorem size_spawn (s : Scopes) (parent : ScopeId) : (s.spawn parent).2.size = s.size + 1 := by
  simp [spawn, size]

theorem get?_bind (s : Scopes) (id other : ScopeId) (name : String) (value : Value) :
    (s.bind id name value).get? other =
      if id = other then
        (s.get? id).map fun scope => { scope with bindings := scope.bindings.set name value }
      else s.get? other := by
  unfold bind
  split
  · next scope h =>
    have hlt : id < s.arena.size := (Array.getElem?_eq_some_iff.1 h).1
    by_cases ho : id = other
    · subst ho; rw [h]; simp [get?, hlt]
    · simp [get?, ho]
  · next h =>
    by_cases ho : id = other
    · subst ho; simp [h]
    · simp [ho]

theorem get?_spawn (s : Scopes) (parent id : ScopeId) :
    (s.spawn parent).2.get? id = if id = s.size then some ⟨some parent, []⟩ else s.get? id := by
  by_cases h : id = s.size
  · subst h; simp [spawn, get?, size]
  · rw [if_neg h, spawn, get?, get?, Array.getElem?_push]
    exact if_neg h

end Scopes

end SmallScheme
