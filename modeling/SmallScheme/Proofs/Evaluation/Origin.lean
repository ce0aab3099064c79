import SmallScheme.Proofs.Evaluation.Coupling
import SmallScheme.Proofs.Scope.Walk

/-!
Where evaluated code comes from. Functions keep the bodies of the definitions that made them, so
that an evaluation never leaves the code of its program and of the functions that were there before.

* `Value.MadeOf Stored`: a function whose body is made of the nodes in `Stored`;
* `EvalError.RaisedIn Code` — the error is raised at such a node, or the output is refused;
* `evaluate_raisedIn`: an evaluation of the nodes in `Code`, with functions made of the nodes in
  `Stored`, raises errors in `Code` only, and defines such functions only.
-/

namespace SmallScheme

/-- A function has a body of the given nodes. -/
def Value.MadeOf (Stored : Node → Prop) (v : Value) : Prop :=
  ∀ f : Closure, v = .callable (.closure f) → f.body.MadeOf Stored

/-- The error is raised at one of the given nodes, or the output is refused. -/
def EvalError.RaisedIn (Code : Node → Prop) (e : EvalError) : Prop :=
  (∃ cause, e = .output cause) ∨ ∃ n, Code n ∧ n.Raises e

theorem Node.MadeOf.mono {Code Code' : Node → Prop} (h : ∀ n, Code n → Code' n) {n : Node}
    (hn : n.MadeOf Code) : n.MadeOf Code' := by
  rcases hn with hcode | ⟨hkind, hchildren⟩
  · exact .inl (h n hcode)
  · exact .inr ⟨hkind, fun m hm => h m (hchildren m hm)⟩

theorem Value.MadeOf.mono {Code Code' : Node → Prop} (h : ∀ n, Code n → Code' n) {v : Value}
    (hv : v.MadeOf Code) : v.MadeOf Code' :=
  fun f hf => (hv f hf).mono h

theorem Node.Defines.kind_body {n : Node} {f : Closure} (h : n.Defines f) :
    f.body.kind = .function := by
  obtain ⟨-, target, rest, -, -, -, hbody⟩ := h
  rw [hbody]
  rfl

theorem Node.Defines.mem_children {n m : Node} {f : Closure} (h : n.Defines f)
    (hm : m ∈ f.body.children) : m ∈ n.children := by
  obtain ⟨-, target, rest, hchildren, -, -, hbody⟩ := h
  rw [hbody] at hm
  rw [hchildren]
  exact List.mem_cons_of_mem _ hm

/-- An interpreter whose functions are made of the nodes in `Stored`, beside itself. -/
def codeCoupling (Code Stored : Node → Prop) : Coupling where
  Linked := fun (i, j) => j = i ∧ i.scopes.AllBound (·.MadeOf Stored)
  Usable _ _ := True
  Known _ v := v.MadeOf Stored
  Code := Code
  Name _ := True
  Blamed := EvalError.RaisedIn Code

/-- What is evaluated is closed under parts, and holds all that functions are made of, now and
after any definition in it. -/
structure Covers (Code Stored : Node → Prop) : Prop where
  child : ∀ {n m}, Code n → m ∈ n.children → Code m
  stored : ∀ n, Stored n → Code n
  body : ∀ {n f m}, Code n → n.Defines f → m ∈ f.body.children → Stored m

section Code

variable {Code Stored : Node → Prop}

theorem codeCoupling_later (w w' : Pair) : (codeCoupling Code Stored).Later w w' :=
  ⟨fun _ h => h, fun _ h => h⟩

theorem Covers.kept (hcovers : Covers Code Stored) : (codeCoupling Code Stored).Kept where
  child := hcovers.child
  name _ _ := trivial
  raises hn he := .inr ⟨_, hn, he⟩
  refused e := .inl ⟨e, rfl⟩
  data _ _ h f hf := absurd hf (h f)
  runnable h := ⟨(h _ rfl).mono hcovers.stored, fun _ _ => trivial⟩
  size := by
    rintro i _ ⟨rfl, -⟩
    rfl
  find := by
    rintro i _ s x ⟨rfl, h⟩ - -
    exact ⟨rfl, fun v hv => h.find hv⟩
  bind := by
    rintro i _ s x v ⟨rfl, h⟩ - - hv
    exact ⟨⟨rfl, h.bind hv s x⟩, codeCoupling_later _ _⟩
  write := by
    rintro i _ bytes ⟨rfl, h⟩
    exact ⟨rfl, ⟨rfl, h⟩, codeCoupling_later _ _⟩
  flush := by
    rintro i _ ⟨rfl, -⟩
    rfl
  enter := by
    rintro i _ f ⟨rfl, h⟩ -
    exact ⟨⟨rfl, h.spawn f.scope⟩, codeCoupling_later _ _, trivial⟩
  capture := by
    rintro i _ s ⟨rfl, h⟩ -
    refine ⟨⟨rfl, h.spawn s⟩, codeCoupling_later _ _, ?_⟩
    -- a new function is made of the body of the definition
    rintro n f hn hdefines - _ ⟨⟩
    exact .inr ⟨.inr hdefines.kind_body, fun m hm => hcovers.body hn hdefines hm⟩

theorem evaluate_raisedIn (hcovers : Covers Code Stored) {i : Interpreter}
    (hi : i.scopes.AllBound (·.MadeOf Stored)) {root : Node} (hroot : root.kind = .root)
    (hcode : ∀ n ∈ root.children, Code n) (fuel : Nat) :
    (evaluate fuel root i).2.scopes.AllBound (·.MadeOf Stored) ∧
      ∀ e, (evaluate fuel root i).1 = .error e → e.RaisedIn Code := by
  have hagrees : (codeCoupling Code Stored).Agrees _ (i, i) (evaluate fuel root)
      (evaluate fuel root) :=
    hcovers.kept.evaluate fuel ⟨rfl, hi⟩ (.inr ⟨.inl hroot, hcode⟩) trivial
      fun hne => absurd hroot hne
  exact ⟨hagrees.linked.2, hagrees.blamed⟩

end Code

end SmallScheme
