import SmallScheme.Evaluation

/-!
Where errors come from. Every error of an evaluation is raised at a node, names its place, and
quotes it where it quotes anything.

* `EvalError.CalledAt span` — the errors of the call of a procedure at the place `span`;
* `FailsAt span` — the computations that have no other errors, such as those of the primitives;
* `Node.Raises n e` — the errors that the evaluator raises at the node `n`.
-/

namespace SmallScheme

/-! ## errors of a call -/

/-- The error is one of a call at the given place: of the number of its arguments, of one of them,
or of the result. -/
inductive EvalError.CalledAt (span : Span) : EvalError → Prop
  | arityMismatch (name : String) (expected got : Nat) :
      CalledAt span (.arityMismatch name expected got span)
  | primitiveArity (p : Primitive) (expected : Arity) (got : Nat) :
      CalledAt span (.primitiveArity p expected got span)
  | notANumber (p : Primitive) (index : Nat) (found : ValueType) :
      CalledAt span (.notANumber p index found span)
  | divisionByZero (p : Primitive) : CalledAt span (.divisionByZero p span)
  | integerOverflow (p : Primitive) : CalledAt span (.integerOverflow p span)

/-- The computation fails with no other errors than those of a call at the given place. -/
def FailsAt {α : Type} (span : Span) (r : Except EvalError α) : Prop :=
  ∀ e, r = .error e → e.CalledAt span

namespace FailsAt

variable {α β : Type} {span : Span}

theorem ok (a : α) : FailsAt span (.ok a) := by
  intro e h
  cases h

theorem error {e : EvalError} (h : e.CalledAt span) : FailsAt span (.error e : Except _ α) := by
  rintro _ ⟨⟩
  exact h

theorem bind {x : Except EvalError α} {f : α → Except EvalError β} (hx : FailsAt span x)
    (hf : ∀ a, FailsAt span (f a)) : FailsAt span (x >>= f) := by
  cases x with
  | ok a => exact hf a
  | error e => exact error (hx e rfl)

theorem map {x : Except EvalError α} (f : α → β) (hx : FailsAt span x) :
    FailsAt span (x.map f) := by
  cases x with
  | ok a => exact ok (f a)
  | error e => exact error (hx e rfl)

end FailsAt

namespace Primitive

variable (p : Primitive) (span : Span)

theorem operand_failsAt (index : Nat) (v : Value) : FailsAt span (p.operand span index v) := by
  unfold operand
  split
  · exact .ok _
  · exact .error (.notANumber p index _)

theorem mapError_failsAt {α : Type} (r : Except ArithmeticError α) :
    FailsAt span (r.mapError (p.arithmeticError span)) := by
  rcases r with (_ | _) | a
  · exact .error (.divisionByZero p)
  · exact .error (.integerOverflow p)
  · exact .ok a

theorem fold_failsAt (op : Operator) (args : List Value) : ∀ acc index,
    FailsAt span (p.fold span op acc index args) := by
  induction args with
  | nil => intro acc index; exact .ok acc
  | cons v args ih =>
    intro acc index
    refine .bind (p.operand_failsAt span index v) fun n => ?_
    exact .bind (p.mapError_failsAt span _) fun acc' => ih acc' (index + 1)

theorem difference_failsAt (args : List Value) : FailsAt span (difference span args) := by
  rcases args with _ | ⟨v, _ | ⟨w, rest⟩⟩
  · exact .error (.primitiveArity _ _ _)
  · exact .bind (operand_failsAt _ span 1 v) fun n => mapError_failsAt _ span _
  · exact .bind (operand_failsAt _ span 1 v) fun n => fold_failsAt _ span _ _ _ _

theorem quotient_failsAt (args : List Value) : FailsAt span (quotient span args) := by
  rcases args with _ | ⟨a, _ | ⟨b, _ | ⟨c, rest⟩⟩⟩
  · exact .error (.primitiveArity _ _ _)
  · exact .error (.primitiveArity _ _ _)
  · refine .bind (operand_failsAt _ span 1 a) fun m => ?_
    exact .bind (operand_failsAt _ span 2 b) fun n => mapError_failsAt _ span _
  · exact .error (.primitiveArity _ _ _)

theorem outputText_failsAt (args : List Value) : FailsAt span (p.outputText span args) := by
  unfold outputText
  split
  · exact .ok _
  · exact .error (.primitiveArity _ _ _)
  · exact .ok _
  · exact .ok _
  · exact .error (.primitiveArity _ _ _)

end Primitive

/-! ## errors of a node -/

/-- The evaluator may raise the error at the node. -/
inductive Node.Raises (n : Node) : EvalError → Prop
  | noValue : Raises n (.noValue n.print n.span)
  | literal {e : EvalError} : n.kind = .literal → literalValue n = .error e → Raises n e
  | notDefined : n.kind = .variable → Raises n (.notDefined (n.identifier.getD "") n.span)
  | notCallable : Raises n (.notCallable n.print n.span)
  | call {e : EvalError} : n.kind = .call → e.CalledAt n.span → Raises n e
  | parameter : n.identifier = none → Raises n (.invalidParameter n.print n.span)
  | definition {fault : DefineFault} : n.kind = .define → fault ≠ .noName → fault ≠ .noTarget →
      Raises n (.malformedDefine fault n.span)
  /-- The head of a definition is a call of nothing. -/
  | noName : n.kind = .call → n.children = [] → Raises n (.malformedDefine .noName n.span)
  /-- The head of a definition is neither a name nor a call. -/
  | noTarget : n.kind ≠ .variable → n.kind ≠ .call → Raises n (.malformedDefine .noTarget n.span)

theorem literalValue_ne_closure {n : Node} {v : Value} (h : literalValue n = .ok v) (f : Closure) :
    v ≠ .callable (.closure f) := by
  rintro rfl
  unfold literalValue at h
  split at h
  · cases h
  · next t _ =>
    cases hkind : t.kind with
    | integer => cases hread : readInt t.text <;> simp [hkind, hread] at h
    | float => cases hread : readFloat t.text <;> simp [hkind, hread] at h
    | paren | identifier | string | quote => simp [hkind] at h

theorem headNames_error {ns : List Node} {e : EvalError} (h : headNames ns = .error e) :
    ∃ n ∈ ns, n.Raises e := by
  induction ns with
  | nil => cases h
  | cons n ns ih =>
    rw [headNames] at h
    split at h
    · next hnone =>
      cases h
      exact ⟨n, List.mem_cons_self, .parameter hnone⟩
    · cases hrest : headNames ns with
      | ok names => rw [hrest] at h; cases h
      | error e' =>
        rw [hrest] at h
        cases h
        obtain ⟨m, hm, hraises⟩ := ih hrest
        exact ⟨m, List.mem_cons_of_mem _ hm, hraises⟩

theorem Node.kind_of_identifier {n : Node} {name : String} (h : n.identifier = some name) :
    n.kind = .variable := by
  unfold identifier at h
  split at h
  · assumption
  · cases h

theorem eq_nil_of_headNames {ns : List Node} (h : headNames ns = .ok []) : ns = [] := by
  cases ns with
  | nil => rfl
  | cons n ns =>
    rw [headNames] at h
    split at h
    · cases h
    · cases hrest : headNames ns with
      | ok names => rw [hrest] at h; cases h
      | error e => rw [hrest] at h; cases h

theorem mem_of_headNames {ns : List Node} {names : List String} (h : headNames ns = .ok names) :
    ∀ name ∈ names, ∃ n ∈ ns, n.kind = .variable ∧ n.identifier.getD "" = name := by
  induction ns generalizing names with
  | nil => cases h; simp
  | cons n ns ih =>
    rw [headNames] at h
    split at h
    · cases h
    · next name hname =>
      cases hrest : headNames ns with
      | error e => rw [hrest] at h; cases h
      | ok rest =>
        rw [hrest] at h
        cases h
        intro x hx
        rcases List.mem_cons.1 hx with rfl | hx
        · exact ⟨n, List.mem_cons_self, Node.kind_of_identifier hname, by rw [hname]; rfl⟩
        · obtain ⟨m, hm, hm'⟩ := ih hrest x hx
          exact ⟨m, List.mem_cons_of_mem _ hm, hm'⟩

end SmallScheme
