import SmallScheme.Evaluation

/-!
What an evaluation does to the interpreter, effect by effect. All that an evaluation in a scope
does to the state is to bind names in that scope, to write, to open scopes, and to do the same
again in the scope of a call.

* `Guarantee R` — the relation `R` between the states before and after holds across each of these
  effects, and from one to the next;
* `Guarantee.evaluateNode` and `Guarantee.apply`: then it holds across every evaluation and every
  call, however it ends.
-/

namespace SmallScheme

/-! ## computations between two states -/

/-- The states before and after the computation are related, however it ends. -/
def Eval.Within {α : Type} (R : Interpreter → Interpreter → Prop) (x : Eval α) : Prop :=
  ∀ i, R i (x i).2

/-- A relation, for each scope, that holds between the states before and after each effect of an
evaluation in that scope. -/
structure Guarantee (R : ScopeId → Interpreter → Interpreter → Prop) : Prop where
  refl : ∀ s i, R s i i
  trans : ∀ {s i j k}, R s i j → R s j k → R s i k
  bind : ∀ s i name v, R s i ⟨i.scopes.bind s name v, i.out⟩
  write : ∀ s i bytes, R s i ⟨i.scopes, (i.out.write bytes).2⟩
  /-- What happens in a scope that was just opened is an effect in every other scope. -/
  inner : ∀ {s i j p}, R i.scopes.size ⟨(i.scopes.spawn p).2, i.out⟩ j → R s i j

namespace Guarantee

variable {R : ScopeId → Interpreter → Interpreter → Prop} {α β : Type} {s : ScopeId}

theorem andThen (h : Guarantee R) {x : Eval α} {f : α → Eval β} (hx : x.Within (R s))
    (hf : ∀ a, (f a).Within (R s)) : (x >>= f).Within (R s) := by
  intro i
  have hi := hx i
  rw [Eval.bind_apply]
  split
  · next a j heq =>
    rw [heq] at hi
    exact h.trans hi (hf a j)
  · next heq => rw [heq] at hi; exact hi
  · next heq => rw [heq] at hi; exact hi

theorem pure (h : Guarantee R) (a : α) : (Pure.pure a : Eval α).Within (R s) := fun i => h.refl s i

theorem fail (h : Guarantee R) (e : EvalError) : (Eval.fail e : Eval α).Within (R s) :=
  fun i => h.refl s i

theorem ofExcept (h : Guarantee R) (r : Except EvalError α) : (Eval.ofExcept r).Within (R s) := by
  cases r with
  | ok a => exact h.pure a
  | error e => exact h.fail e

theorem output (h : Guarantee R) (text : String) : (Eval.write text).Within (R s) := by
  intro i
  have hw := h.write s i (utf8 text)
  unfold Eval.write
  dsimp only
  split
  · next heq => rw [heq] at hw; exact hw
  · next heq => rw [heq] at hw; exact hw

theorem primitive (h : Guarantee R) (p : Primitive) (args : List Value) (span : Span) :
    (p.apply args span).Within (R s) := by
  cases p with
  | plus | multiply | minus | divide => exact h.ofExcept _
  | display | displayln | newline =>
    exact h.andThen (h.ofExcept _) fun text => h.andThen (h.output text) fun _ => h.pure _

theorem bindAll (h : Guarantee R) (bs : List (String × Value)) : (bindAll s bs).Within (R s) := by
  induction bs with
  | nil => exact h.pure ()
  | cons b bs ih => exact h.andThen (fun i => h.bind s i b.1 b.2) fun _ => ih

/-! ## one step of the evaluator -/

section Step

variable {ev : Evaluator} (h : Guarantee R) (hev : ∀ n s, (ev n s).Within (R s))
include h hev

theorem value (n : Node) : (ev.value n s).Within (R s) := by
  refine h.andThen (hev n s) fun r => ?_
  cases r with
  | some v => exact h.pure v
  | none => exact h.fail _

theorem values (ns : List Node) : (ev.values s ns).Within (R s) := by
  induction ns with
  | nil => exact h.pure []
  | cons n ns ih =>
    exact h.andThen (h.value hev n) fun v => h.andThen ih fun vs => h.pure (v :: vs)

theorem sequence (ns : List Node) : ∀ last, (ev.sequence s last ns).Within (R s) := by
  induction ns with
  | nil => intro last; exact h.pure last
  | cons n ns ih => intro last; exact h.andThen (hev n s) ih

theorem closure (f : Closure) (args : List Value) (span : Span) :
    (callClosure ev f args span).Within (R s) := by
  unfold callClosure
  split
  · -- all that follows the opening of the scope of the call happens in that scope
    intro i
    have hbody : (SmallScheme.bindAll i.scopes.size (f.params.zip args) >>= fun _ =>
        ev f.body i.scopes.size).Within (R i.scopes.size) :=
      h.andThen (h.bindAll _) fun _ => hev f.body _
    exact h.inner (hbody ⟨(i.scopes.spawn f.scope).2, i.out⟩)
  · exact h.fail _

theorem applyWith (c : Callable) (args : List Value) (span : Span) :
    (applyWith ev c args span).Within (R s) := by
  cases c with
  | primitive p => exact h.primitive p args span
  | closure f => exact h.closure hev f args span

theorem call (n : Node) : (evaluateCall ev n s).Within (R s) := by
  unfold evaluateCall
  split
  · exact h.fail _
  · refine h.andThen (h.value hev _) fun v => ?_
    cases v with
    | callable c =>
      exact h.andThen (h.values hev _) fun args => h.applyWith hev c args n.span
    | number | string => exact h.fail _

theorem define (n : Node) : (evaluateDefine ev n s).Within (R s) := by
  unfold evaluateDefine
  split
  · exact h.fail _
  · next target rest _ =>
    split
    · unfold defineVariable
      split
      · refine h.andThen (h.value hev _) fun v => ?_
        exact h.andThen (fun i => h.bind s i _ v) fun _ => h.pure none
      · exact h.fail _
    · unfold defineFunction
      split
      · exact h.fail _
      · refine h.andThen (h.ofExcept _) fun names => ?_
        cases names with
        | nil => exact h.fail _
        | cons name params =>
          refine h.andThen (fun i => h.inner (p := s) (h.refl _ _)) fun captured => ?_
          exact h.andThen (fun i => h.bind s i name _) fun _ => h.pure none
    · exact h.fail _

theorem step (n : Node) : (evaluateStep ev n s).Within (R s) := by
  unfold evaluateStep
  split
  · exact h.sequence hev _ none
  · exact h.sequence hev _ none
  · exact h.ofExcept _
  · unfold variableValue
    refine h.andThen (h.andThen (fun i => h.refl s i) fun r => ?_) fun v => h.pure (some v)
    cases r with
    | some v => exact h.pure v
    | none => exact h.fail _
  · exact h.call hev n
  · exact h.define hev n

end Step

/-! ## whole evaluations -/

theorem evaluateNode (h : Guarantee R) (fuel : Nat) :
    ∀ n s, (evaluateNode fuel n s).Within (R s) := by
  induction fuel with
  | zero => intro n s i; exact h.refl s i
  | succ fuel ih => intro n s; exact h.step ih n

theorem apply (h : Guarantee R) (fuel : Nat) (c : Callable) (args : List Value) (span : Span)
    (s : ScopeId) : (apply fuel c args span).Within (R s) :=
  h.applyWith (h.evaluateNode fuel) c args span

end Guarantee

end SmallScheme
