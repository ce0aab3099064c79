import SmallScheme.Evaluation

/-!
More fuel does not change how an evaluation ends.

* `Eval.Refines x y` — wherever `x` ends by itself, `y` ends in the same way and the same state;
* `evaluateNode_refines`, `evaluate_refines`: an evaluation is refined by the same one with at
  least as much fuel.
-/

namespace SmallScheme

/-! ## computations -/

/-- The computation `y` does what `x` does wherever `x` does not run out of fuel. -/
def Eval.Refines {α : Type} (x y : Eval α) : Prop := ∀ i, (x i).1 ≠ .outOfFuel → y i = x i

namespace Eval.Refines

variable {α β : Type}

theorem refl (x : Eval α) : Refines x x := fun _ _ => rfl

theorem bind {x y : Eval α} {f g : α → Eval β} (hx : Refines x y) (hf : ∀ a, Refines (f a) (g a)) :
    Refines (x >>= f) (y >>= g) := by
  intro i hend
  rw [bind_apply] at hend ⊢
  rw [bind_apply]
  have hxi := hx i
  rcases hxv : x i with ⟨a | e | _, j⟩
  · rw [hxv] at hend hxi
    rw [hxi (by simp)]
    exact hf a j hend
  · rw [hxv] at hxi
    rw [hxi (by simp)]
  · rw [hxv] at hend
    exact absurd rfl hend

end Eval.Refines

/-! ## one step of the evaluator -/

/-- The evaluator `ev'` does what `ev` does wherever `ev` does not run out of fuel. -/
def Evaluator.Refines (ev ev' : Evaluator) : Prop := ∀ n s, Eval.Refines (ev n s) (ev' n s)

section Step

variable {ev ev' : Evaluator} (hev : ev.Refines ev')
include hev

theorem Evaluator.value_refines (n : Node) (s : ScopeId) :
    Eval.Refines (ev.value n s) (ev'.value n s) :=
  .bind (hev n s) fun _ => .refl _

theorem Evaluator.values_refines (s : ScopeId) (ns : List Node) :
    Eval.Refines (ev.values s ns) (ev'.values s ns) := by
  induction ns with
  | nil => exact .refl _
  | cons n ns ih => exact .bind (value_refines hev n s) fun _ => .bind ih fun _ => .refl _

theorem Evaluator.sequence_refines (s : ScopeId) (ns : List Node) : ∀ last,
    Eval.Refines (ev.sequence s last ns) (ev'.sequence s last ns) := by
  induction ns with
  | nil => intro last; exact .refl _
  | cons n ns ih => intro last; exact .bind (hev n s) ih

theorem applyWith_refines (c : Callable) (args : List Value) (span : Span) :
    Eval.Refines (applyWith ev c args span) (applyWith ev' c args span) := by
  cases c with
  | primitive p => exact .refl _
  | closure f =>
    simp only [applyWith, callClosure]
    split
    · exact .bind (.refl _) fun s => .bind (.refl _) fun _ => hev f.body s
    · exact .refl _

theorem evaluateCall_refines (n : Node) (s : ScopeId) :
    Eval.Refines (evaluateCall ev n s) (evaluateCall ev' n s) := by
  unfold evaluateCall
  split
  · exact .refl _
  · refine .bind (Evaluator.value_refines hev _ s) fun v => ?_
    cases v with
    | callable c =>
      exact .bind (Evaluator.values_refines hev s _) fun args => applyWith_refines hev c args n.span
    | number | string => exact .refl _

theorem evaluateDefine_refines (n : Node) (s : ScopeId) :
    Eval.Refines (evaluateDefine ev n s) (evaluateDefine ev' n s) := by
  unfold evaluateDefine
  split
  · exact .refl _
  · split
    · unfold defineVariable
      split
      · exact .bind (Evaluator.value_refines hev _ s) fun _ => .refl _
      · exact .refl _
    · exact .refl _
    · exact .refl _

theorem evaluateStep_refines : (evaluateStep ev).Refines (evaluateStep ev') := by
  intro n s
  unfold evaluateStep
  split
  · exact Evaluator.sequence_refines hev s _ none
  · exact Evaluator.sequence_refines hev s _ none
  · exact .refl _
  · exact .refl _
  · exact evaluateCall_refines hev n s
  · exact evaluateDefine_refines hev n s

end Step

/-! ## whole evaluations -/

theorem evaluateNode_refines : ∀ {m n : Nat}, m ≤ n → (evaluateNode m).Refines (evaluateNode n)
  | 0, _, _ => fun _ _ _ hend => absurd rfl hend
  | m + 1, 0, h => absurd h (Nat.not_succ_le_zero m)
  | _ + 1, _ + 1, h => evaluateStep_refines (evaluateNode_refines (Nat.le_of_succ_le_succ h))

theorem evaluate_refines {m n : Nat} (h : m ≤ n) (root : Node) :
    Eval.Refines (evaluate m root) (evaluate n root) := by
  unfold evaluate
  split
  · exact .bind (evaluateNode_refines h root _) fun _ => .refl _
  · exact .refl _

end SmallScheme
