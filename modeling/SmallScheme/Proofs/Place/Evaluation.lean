import SmallScheme.Proofs.Place.Erasure

/-!
The evaluator does not look at places.

* `Eval.Erases f x y` — the computation `y` does on states without places what `x` does, with the
  same outcome up to places;
* `evaluateNode_erases` and `evaluate_erases`: so does the evaluation of a tree without places.
-/

namespace SmallScheme

/-! ## computations -/

/-- From a state without places, `y` ends as `x` does from the full state, up to places. -/
def Eval.Erases {α β : Type} (f : α → β) (x : Eval α) (y : Eval β) : Prop :=
  ∀ i, y i.erase = ((x i).1.erase f, (x i).2.erase)

namespace Eval.Erases

variable {α β γ δ : Type} {f : α → β} {g : γ → δ}

theorem pure (f : α → β) (a : α) : Erases f (Pure.pure a) (Pure.pure (f a)) := fun _ => rfl

theorem fail (f : α → β) (e : EvalError) : Erases f (Eval.fail e) (Eval.fail e.erase) :=
  fun _ => rfl

theorem bind {x : Eval α} {y : Eval β} {k : α → Eval γ} {k' : β → Eval δ} (hx : Erases f x y)
    (hk : ∀ a, Erases g (k a) (k' (f a))) : Erases g (x >>= k) (y >>= k') := by
  intro i
  rw [bind_apply, bind_apply, hx i]
  rcases x i with ⟨a | e | _, j⟩
  · exact hk a j
  · rfl
  · rfl

theorem find (s : ScopeId) (name : String) :
    Erases (Option.map Value.erase) (Eval.find s name) (Eval.find s name) := by
  intro i
  simp only [Eval.find, Interpreter.erase, Scopes.find_erase]
  rfl

theorem bindName (s : ScopeId) (name : String) (v : Value) :
    Erases id (Eval.bindName s name v) (Eval.bindName s name v.erase) := by
  intro i
  simp only [Eval.bindName, Interpreter.erase, Scopes.bind_erase]
  rfl

theorem spawn (p : ScopeId) : Erases id (Eval.spawn p) (Eval.spawn p) := by
  intro i
  simp only [Eval.spawn, Interpreter.erase, Scopes.spawn_erase]
  rfl

theorem write (text : String) : Erases id (Eval.write text) (Eval.write text) := by
  intro i
  simp only [Eval.write, Interpreter.erase]
  split <;> rfl

theorem flush : Erases id Eval.flush Eval.flush := by
  intro i
  simp only [Eval.flush, Interpreter.erase]
  split <;> rfl

end Eval.Erases

/-! ## primitives -/

namespace Primitive

variable (p : Primitive) (span : Span)

theorem operand_erase (index : Nat) (v : Value) :
    p.operand ⟨0, 0⟩ index v.erase = (p.operand span index v).mapError EvalError.erase := by
  rw [operand, operand, Value.number?_erase, Value.type_erase]
  cases v.number? <;> rfl

theorem mapError_arithmeticError {α : Type} (r : Except ArithmeticError α) :
    r.mapError (p.arithmeticError ⟨0, 0⟩) =
      (r.mapError (p.arithmeticError span)).mapError EvalError.erase := by
  rcases r with (_ | _) | a <;> rfl

theorem fold_erase (op : Operator) (args : List Value) : ∀ acc index,
    p.fold ⟨0, 0⟩ op acc index (args.map Value.erase) =
      (p.fold span op acc index args).mapError EvalError.erase := by
  induction args with
  | nil => intro acc index; rfl
  | cons v args ih =>
    intro acc index
    rw [List.map_cons, fold, fold, p.operand_erase span]
    cases p.operand span index v with
    | error e => rfl
    | ok n =>
      have hop : p.operate ⟨0, 0⟩ op acc n = (p.operate span op acc n).mapError EvalError.erase :=
        p.mapError_arithmeticError span _
      simp only [mapError_ok, Bind.bind, Except.bind, hop]
      cases p.operate span op acc n with
      | error e => rfl
      | ok acc' => exact ih acc' (index + 1)

theorem difference_erase (args : List Value) :
    difference ⟨0, 0⟩ (args.map Value.erase) =
      (difference span args).mapError EvalError.erase := by
  rcases args with _ | ⟨v, _ | ⟨w, rest⟩⟩
  · rfl
  · simp only [List.map_cons, List.map_nil, difference, minus.operand_erase span]
    cases minus.operand span 1 v with
    | error e => rfl
    | ok n => exact minus.mapError_arithmeticError span n.negate
  · simp only [List.map_cons, difference, minus.operand_erase span]
    cases minus.operand span 1 v with
    | error e => rfl
    | ok n => exact minus.fold_erase span .sub (w :: rest) n 2

theorem quotient_erase (args : List Value) :
    quotient ⟨0, 0⟩ (args.map Value.erase) = (quotient span args).mapError EvalError.erase := by
  rcases args with _ | ⟨a, _ | ⟨b, _ | ⟨c, rest⟩⟩⟩
  · rfl
  · rfl
  · simp only [List.map_cons, List.map_nil, quotient, divide.operand_erase span]
    cases divide.operand span 1 a with
    | error e => rfl
    | ok n =>
      cases divide.operand span 2 b with
      | error e => rfl
      | ok m => exact divide.mapError_arithmeticError span _
  · simp [quotient, EvalError.erase]

theorem outputText_erase (args : List Value) :
    p.outputText ⟨0, 0⟩ (args.map Value.erase) =
      (p.outputText span args).mapError EvalError.erase := by
  rcases args with _ | ⟨a, _ | ⟨b, rest⟩⟩ <;> cases p <;>
    simp [outputText, EvalError.erase]

theorem apply_erases (args : List Value) :
    Eval.Erases (Option.map Value.erase) (p.apply args span)
      (p.apply (args.map Value.erase) ⟨0, 0⟩) := by
  have hnumber : ∀ r : Except EvalError Number,
      Eval.Erases (Option.map Value.erase) (Eval.ofExcept (r.map fun n => some (.number n)))
        (Eval.ofExcept ((r.mapError EvalError.erase).map fun n => some (.number n))) := by
    intro r
    cases r <;> exact fun _ => rfl
  cases p with
  | plus => simp only [apply, plus.fold_erase span]; exact hnumber _
  | multiply => simp only [apply, multiply.fold_erase span]; exact hnumber _
  | minus => simp only [apply, difference_erase span]; exact hnumber _
  | divide => simp only [apply, quotient_erase span]; exact hnumber _
  | display | displayln | newline =>
    simp only [apply, outputText_erase _ span]
    refine Eval.Erases.bind (f := id) (fun i => ?_) fun text =>
      .bind (.write text) fun _ => .pure _ none
    cases outputText _ span args <;> rfl

end Primitive

/-! ## one step of the evaluator -/

/-- The evaluator `ev'` does on trees without places what `ev` does. -/
def Evaluator.Erases (ev ev' : Evaluator) : Prop :=
  ∀ n s, Eval.Erases (Option.map Value.erase) (ev n s) (ev' n.erase s)

theorem literalValue_erase (n : Node) :
    literalValue n.erase = ((literalValue n).map Value.erase).mapError EvalError.erase := by
  unfold literalValue
  rw [Node.token_erase, Node.print_erase, Node.span_erase]
  cases n.token with
  | none => rfl
  | some t =>
    obtain ⟨text, kind, position, span⟩ := t
    simp only [Option.map_some, Token.erase]
    cases kind with
    | integer => cases readInt text <;> rfl
    | float => cases readFloat text <;> rfl
    | paren | identifier | string | quote => rfl

theorem variableValue_erases (n : Node) (s : ScopeId) :
    Eval.Erases Value.erase (variableValue n s) (variableValue n.erase s) := by
  unfold variableValue
  rw [Node.identifier_erase, Node.span_erase]
  refine .bind (.find s _) fun r => ?_
  cases r with
  | some v => exact .pure _ v
  | none => exact .fail _ _

theorem headNames_erase (ns : List Node) :
    headNames (ns.map Node.erase) = (headNames ns).mapError EvalError.erase := by
  induction ns with
  | nil => rfl
  | cons n ns ih =>
    rw [List.map_cons, headNames, headNames, Node.identifier_erase, Node.print_erase,
      Node.span_erase]
    cases n.identifier with
    | none => rfl
    | some name =>
      simp only [ih]
      cases headNames ns <;> rfl

theorem bindAll_erases (s : ScopeId) (bs : List (String × Value)) :
    Eval.Erases id (bindAll s bs) (bindAll s (bs.map (Prod.map id Value.erase))) := by
  induction bs with
  | nil => exact .pure _ ()
  | cons b bs ih => exact .bind (.bindName s b.1 b.2) fun _ => ih

theorem defineFunction_erases (n target : Node) (rest : List Node) (s : ScopeId) :
    Eval.Erases (Option.map Value.erase) (defineFunction n target rest s)
      (defineFunction n.erase target.erase (rest.map Node.erase) s) := by
  unfold defineFunction
  rw [List.isEmpty_map, Node.span_erase, Node.span_erase, Node.children_erase, headNames_erase]
  by_cases hrest : rest.isEmpty
  · rw [if_pos hrest, if_pos hrest]
    exact .fail _ _
  · rw [if_neg hrest, if_neg hrest]
    refine Eval.Erases.bind (f := id) (fun i => ?_) fun names => ?_
    · cases headNames target.children <;> rfl
    · cases names with
      | nil => exact .fail _ _
      | cons name params =>
        refine .bind (.spawn s) fun captured => .bind (f := id) ?_ fun _ => .pure _ none
        have hbody := Node.erase_body rest
        exact hbody ▸ .bindName s name _

section Step

variable {ev ev' : Evaluator} (hev : ev.Erases ev')
include hev

theorem Evaluator.value_erases (n : Node) (s : ScopeId) :
    Eval.Erases Value.erase (ev.value n s) (ev'.value n.erase s) := by
  unfold Evaluator.value
  rw [Node.print_erase, Node.span_erase]
  refine .bind (hev n s) fun r => ?_
  cases r with
  | some v => exact .pure _ v
  | none => exact .fail _ _

theorem Evaluator.values_erases (s : ScopeId) (ns : List Node) :
    Eval.Erases (List.map Value.erase) (ev.values s ns) (ev'.values s (ns.map Node.erase)) := by
  induction ns with
  | nil => exact .pure _ []
  | cons n ns ih =>
    exact .bind (value_erases hev n s) fun v => .bind ih fun vs => .pure _ (v :: vs)

theorem Evaluator.sequence_erases (s : ScopeId) (ns : List Node) : ∀ last,
    Eval.Erases (Option.map Value.erase) (ev.sequence s last ns)
      (ev'.sequence s (last.map Value.erase) (ns.map Node.erase)) := by
  induction ns with
  | nil => intro last; exact .pure _ last
  | cons n ns ih => intro last; exact .bind (hev n s) ih

theorem applyWith_erases (c : Callable) (args : List Value) (span : Span) :
    Eval.Erases (Option.map Value.erase) (applyWith ev c args span)
      (applyWith ev' c.erase (args.map Value.erase) ⟨0, 0⟩) := by
  cases c with
  | primitive p => exact p.apply_erases span args
  | closure f =>
    simp only [applyWith, Callable.erase, callClosure, Closure.erase, List.length_map]
    by_cases hlen : args.length = f.params.length
    · rw [if_pos hlen, if_pos hlen, List.zip_map_right]
      exact .bind (.spawn f.scope) fun s =>
        .bind (bindAll_erases s _) fun _ => hev f.body s
    · rw [if_neg hlen, if_neg hlen]
      exact .fail _ _

theorem evaluateCall_erases (n : Node) (s : ScopeId) :
    Eval.Erases (Option.map Value.erase) (evaluateCall ev n s) (evaluateCall ev' n.erase s) := by
  unfold evaluateCall
  rw [Node.children_erase, Node.print_erase, Node.span_erase]
  cases n.children with
  | nil => exact .fail _ _
  | cons head arguments =>
    simp only [List.map_cons, Node.print_erase, Node.span_erase]
    refine .bind (Evaluator.value_erases hev head s) fun v => ?_
    cases v with
    | callable c =>
      exact .bind (Evaluator.values_erases hev s arguments) fun args =>
        applyWith_erases hev c args n.span
    | number | string => exact .fail _ _

theorem defineVariable_erases (n target : Node) (rest : List Node) (s : ScopeId) :
    Eval.Erases (Option.map Value.erase) (defineVariable ev n target rest s)
      (defineVariable ev' n.erase target.erase (rest.map Node.erase) s) := by
  unfold defineVariable
  rw [Node.span_erase, Node.identifier_erase]
  rcases rest with _ | ⟨expression, _ | ⟨m, rest⟩⟩
  · exact .fail _ _
  · exact .bind (Evaluator.value_erases hev expression s) fun v =>
      .bind (.bindName s _ v) fun _ => .pure _ none
  · exact .fail _ _

theorem evaluateDefine_erases (n : Node) (s : ScopeId) :
    Eval.Erases (Option.map Value.erase) (evaluateDefine ev n s)
      (evaluateDefine ev' n.erase s) := by
  unfold evaluateDefine
  rw [Node.children_erase, Node.span_erase]
  cases n.children with
  | nil => exact .fail _ _
  | cons target rest =>
    simp only [List.map_cons, Node.kind_erase, Node.span_erase]
    cases target.kind with
    | call => exact defineFunction_erases n target rest s
    | root | literal | define | function => exact .fail _ _
    | _ => exact defineVariable_erases hev n target rest s

theorem evaluateStep_erases : (evaluateStep ev).Erases (evaluateStep ev') := by
  intro n s
  unfold evaluateStep
  rw [Node.kind_erase]
  cases n.kind with
  | root | function =>
    simp only [Node.children_erase]
    exact Evaluator.sequence_erases hev s n.children none
  | literal =>
    simp only [literalValue_erase]
    intro i
    cases literalValue n <;> rfl
  | call => exact evaluateCall_erases hev n s
  | define => exact evaluateDefine_erases hev n s
  | _ => exact .bind (variableValue_erases n s) fun v => .pure _ (some v)

end Step

/-! ## whole evaluations -/

theorem evaluateNode_erases (fuel : Nat) : (evaluateNode fuel).Erases (evaluateNode fuel) := by
  induction fuel with
  | zero => intro n s i; rfl
  | succ fuel ih => exact evaluateStep_erases ih

theorem evaluate_erases (fuel : Nat) (root : Node) :
    Eval.Erases (Option.map Value.erase) (evaluate fuel root) (evaluate fuel root.erase) := by
  unfold evaluate
  rw [Node.kind_erase]
  split
  · exact .bind (evaluateNode_erases fuel root _) fun r => .bind .flush fun _ => .pure _ r
  · exact .fail _ _

end SmallScheme
