import SmallScheme.Proofs.Evaluation.Origin
import SmallScheme.Proofs.Node.Grammar
import SmallScheme.Proofs.Node.Literal
import SmallScheme.Proofs.Token.Lossless

/-!
Guards that sources never meet. The evaluator takes any tree, and looks for parts that a tree made
by hand may lack. The trees of sources lack none of them, and neither do the bodies of the functions
that they define, which an interpreter keeps from one source to the next.

* `Node.Complete n` — a call has something to call, and a literal or a variable has its token;
* `NodeOf srcs n` — the node stands in the tree of one of the sources; `NodeOf.cases` says what it
  can be;
* `Interpreter.Ran srcs i` — the state after the programs of the sources, one after another;
* `guards_never_met`: what the evaluation of one more source does not come to.
-/

namespace SmallScheme

/-! ## nodes of sources -/

/-- A call has something to call, and a literal or a variable has its token. -/
structure Node.Complete (n : Node) : Prop where
  call : n.kind = .call → n.children ≠ []
  leaf : n.kind = .literal ∨ n.kind = .variable → n.token ≠ none

/-- The node stands in the tree of one of the sources. -/
def NodeOf (srcs : List String) (n : Node) : Prop :=
  ∃ src ∈ srcs, ∃ ts root, lex src = .ok ts ∧ parse ts = .ok root ∧ Node.Within root.children n

def TokenOf (srcs : List String) (t : Token) : Prop :=
  ∃ src ∈ srcs, ∃ ts, lex src = .ok ts ∧ t ∈ ts

namespace NodeOf

variable {srcs : List String} {n : Node}

theorem append (h : NodeOf srcs n) (more : List String) : NodeOf (srcs ++ more) n := by
  obtain ⟨src, hsrc, h⟩ := h
  exact ⟨src, List.mem_append_left more hsrc, h⟩

theorem child {m : Node} (h : NodeOf srcs n) (hm : m ∈ n.children) : NodeOf srcs m := by
  obtain ⟨src, hsrc, ts, root, hlex, hparse, hn⟩ := h
  exact ⟨src, hsrc, ts, root, hlex, hparse, .child hn hm⟩

/-- A node of a source is a token by itself, a call of something or a definition. -/
theorem cases (h : NodeOf srcs n) :
    (∃ t, TokenOf srcs t ∧ t.IsAtom ∧ t.kind.Shape t.text.toList ∧ n = Node.leaf t) ∨
      (n.kind = .call ∧ n.children ≠ []) ∨ n.kind = .define := by
  obtain ⟨src, hsrc, ts, root, hlex, hparse, hn⟩ := h
  obtain ⟨ns, hyields, rfl⟩ := parse_eq_ok_iff_yields.1 hparse
  obtain ⟨pre, seg, post, rfl, hseg⟩ := hyields.exists_segment hn
  cases hseg with
  | @leaf t _ _ hatom _ =>
    have hshape := (spells_of_lex hlex).shape t (by simp)
    exact .inl ⟨t, ⟨src, hsrc, _, hlex, by simp⟩, hatom, hshape, rfl⟩
  | call _ _ hne => exact .inr (.inl ⟨rfl, hne⟩)
  | define => exact .inr (.inr rfl)

theorem complete (h : NodeOf srcs n) : n.Complete := by
  rcases h.cases with ⟨t, -, -, -, rfl⟩ | ⟨hkind, hne⟩ | hkind
  · refine ⟨fun hcall => ?_, fun _ => by simp [Node.leaf, Node.ofToken]⟩
    by_cases hidentifier : t.kind = .identifier <;>
      simp [Node.leaf, Node.ofToken, hidentifier] at hcall
  · exact ⟨fun _ => hne, by simp [hkind]⟩
  · exact ⟨by simp [hkind], by simp [hkind]⟩

end NodeOf

/-! ## errors that are not raised -/

theorem Node.Raises.ne_notRoot {n : Node} {e : EvalError} (h : n.Raises e) (kind : NodeKind) :
    e ≠ .notRoot kind := by
  rintro rfl
  cases h with
  | literal _ he => rcases literalValue_error he with ⟨-, he⟩ | ⟨t, -, he⟩ <;> cases he
  | call _ he => cases he

theorem Node.Raises.children_of_noName {n : Node} {span : Span}
    (h : n.Raises (.malformedDefine .noName span)) : n.kind = .call ∧ n.children = [] := by
  cases h with
  | literal _ he => rcases literalValue_error he with ⟨-, he⟩ | ⟨t, -, he⟩ <;> cases he
  | call _ he => cases he
  | definition _ hname => exact absurd rfl hname
  | noName hkind hnil => exact ⟨hkind, hnil⟩

theorem Node.Raises.literalValue_eq {n : Node} {text : String} {kind : TokenKind} {span : Span}
    (h : n.Raises (.invalidLiteral text kind span)) :
    n.kind = .literal ∧ literalValue n = .error (.invalidLiteral text kind span) := by
  cases h with
  | literal hkind he => exact ⟨hkind, he⟩
  | call _ he => cases he

theorem NodeOf.outOfRange {srcs : List String} {n : Node} {text : String} {kind : TokenKind}
    {span : Span} (hn : NodeOf srcs n) (h : n.Raises (.invalidLiteral text kind span)) :
    kind = .integer ∧ ∃ t, TokenOf srcs t ∧ t.kind = .integer ∧ t.text = text ∧ t.span = span ∧
      OutOfRange (integerValue text.toList) := by
  obtain ⟨hliteral, he⟩ := h.literalValue_eq
  rcases hn.cases with ⟨t, ht, hatom, hshape, rfl⟩ | ⟨hkind, -⟩ | hkind
  · obtain ⟨hinteger, hrange, heq⟩ := literalValue_leaf_error hatom hshape hliteral he
    cases heq
    exact ⟨rfl, t, ht, hinteger, rfl, rfl, hrange⟩
  · rw [hkind] at hliteral
    cases hliteral
  · rw [hkind] at hliteral
    cases hliteral

/-! ## sources one after another -/

/-- The interpreter is left by the programs of the sources, which were evaluated one after another,
each to some depth and however it ended. -/
inductive Interpreter.Ran : List String → Interpreter → Prop
  | new (out : Sink) : Ran [] (.new .builtins out)
  | next {srcs : List String} {i : Interpreter} {src : String} {ts : List Token} {root : Node} :
      Ran srcs i → lex src = .ok ts → parse ts = .ok root → ∀ fuel,
        Ran (srcs ++ [src]) (evaluate fuel root i).2

theorem covers_nodeOf (srcs : List String) : Covers (NodeOf srcs) (NodeOf srcs) where
  child hn hm := hn.child hm
  stored _ h := h
  body hn hdefines hm := hn.child (hdefines.mem_children hm)

theorem nodeOf_children (srcs : List String) {src : String} {ts : List Token} {root : Node}
    (hlex : lex src = .ok ts) (hparse : parse ts = .ok root) :
    ∀ n ∈ root.children, NodeOf (srcs ++ [src]) n := fun n hn =>
  ⟨src, by simp, ts, root, hlex, hparse, .top hn⟩

theorem kind_of_parse {ts : List Token} {root : Node} (h : parse ts = .ok root) :
    root.kind = .root := by
  obtain ⟨b, -, -, rfl⟩ := parse_eq_ok_iff.1 h
  rfl

/-- The functions of the interpreter are made of nodes of the sources. -/
def Interpreter.MadeOf (srcs : List String) (i : Interpreter) : Prop :=
  i.scopes.AllBound (·.MadeOf (NodeOf srcs))

theorem Interpreter.MadeOf.append {srcs : List String} {i : Interpreter} (h : i.MadeOf srcs)
    (more : List String) : i.MadeOf (srcs ++ more) :=
  h.mono fun _ hv => hv.mono fun _ hn => hn.append more

theorem Interpreter.Ran.madeOf {srcs : List String} {i : Interpreter} (h : i.Ran srcs) :
    i.MadeOf srcs := by
  induction h with
  | new out => exact Scopes.AllBound.builtins (by rintro p f ⟨⟩)
  | @next srcs i src ts root _ hlex hparse fuel ih =>
    have hold := ih.append [src]
    have hcode := nodeOf_children srcs hlex hparse
    exact (evaluate_raisedIn (covers_nodeOf _) hold (kind_of_parse hparse) hcode fuel).1

/-- Where only nodes of the sources are evaluated, other nodes need not be allowed. -/
theorem Interpreter.MadeOf.evaluateWhere_eq {srcs : List String} {i : Interpreter}
    (h : i.MadeOf srcs) {allowed : Node → Prop} (hallowed : ∀ n, n.MadeOf (NodeOf srcs) → allowed n)
    {n : Node} (hn : n.MadeOf (NodeOf srcs)) (stray : Eval (Option Value)) (fuel : Nat)
    (s : ScopeId) :
    evaluateWhere (fun n _ _ => allowed n) stray fuel n s i = evaluateNode fuel n s i := by
  have hagrees : (codeCoupling (NodeOf srcs) (NodeOf srcs)).Agrees _ (i, i)
      (evaluateNode fuel n s) (evaluateWhere (fun n _ _ => allowed n) stray fuel n s) :=
    (covers_nodeOf srcs).kept.evaluateWhere (fun _ hn _ => hallowed _ hn) stray fuel ⟨rfl, h⟩ hn
      trivial
  exact Prod.ext hagrees.same hagrees.linked.1

/-- **Sources never meet the guards of the evaluator.** After any sources, whatever their
evaluations came to, the evaluation of one more has a program at hand and every function that it
defines has a name. It comes to no call of nothing and to no literal or variable without a token: an
evaluator that does anything else there does the same. And the only literals without a value are
integers of these sources that 64 bits do not hold. -/
theorem guards_never_met {srcs : List String} {i : Interpreter} (h : i.Ran srcs) {src : String}
    {ts : List Token} {root : Node} (hlex : lex src = .ok ts) (hparse : parse ts = .ok root)
    (fuel : Nat) :
    (∀ kind, (evaluate fuel root i).1 ≠ .error (.notRoot kind)) ∧
    (∀ span, (evaluate fuel root i).1 ≠ .error (.malformedDefine .noName span)) ∧
    (∀ stray, evaluateWhere (fun n _ _ => n.Complete) stray fuel root Scopes.global i =
      evaluateNode fuel root Scopes.global i) ∧
    ∀ text kind span, (evaluate fuel root i).1 = .error (.invalidLiteral text kind span) →
      kind = .integer ∧ ∃ t, TokenOf (srcs ++ [src]) t ∧ t.kind = .integer ∧ t.text = text ∧
        t.span = span ∧ OutOfRange (integerValue text.toList) := by
  have hroot := kind_of_parse hparse
  have hcode := nodeOf_children srcs hlex hparse
  have hmade := h.madeOf.append [src]
  have hraised := (evaluate_raisedIn (covers_nodeOf _) hmade hroot hcode fuel).2
  refine ⟨?_, ?_, ?_, ?_⟩
  · intro kind he
    rcases hraised _ he with ⟨cause, hcause⟩ | ⟨n, -, hraises⟩
    · cases hcause
    · exact hraises.ne_notRoot kind rfl
  · intro span he
    rcases hraised _ he with ⟨cause, hcause⟩ | ⟨n, hn, hraises⟩
    · cases hcause
    · obtain ⟨hcall, hnil⟩ := hraises.children_of_noName
      exact hn.complete.call hcall hnil
  · intro stray
    refine hmade.evaluateWhere_eq ?_ (.inr ⟨.inl hroot, hcode⟩) stray fuel Scopes.global
    rintro n (hn | ⟨hkind | hkind, -⟩)
    · exact hn.complete
    · exact ⟨by simp [hkind], by simp [hkind]⟩
    · exact ⟨by simp [hkind], by simp [hkind]⟩
  · intro text kind span he
    rcases hraised _ he with ⟨cause, hcause⟩ | ⟨n, hn, hraises⟩
    · cases hcause
    · exact hn.outOfRange hraises

/-- An integer in the body of a function is at fault when a later source calls the function. -/
theorem guards_never_met_integer :
    ∃ i ts root, i.Ran ["(define (f) 9223372036854775808)"] ∧ lex "(f)" = .ok ts ∧
      parse ts = .ok root ∧ (evaluate 9 root i).1 =
        .error (.invalidLiteral "9223372036854775808" .integer ⟨12, 31⟩) ∧
      ∃ t, TokenOf ["(define (f) 9223372036854775808)", "(f)"] t ∧ t.kind = .integer ∧
        t.text = "9223372036854775808" ∧ t.span = ⟨12, 31⟩ ∧
        OutOfRange (integerValue "9223372036854775808".toList) := by
  have hlex : lex "(define (f) 9223372036854775808)" = .ok
      [⟨"(", .paren, ⟨1, 0⟩, ⟨0, 1⟩⟩, ⟨"define", .identifier, ⟨1, 1⟩, ⟨1, 7⟩⟩,
        ⟨"(", .paren, ⟨1, 8⟩, ⟨8, 9⟩⟩, ⟨"f", .identifier, ⟨1, 9⟩, ⟨9, 10⟩⟩,
        ⟨")", .paren, ⟨1, 10⟩, ⟨10, 11⟩⟩, ⟨"9223372036854775808", .integer, ⟨1, 12⟩, ⟨12, 31⟩⟩,
        ⟨")", .paren, ⟨1, 31⟩, ⟨31, 32⟩⟩] :=
    lex_eq_of_within 9 rfl
  have hlex' : lex "(f)" = .ok
      [⟨"(", .paren, ⟨1, 0⟩, ⟨0, 1⟩⟩, ⟨"f", .identifier, ⟨1, 1⟩, ⟨1, 2⟩⟩,
        ⟨")", .paren, ⟨1, 2⟩, ⟨2, 3⟩⟩] :=
    lex_eq_of_within 5 rfl
  have hran : Interpreter.Ran ["(define (f) 9223372036854775808)"] _ :=
    .next (.new .unlimited) hlex (parse_eq_of_run rfl) 9
  obtain ⟨-, -, -, hliteral⟩ := guards_never_met hran hlex' (parse_eq_of_run rfl) 9
  exact ⟨_, _, _, hran, hlex', parse_eq_of_run rfl, rfl, (hliteral _ _ _ rfl).2⟩

end SmallScheme
