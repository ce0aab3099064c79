import Mathlib.Logic.Relation
import SmallScheme.Proofs.Program
import SmallScheme.Proofs.Scope.Arena

/-!
The evaluations inside of an evaluation, and what each of them opens.

* `Visit` — the evaluation of a node in a scope, from a state and to some depth;
* `Visit.Next v w` — in the course of `v` a part of its node, or the body of a function that it
  calls, is evaluated as `w`, and `Visit.Comes` — so it is at whatever depth;
* `Visit.Opens v r id` — `v` itself opens the scope `id`, for a call or for a function;
* `Visit.AccountsFor v id` — `v` itself opens the scope `id`, or comes to an evaluation that leaves
  it, with one lemma for each kind of node;
* `Visit.exists_opens`: a scope that is new after an evaluation was opened in the course of it;
* `Visit.Comes.grows`: what one of them leaves is there at the end of the whole;
* `Coupling.Kept.comes`: what every effect keeps holds at the start of each of them.
-/

namespace SmallScheme

/-! ## evaluations and their parts -/

/-- The evaluation of a node in a scope, from a state and to a depth of at most `fuel`. -/
structure Visit where
  fuel : Nat
  node : Node
  scope : ScopeId
  state : Interpreter

/-- What a scope was opened for. -/
inductive Role where
  /-- For programs. -/
  | global
  /-- For a function to keep, which was defined in the given scope. -/
  | captured (definedIn : ScopeId)
  /-- For the call of a function, which keeps the given scope. -/
  | call (kept : ScopeId)
  deriving DecidableEq, Repr

namespace Visit

def run (v : Visit) : Outcome (Option Value) × Interpreter :=
  evaluateNode v.fuel v.node v.scope v.state

/-- The evaluation calls the function in the state `k`, with as many arguments as it takes. -/
inductive Calls : Visit → Closure → List Value → Interpreter → Prop
  | mk {fuel n head rest s i f j args k} : n.kind = .call → n.children = head :: rest →
      (evaluateNode fuel).value head s i = (.value (.callable (.closure f)), j) →
      (evaluateNode fuel).values s rest j = (.value args, k) → args.length = f.params.length →
      Calls ⟨fuel + 1, n, s, i⟩ f args k

/-- The evaluation comes to another one, which it needs. -/
inductive Next : Visit → Visit → Prop
  | form {fuel n pre m post s i r j} : n.kind = .root ∨ n.kind = .function →
      n.children = pre ++ m :: post → (evaluateNode fuel).sequence s none pre i = (.value r, j) →
      Next ⟨fuel + 1, n, s, i⟩ ⟨fuel, m, s, j⟩
  | head {fuel n head rest s i} : n.kind = .call → n.children = head :: rest →
      Next ⟨fuel + 1, n, s, i⟩ ⟨fuel, head, s, i⟩
  | argument {fuel n head pre m post s i c j vs k} : n.kind = .call →
      n.children = head :: (pre ++ m :: post) →
      (evaluateNode fuel).value head s i = (.value (.callable c), j) →
      (evaluateNode fuel).values s pre j = (.value vs, k) →
      Next ⟨fuel + 1, n, s, i⟩ ⟨fuel, m, s, k⟩
  | body {fuel n s i f args k} : Calls ⟨fuel + 1, n, s, i⟩ f args k →
      Next ⟨fuel + 1, n, s, i⟩ ⟨fuel, f.body, k.scopes.size, f.enter args k⟩
  | definition {fuel n target m s i} : n.kind = .define → n.children = [target, m] →
      target.kind = .variable → Next ⟨fuel + 1, n, s, i⟩ ⟨fuel, m, s, i⟩

/-- The evaluation comes to another one, at whatever depth. -/
def Comes : Visit → Visit → Prop := Relation.ReflTransGen Next

/-- The evaluation itself opens a scope: one for a call that it makes, or one for the function that
it defines. -/
inductive Opens : Visit → Role → ScopeId → Prop
  | call {v f args k} : Calls v f args k → Opens v (.call f.scope) k.scopes.size
  | captured {fuel n s i f} : n.Defines f → f.body.children ≠ [] → f.scope = i.scopes.size →
      Opens ⟨fuel + 1, n, s, i⟩ (.captured s) f.scope

end Visit

/-! ## evaluations by the kind of their node -/

section Kinds

variable {n : Node} (fuel : Nat) (s : ScopeId)

theorem evaluateNode_forms (h : n.kind = .root ∨ n.kind = .function) :
    evaluateNode (fuel + 1) n s = (evaluateNode fuel).sequence s none n.children := by
  rcases h with h | h <;> simp only [evaluateNode, evaluateStep, h]

theorem evaluateNode_call (h : n.kind = .call) :
    evaluateNode (fuel + 1) n s = evaluateCall (evaluateNode fuel) n s := by
  simp only [evaluateNode, evaluateStep, h]

theorem evaluateNode_define (h : n.kind = .define) :
    evaluateNode (fuel + 1) n s = evaluateDefine (evaluateNode fuel) n s := by
  simp only [evaluateNode, evaluateStep, h]

end Kinds

theorem fst_bindAll (s : ScopeId) (bs : List (String × Value)) :
    ∀ i, (bindAll s bs i).1 = .value () := by
  induction bs with
  | nil => intro i; rfl
  | cons b bs ih => intro i; exact ih _

theorem size_bindAll (s : ScopeId) (bs : List (String × Value)) :
    ∀ i, (bindAll s bs i).2.scopes.size = i.scopes.size := by
  induction bs with
  | nil => intro i; rfl
  | cons b bs ih => intro i; exact (ih _).trans (Scopes.size_bind _ _ _ _)

theorem Closure.size_enter (f : Closure) (args : List Value) (i : Interpreter) :
    (f.enter args i).scopes.size = i.scopes.size + 1 := by
  rw [enter, size_bindAll, Scopes.size_spawn]

/-- A call is the evaluation of the body, where the scope of the call is open. -/
theorem callClosure_eq (ev : Evaluator) {f : Closure} {args : List Value} (span : Span)
    (hargs : args.length = f.params.length) (i : Interpreter) :
    callClosure ev f args span i = ev f.body i.scopes.size (f.enter args i) := by
  have hbind := fst_bindAll i.scopes.size (f.params.zip args) ⟨(i.scopes.spawn f.scope).2, i.out⟩
  unfold callClosure Closure.enter
  rw [if_pos hargs]
  show (bindAll i.scopes.size (f.params.zip args) >>= fun _ => ev f.body i.scopes.size)
    ⟨(i.scopes.spawn f.scope).2, i.out⟩ = _
  rw [Eval.bind_apply]
  rcases hend : bindAll i.scopes.size (f.params.zip args) ⟨(i.scopes.spawn f.scope).2, i.out⟩ with
    ⟨o, j⟩
  rw [hend] at hbind
  cases hbind
  rfl

theorem Visit.Calls.run_eq {fuel : Nat} {n : Node} {s : ScopeId} {i k : Interpreter} {f : Closure}
    {args : List Value} (h : Visit.Calls ⟨fuel + 1, n, s, i⟩ f args k) :
    Visit.run ⟨fuel + 1, n, s, i⟩ = evaluateNode fuel f.body k.scopes.size (f.enter args k) := by
  cases h with
  | mk hkind hchildren hhead hrest hargs =>
    rw [← callClosure_eq (evaluateNode fuel) n.span hargs]
    simp only [run, evaluateNode_call fuel s hkind, evaluateCall, hchildren]
    rw [Eval.bind_apply, hhead]
    dsimp only
    rw [Eval.bind_apply, hrest]
    rfl

theorem evaluateNode_defines {fuel : Nat} {n : Node} {s : ScopeId} {i : Interpreter} {f : Closure}
    (h : n.Defines f) (hbody : f.body.children ≠ []) (hscope : f.scope = i.scopes.size) :
    evaluateNode (fuel + 1) n s i =
      (.value none, ⟨(i.scopes.spawn s).2.bind s f.name (.callable (.closure f)), i.out⟩) := by
  obtain ⟨hkind, target, rest, hchildren, htarget, hnames, hrest⟩ := h
  obtain ⟨name, params, body, scope⟩ := f
  dsimp only at hnames hrest hbody hscope
  subst hrest hscope
  have hempty : ¬rest.isEmpty := fun h => hbody (List.isEmpty_iff.1 h)
  rw [evaluateNode_define fuel s hkind]
  simp only [evaluateDefine, hchildren, htarget, defineFunction]
  rw [if_neg hempty, Eval.bind_apply, hnames]
  rfl

/-! ## what they leave -/

theorem grows_guarantee : Guarantee fun _ i j => i.scopes.Grows j.scopes where
  refl _ i := .refl i.scopes
  trans := Scopes.Grows.trans
  bind s i name v := .bind i.scopes s name v
  write _ i _ := .refl i.scopes
  inner h := (Scopes.Grows.spawn _ _).trans h

section Grows

variable {α β : Type} (s : ScopeId) (i : Interpreter)

theorem Eval.grows_bind {x : Eval α} {f : α → Eval β}
    (hf : ∀ a, (f a).Within fun i j => i.scopes.Grows j.scopes) :
    (x i).2.scopes.Grows ((x >>= f) i).2.scopes := by
  rw [Eval.bind_apply]
  rcases x i with ⟨a | e | _, j⟩
  · exact hf a j
  · exact .refl _
  · exact .refl _

theorem Evaluator.grows_value (ev : Evaluator) (n : Node) :
    (ev n s i).2.scopes.Grows (ev.value n s i).2.scopes := by
  refine Eval.grows_bind i fun r => ?_
  cases r with
  | some v => exact grows_guarantee.pure (s := s) v
  | none => exact grows_guarantee.fail (s := s) _

end Grows

/-- Values one after another are reached in the state that those before them leave. -/
theorem Evaluator.snd_values_append (ev : Evaluator) (s : ScopeId) (ns : List Node) :
    ∀ {pre : List Node} {i j : Interpreter} {vs : List Value},
      ev.values s pre i = (.value vs, j) →
      (ev.values s (pre ++ ns) i).2 = (ev.values s ns j).2 := by
  intro pre
  induction pre with
  | nil =>
    rintro i j vs ⟨⟩
    rfl
  | cons n pre ih =>
    intro i j vs h
    rw [values, Eval.bind_apply] at h
    rw [List.cons_append, values, Eval.bind_apply]
    rcases hn : ev.value n s i with ⟨v | e | _, k⟩
    · rw [hn] at h
      dsimp only at h ⊢
      rw [Eval.bind_apply] at h ⊢
      rcases hpre : ev.values s pre k with ⟨us | e | _, l⟩
      · rw [hpre] at h
        cases h
        rw [← ih hpre]
        rcases ev.values s (pre ++ ns) k with ⟨_ | _ | _, _⟩ <;> rfl
      · rw [hpre] at h
        cases h
      · rw [hpre] at h
        cases h
    · rw [hn] at h
      cases h
    · rw [hn] at h
      cases h

namespace Visit

variable {v w : Visit}

theorem Next.grows (h : v.Next w) : w.run.2.scopes.Grows v.run.2.scopes := by
  have hev := fun fuel => grows_guarantee.evaluateNode fuel
  cases h with
  | @form fuel n pre m post s i r j hkind hchildren hpre =>
    simp only [run, evaluateNode_forms fuel s hkind, hchildren]
    rw [Evaluator.sequence_append, hpre]
    exact Eval.grows_bind j fun r => grows_guarantee.sequence (hev fuel) (s := s) post r
  | @head fuel n head rest s i hkind hchildren =>
    simp only [run, evaluateNode_call fuel s hkind, evaluateCall, hchildren]
    refine ((evaluateNode fuel).grows_value s i head).trans (Eval.grows_bind i fun u => ?_)
    cases u with
    | callable c =>
      have hrest := grows_guarantee.values (hev fuel) (s := s) rest
      exact grows_guarantee.andThen (s := s) hrest fun args =>
        grows_guarantee.applyWith (hev fuel) (s := s) c args n.span
    | number | string => exact grows_guarantee.fail (s := s) _
  | @argument fuel n head pre m post s i c j vs k hkind hchildren hhead hpre =>
    simp only [run, evaluateNode_call fuel s hkind, evaluateCall, hchildren]
    rw [Eval.bind_apply, hhead]
    have hm : (evaluateNode fuel m s k).2.scopes.Grows
        ((evaluateNode fuel).values s (pre ++ m :: post) j).2.scopes := by
      rw [Evaluator.snd_values_append _ s _ hpre]
      refine ((evaluateNode fuel).grows_value s k m).trans (Eval.grows_bind k fun u => ?_)
      have hpost := grows_guarantee.values (hev fuel) (s := s) post
      exact grows_guarantee.andThen (s := s) hpost fun us => grows_guarantee.pure (s := s) _
    refine hm.trans (Eval.grows_bind j fun args => ?_)
    exact grows_guarantee.applyWith (hev fuel) (s := s) c args n.span
  | body hcalls =>
    rw [hcalls.run_eq]
    exact .refl _
  | @definition fuel n target m s i hkind hchildren htarget =>
    simp only [run, evaluateNode_define fuel s hkind, evaluateDefine, hchildren, htarget,
      defineVariable]
    refine ((evaluateNode fuel).grows_value s i m).trans (Eval.grows_bind i fun u => ?_)
    exact grows_guarantee.andThen (s := s) (fun i => grows_guarantee.bind s i _ u) fun _ =>
      grows_guarantee.pure (s := s) none

theorem Calls.grows {f : Closure} {args : List Value} {k : Interpreter} (h : v.Calls f args k) :
    (f.enter args k).scopes.Grows v.run.2.scopes := by
  obtain ⟨fuel, hrun⟩ : ∃ fuel, v.run =
      evaluateNode fuel f.body k.scopes.size (f.enter args k) := by
    cases h with
    | mk hkind hchildren hhead hrest hargs =>
      exact ⟨_, (mk hkind hchildren hhead hrest hargs).run_eq⟩
  rw [hrun]
  exact grows_guarantee.evaluateNode fuel f.body k.scopes.size (f.enter args k)

/-- **What an evaluation leaves is there after every evaluation that comes to it.** -/
theorem Comes.grows (h : v.Comes w) : w.run.2.scopes.Grows v.run.2.scopes := by
  induction h with
  | refl => exact .refl _
  | tail _ hnext ih => exact hnext.grows.trans ih

end Visit

/-! ## what holds at the start of each -/

/-- An interpreter that is coupled with itself can start the evaluation. -/
structure Coupling.Admits (L : Coupling) (v : Visit) : Prop where
  linked : L.Linked (v.state, v.state)
  runs : L.Runs v.node
  usable : L.Usable (v.state, v.state) v.scope

namespace Coupling

variable {L : Coupling} {v w : Visit}

namespace Agrees

variable {α : Type} {Good : Pair → α → Prop} {i j : Interpreter} {x : Eval α} {a : α}

/-- What an agreement says where the two interpreters are one, and a value is returned. -/
theorem of_value (h : L.Agrees Good (i, i) x x) (hx : x i = (.value a, j)) :
    L.Linked (j, j) ∧ L.Later (i, i) (j, j) ∧ Good (j, j) a := by
  obtain ⟨-, linked, later, good, -⟩ := h
  dsimp only at linked later good
  rw [hx] at linked later good
  exact ⟨linked, later, good a rfl⟩

end Agrees

namespace Kept

variable (h : L.Kept)
include h

theorem calls {f : Closure} {args : List Value} {k : Interpreter} (hv : L.Admits v)
    (hcalls : v.Calls f args k) :
    L.Linked (k, k) ∧ L.Known (k, k) (.callable (.closure f)) ∧ L.KnownAll (k, k) args := by
  cases hcalls with
  | @mk fuel n head rest s i f j args k hkind hchildren hhead hrest hargs =>
    obtain ⟨linked, runs, usable⟩ := hv
    obtain ⟨hj, later, hf⟩ := (h.value (h.evaluateNode fuel) linked
      (h.part runs (by simp [hchildren])) usable).of_value hhead
    obtain ⟨hk, later', hvs⟩ := (h.values (h.evaluateNode fuel) hj
      (fun m hm => h.part runs (by simp [hchildren, hm])) (later.usable s usable)).of_value hrest
    exact ⟨hk, later'.known _ hf, hvs⟩

theorem next (hv : L.Admits v) (hnext : v.Next w) : L.Admits w := by
  have hev := fun fuel {w n s} => h.evaluateNode fuel (w := w) (n := n) (s := s)
  cases hnext with
  | @form fuel n pre m post s i r j hkind hchildren hpre =>
    obtain ⟨linked, runs, usable⟩ := hv
    obtain ⟨hj, later, -⟩ := (sequence (hev fuel) linked
      (fun m hm => h.part runs (by simp [hchildren, hm])) usable (by rintro v ⟨⟩)).of_value hpre
    exact ⟨hj, .inl (h.part runs (by simp [hchildren])), later.usable s usable⟩
  | @head fuel n head rest s i hkind hchildren =>
    exact ⟨hv.linked, .inl (h.part hv.runs (by simp [hchildren])), hv.usable⟩
  | @argument fuel n head pre m post s i c j vs k hkind hchildren hhead hpre =>
    obtain ⟨linked, runs, usable⟩ := hv
    obtain ⟨hj, later, -⟩ := (h.value (hev fuel) linked
      (h.part runs (by simp [hchildren])) usable).of_value hhead
    obtain ⟨hk, later', -⟩ := (h.values (hev fuel) hj
      (fun m hm => h.part runs (by simp [hchildren, hm])) (later.usable s usable)).of_value hpre
    exact ⟨hk, .inl (h.part runs (by simp [hchildren])), later'.usable s (later.usable s usable)⟩
  | @body fuel n s i f args k hcalls =>
    obtain ⟨linked, hf, hargs⟩ := h.calls hv hcalls
    obtain ⟨hopen, later, usable⟩ := h.enter linked hf
    have hbinds : ∀ b ∈ f.params.zip args, L.Name b.1 ∧
        L.Known (⟨(k.scopes.spawn f.scope).2, k.out⟩, ⟨(k.scopes.spawn f.scope).2, k.out⟩) b.2 := by
      intro b hb
      obtain ⟨hx, hu⟩ := List.of_mem_zip hb
      exact ⟨(h.runnable hf).names _ hx, later.known _ (hargs _ hu)⟩
    obtain ⟨-, hbound, later', -, -⟩ := h.bindAll hopen usable hbinds
    exact ⟨hbound, (h.runnable hf).runs, later'.usable _ usable⟩
  | @definition fuel n target m s i hkind hchildren htarget =>
    exact ⟨hv.linked, .inl (h.part hv.runs (by simp [hchildren])), hv.usable⟩

/-- **What every effect keeps holds at the start of each evaluation on the way.** -/
theorem comes (hv : L.Admits v) (hcomes : v.Comes w) : L.Admits w := by
  induction hcomes with
  | refl => exact hv
  | tail _ hnext ih => exact h.next ih hnext

end Kept

end Coupling

/-! ## where new scopes come from -/

/-- The computation leaves the scope, which was not there before. -/
def Eval.Adds {α : Type} (x : Eval α) (i : Interpreter) (id : Nat) : Prop :=
  i.scopes.size ≤ id ∧ id < (x i).2.scopes.size

section Adds

variable {α β : Type} {ev : Evaluator} {s : ScopeId} {i : Interpreter} {id : Nat}

namespace Eval

theorem not_adds {x : Eval α} (h : (x i).2.scopes.size = i.scopes.size) : ¬x.Adds i id := by
  rintro ⟨hle, hlt⟩
  omega

theorem Adds.bind {x : Eval α} {f : α → Eval β} (h : (x >>= f).Adds i id) :
    x.Adds i id ∨ ∃ a j, x i = (.value a, j) ∧ (f a).Adds j id := by
  obtain ⟨hle, hlt⟩ := h
  rw [bind_apply] at hlt
  unfold Adds
  rcases hx : x i with ⟨a | e | _, j⟩
  · rw [hx] at hlt
    by_cases hj : id < j.scopes.size
    · exact .inl ⟨hle, hj⟩
    · exact .inr ⟨a, j, rfl, Nat.le_of_not_lt hj, hlt⟩
  · rw [hx] at hlt
    exact .inl ⟨hle, hlt⟩
  · rw [hx] at hlt
    exact .inl ⟨hle, hlt⟩

theorem not_adds_ofExcept (r : Except EvalError α) : ¬(ofExcept r).Adds i id := by
  refine not_adds ?_
  cases r <;> rfl

theorem not_adds_write (text : String) : ¬(write text).Adds i id := by
  refine not_adds ?_
  unfold write
  dsimp only
  split <;> rfl

end Eval

theorem Primitive.not_adds (p : Primitive) (args : List Value) (span : Span) :
    ¬(p.apply args span).Adds i id := by
  intro h
  cases p with
  | plus | multiply | minus | divide => exact Eval.not_adds_ofExcept _ h
  | display | displayln | newline =>
    rcases h.bind with h | ⟨text, j, -, h⟩
    · exact Eval.not_adds_ofExcept _ h
    · rcases h.bind with h | ⟨_, k, -, h⟩
      · exact Eval.not_adds_write text h
      · exact Eval.not_adds rfl h

theorem Evaluator.adds_of_value {n : Node} (h : (ev.value n s).Adds i id) :
    (ev n s).Adds i id := by
  rcases h.bind with h | ⟨r, j, -, h⟩
  · exact h
  · cases r <;> exact absurd h (Eval.not_adds rfl)

theorem Evaluator.adds_of_values {ns : List Node} : ∀ {i : Interpreter},
    (ev.values s ns).Adds i id → ∃ pre m post vs j, ns = pre ++ m :: post ∧
      ev.values s pre i = (.value vs, j) ∧ (ev m s).Adds j id := by
  induction ns with
  | nil => intro i h; exact absurd h (Eval.not_adds rfl)
  | cons n ns ih =>
    intro i h
    rcases h.bind with h | ⟨v, j, hn, h⟩
    · exact ⟨[], n, ns, [], i, rfl, rfl, adds_of_value h⟩
    · rcases h.bind with h | ⟨us, k, -, h⟩
      · obtain ⟨pre, m, post, vs, k, rfl, hpre, hm⟩ := ih h
        refine ⟨n :: pre, m, post, v :: vs, k, rfl, ?_, hm⟩
        rw [values, Eval.bind_apply, hn]
        dsimp only
        rw [Eval.bind_apply, hpre]
        rfl
      · exact absurd h (Eval.not_adds rfl)

theorem Evaluator.adds_of_sequence {ns : List Node} : ∀ {i : Interpreter} {last : Option Value},
    (ev.sequence s last ns).Adds i id → ∃ pre m post r j, ns = pre ++ m :: post ∧
      ev.sequence s last pre i = (.value r, j) ∧ (ev m s).Adds j id := by
  induction ns with
  | nil => intro i last h; exact absurd h (Eval.not_adds rfl)
  | cons n ns ih =>
    intro i last h
    rcases h.bind with h | ⟨r, j, hn, h⟩
    · exact ⟨[], n, ns, last, i, rfl, rfl, h⟩
    · obtain ⟨pre, m, post, r', k, rfl, hpre, hm⟩ := ih h
      refine ⟨n :: pre, m, post, r', k, rfl, ?_, hm⟩
      rw [sequence, Eval.bind_apply, hn]
      exact hpre

theorem adds_of_callClosure {f : Closure} {args : List Value} {span : Span}
    (h : (callClosure ev f args span).Adds i id) : args.length = f.params.length ∧
      (id = i.scopes.size ∨ (ev f.body i.scopes.size).Adds (f.enter args i) id) := by
  by_cases hargs : args.length = f.params.length
  · obtain ⟨hle, hlt⟩ := h
    rw [callClosure_eq ev span hargs] at hlt
    refine ⟨hargs, ?_⟩
    by_cases hid : id = i.scopes.size
    · exact .inl hid
    · refine .inr ⟨?_, hlt⟩
      rw [f.size_enter]
      omega
  · rw [callClosure, if_neg hargs] at h
    exact absurd h (Eval.not_adds rfl)

theorem adds_of_defineFunction {n target : Node} {rest : List Node}
    (h : (defineFunction n target rest s).Adds i id) :
    rest ≠ [] ∧ id = i.scopes.size ∧
      ∃ name params, headNames target.children = .ok (name :: params) := by
  unfold defineFunction at h
  split at h
  · exact absurd h (Eval.not_adds rfl)
  · next hrest =>
    refine ⟨by rintro rfl; exact hrest rfl, ?_⟩
    rcases h.bind with h | ⟨names, j, hnames, h⟩
    · exact absurd h (Eval.not_adds_ofExcept _)
    · cases hhead : headNames target.children with
      | error e =>
        rw [hhead] at hnames
        cases hnames
      | ok names =>
        rw [hhead] at hnames
        cases hnames
        cases names with
        | nil => exact absurd h (Eval.not_adds rfl)
        | cons name params =>
          obtain ⟨hle, hlt⟩ := h
          -- the scope is opened, and then a name is bound
          have hsize : id < i.scopes.size + 1 := by
            rw [← Scopes.size_spawn i.scopes s, ← Scopes.size_bind _ s name
              (.callable (.closure ⟨name, params, Node.body rest, i.scopes.size⟩))]
            exact hlt
          exact ⟨by omega, name, params, rfl⟩

end Adds

namespace Visit

def Adds (v : Visit) (id : Nat) : Prop := (evaluateNode v.fuel v.node v.scope).Adds v.state id

/-- The evaluation itself opens the scope, or comes to one that leaves it. -/
def AccountsFor (v : Visit) (id : Nat) : Prop :=
  (∃ r, v.Opens r id) ∨ ∃ w, v.Next w ∧ w.Adds id

section Account

variable {fuel : Nat} {n : Node} {s : ScopeId} {i : Interpreter} {id : Nat}

theorem accountsFor_of_forms (hkind : n.kind = .root ∨ n.kind = .function)
    (h : Adds ⟨fuel + 1, n, s, i⟩ id) : AccountsFor ⟨fuel + 1, n, s, i⟩ id := by
  rw [Adds, evaluateNode_forms fuel s hkind] at h
  obtain ⟨pre, m, post, r, j, hchildren, hpre, hm⟩ := Evaluator.adds_of_sequence h
  exact .inr ⟨_, .form hkind hchildren hpre, hm⟩

theorem accountsFor_of_call (hkind : n.kind = .call) (h : Adds ⟨fuel + 1, n, s, i⟩ id) :
    AccountsFor ⟨fuel + 1, n, s, i⟩ id := by
  rw [Adds, evaluateNode_call fuel s hkind] at h
  unfold evaluateCall at h
  split at h
  · exact absurd h (Eval.not_adds rfl)
  next head rest hchildren =>
  rcases h.bind with h | ⟨u, j, hhead, h⟩
  · exact .inr ⟨_, .head hkind hchildren, Evaluator.adds_of_value h⟩
  cases u with
  | number | string => exact absurd h (Eval.not_adds rfl)
  | callable c =>
    rcases h.bind with h | ⟨args, k, hrest, h⟩
    · obtain ⟨pre, m, post, vs, k, rfl, hpre, hm⟩ := Evaluator.adds_of_values h
      exact .inr ⟨_, .argument hkind hchildren hhead hpre, hm⟩
    cases c with
    | primitive p => exact absurd h (p.not_adds args n.span)
    | closure f =>
      obtain ⟨hargs, hid⟩ := adds_of_callClosure h
      have hcalls := Calls.mk hkind hchildren hhead hrest hargs
      rcases hid with rfl | hbody
      · exact .inl ⟨_, .call hcalls⟩
      · exact .inr ⟨_, .body hcalls, hbody⟩

theorem accountsFor_of_define (hkind : n.kind = .define) (h : Adds ⟨fuel + 1, n, s, i⟩ id) :
    AccountsFor ⟨fuel + 1, n, s, i⟩ id := by
  rw [Adds, evaluateNode_define fuel s hkind] at h
  unfold evaluateDefine at h
  split at h
  · exact absurd h (Eval.not_adds rfl)
  next target rest hchildren =>
  split at h
  · next htarget =>
    unfold defineVariable at h
    split at h
    · next m =>
      rcases h.bind with h | ⟨u, j, -, h⟩
      · exact .inr ⟨_, .definition hkind hchildren htarget, Evaluator.adds_of_value h⟩
      · exact absurd h (Eval.not_adds (Scopes.size_bind _ _ _ _))
    · exact absurd h (Eval.not_adds rfl)
  · next htarget =>
    obtain ⟨hrest, rfl, name, params, hnames⟩ := adds_of_defineFunction h
    have hdefines : n.Defines ⟨name, params, Node.body rest, i.scopes.size⟩ :=
      ⟨hkind, target, rest, hchildren, htarget, hnames, rfl⟩
    exact .inl ⟨_, .captured hdefines hrest rfl⟩
  · exact absurd h (Eval.not_adds rfl)

/-- **One evaluation accounts for its scopes.** A literal and a variable leave none. -/
theorem Adds.accountsFor (h : Adds ⟨fuel + 1, n, s, i⟩ id) :
    AccountsFor ⟨fuel + 1, n, s, i⟩ id := by
  cases hkind : n.kind with
  | root => exact accountsFor_of_forms (.inl hkind) h
  | function => exact accountsFor_of_forms (.inr hkind) h
  | call => exact accountsFor_of_call hkind h
  | define => exact accountsFor_of_define hkind h
  | literal =>
    simp only [Adds, evaluateNode, evaluateStep, hkind] at h
    exact absurd h (Eval.not_adds_ofExcept _)
  | _ =>
    -- a variable
    simp only [Adds, evaluateNode, evaluateStep, hkind] at h
    rcases h.bind with h | ⟨u, j, -, h⟩
    · rcases h.bind with h | ⟨r, k, -, h⟩
      · exact absurd h (Eval.not_adds rfl)
      · cases r <;> exact absurd h (Eval.not_adds rfl)
    · exact absurd h (Eval.not_adds rfl)

theorem Next.fuel_eq {v w : Visit} (h : v.Next w) : v.fuel = w.fuel + 1 := by
  cases h <;> rfl

/-- **Each new scope was opened by an evaluation on the way.** -/
theorem exists_opens (fuel : Nat) : ∀ {n : Node} {s : ScopeId} {i : Interpreter} {id : Nat},
    (evaluateNode fuel n s).Adds i id →
    ∃ v r, Comes ⟨fuel, n, s, i⟩ v ∧ v.Opens r id := by
  induction fuel with
  | zero => intro n s i id h; exact absurd h (Eval.not_adds rfl)
  | succ fuel ih =>
    intro n s i id h
    rcases Adds.accountsFor h with ⟨r, hopens⟩ | ⟨⟨depth, m, t, j⟩, hnext, hadds⟩
    · exact ⟨_, r, .refl, hopens⟩
    · obtain rfl : fuel = depth := Nat.succ.inj hnext.fuel_eq
      obtain ⟨v, r, hcomes, hopens⟩ := ih hadds
      exact ⟨v, r, .head hnext hcomes, hopens⟩

end Account

end Visit

end SmallScheme
