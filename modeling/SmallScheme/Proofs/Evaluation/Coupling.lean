import SmallScheme.Proofs.Evaluation.Raised

/-!
Two interpreters side by side. A relation between their states that every effect keeps, as long as
scopes, values, code and names are of the right kind, is kept by whole evaluations: both end alike,
and with values of that kind again. With the same interpreter twice this is an invariant of one.

* `Coupling` — the relation and the kinds; `Coupling.Kept` — every effect keeps them;
* `Coupling.Agrees` — two computations end alike and keep the relation;
* `evaluateWhere allowed stray` — the evaluator that does `stray` instead wherever it comes to a
  node, a scope and a state that are not `allowed`;
* `Coupling.Kept.evaluateWhere` and its cases `Coupling.Kept.evaluateNode`, `Coupling.Kept.apply`:
  two evaluators agree, one of which may be cut off like that outside of the relation.
-/

namespace SmallScheme

/-! ## evaluators that are cut off -/

open Classical in
/-- Evaluates a node in a scope, to a depth of at most `fuel`, but does `stray` instead wherever it
comes to a node, a scope and a state that are not allowed. -/
noncomputable def evaluateWhere (allowed : Node → ScopeId → Interpreter → Prop)
    (stray : Eval (Option Value)) : Nat → Evaluator
  | 0 => fun _ _ => Eval.exhausted
  | fuel + 1 => fun n s i =>
    if allowed n s i then evaluateStep (evaluateWhere allowed stray fuel) n s i else stray i

theorem evaluateWhere_succ {allowed : Node → ScopeId → Interpreter → Prop} {n : Node} {s : ScopeId}
    {i : Interpreter} (h : allowed n s i) (stray : Eval (Option Value)) (fuel : Nat) :
    evaluateWhere allowed stray (fuel + 1) n s i =
      evaluateStep (evaluateWhere allowed stray fuel) n s i :=
  if_pos h

theorem evaluateWhere_of_forall {allowed : Node → ScopeId → Interpreter → Prop}
    (h : ∀ n s i, allowed n s i) (stray : Eval (Option Value)) (fuel : Nat) :
    evaluateWhere allowed stray fuel = evaluateNode fuel := by
  induction fuel with
  | zero => rfl
  | succ fuel ih =>
    funext n s i
    rw [evaluateWhere_succ (h n s i), ih]
    rfl

/-! ## couplings -/

/-- The tree is code, or the forms of a program or a body are. -/
def Node.MadeOf (Code : Node → Prop) (n : Node) : Prop :=
  Code n ∨ (n.kind = .root ∨ n.kind = .function) ∧ ∀ m ∈ n.children, Code m

/-- The function is made by the definition, up to the scope that it keeps. -/
def Node.Defines (n : Node) (f : Closure) : Prop :=
  n.kind = .define ∧ ∃ target rest, n.children = target :: rest ∧ target.kind = .call ∧
    headNames target.children = .ok (f.name :: f.params) ∧ f.body = Node.body rest

abbrev Pair := Interpreter × Interpreter

/-- What holds of two interpreters that run side by side. -/
structure Coupling where
  /-- The states belong together. -/
  Linked : Pair → Prop
  /-- Evaluations may happen in the scope. -/
  Usable : Pair → ScopeId → Prop
  /-- The value may turn up. -/
  Known : Pair → Value → Prop
  /-- The node may be evaluated. -/
  Code : Node → Prop
  /-- The name may be looked up and bound. -/
  Name : String → Prop
  /-- The error may be raised. -/
  Blamed : EvalError → Prop

namespace Coupling

variable (L : Coupling)

/-- What could be used before can still be used. -/
structure Later (w w' : Pair) : Prop where
  usable : ∀ s, L.Usable w s → L.Usable w' s
  known : ∀ v, L.Known w v → L.Known w' v

def Runs (n : Node) : Prop := n.MadeOf L.Code

structure Runnable (f : Closure) : Prop where
  runs : L.Runs f.body
  names : ∀ x ∈ f.params, L.Name x

/-- **Couplings that every effect of an evaluation keeps.** -/
structure Kept : Prop where
  child : ∀ {n m}, L.Code n → m ∈ n.children → L.Code m
  name : ∀ {n}, L.Code n → n.kind = .variable → L.Name (n.identifier.getD "")
  raises : ∀ {n e}, L.Code n → n.Raises e → L.Blamed e
  refused : ∀ e, L.Blamed (.output e)
  data : ∀ w v, (∀ f, v ≠ .callable (.closure f)) → L.Known w v
  runnable : ∀ {w f}, L.Known w (.callable (.closure f)) → L.Runnable f
  size : ∀ {i j}, L.Linked (i, j) → j.scopes.size = i.scopes.size
  find : ∀ {i j s x}, L.Linked (i, j) → L.Usable (i, j) s → L.Name x →
    j.scopes.find s x = i.scopes.find s x ∧
    ∀ v, i.scopes.find s x = some v → L.Known (i, j) v
  bind : ∀ {i j s x v}, L.Linked (i, j) → L.Usable (i, j) s → L.Name x → L.Known (i, j) v →
    L.Linked (⟨i.scopes.bind s x v, i.out⟩, ⟨j.scopes.bind s x v, j.out⟩) ∧
    L.Later (i, j) (⟨i.scopes.bind s x v, i.out⟩, ⟨j.scopes.bind s x v, j.out⟩)
  write : ∀ {i j} bytes, L.Linked (i, j) →
    (j.out.write bytes).1 = (i.out.write bytes).1 ∧
    L.Linked (⟨i.scopes, (i.out.write bytes).2⟩, ⟨j.scopes, (j.out.write bytes).2⟩) ∧
    L.Later (i, j) (⟨i.scopes, (i.out.write bytes).2⟩, ⟨j.scopes, (j.out.write bytes).2⟩)
  flush : ∀ {i j}, L.Linked (i, j) → j.out.flush = i.out.flush
  /-- The scope of a call. -/
  enter : ∀ {i j f}, L.Linked (i, j) → L.Known (i, j) (.callable (.closure f)) →
    L.Linked (⟨(i.scopes.spawn f.scope).2, i.out⟩, ⟨(j.scopes.spawn f.scope).2, j.out⟩) ∧
    L.Later (i, j) (⟨(i.scopes.spawn f.scope).2, i.out⟩, ⟨(j.scopes.spawn f.scope).2, j.out⟩) ∧
    L.Usable (⟨(i.scopes.spawn f.scope).2, i.out⟩, ⟨(j.scopes.spawn f.scope).2, j.out⟩)
      i.scopes.size
  /-- The scope that a function keeps. -/
  capture : ∀ {i j s}, L.Linked (i, j) → L.Usable (i, j) s →
    L.Linked (⟨(i.scopes.spawn s).2, i.out⟩, ⟨(j.scopes.spawn s).2, j.out⟩) ∧
    L.Later (i, j) (⟨(i.scopes.spawn s).2, i.out⟩, ⟨(j.scopes.spawn s).2, j.out⟩) ∧
    ∀ {n f}, L.Code n → n.Defines f → f.scope = i.scopes.size →
      L.Known (⟨(i.scopes.spawn s).2, i.out⟩, ⟨(j.scopes.spawn s).2, j.out⟩)
        (.callable (.closure f))

variable {L}

theorem Later.refl (w : Pair) : L.Later w w := ⟨fun _ h => h, fun _ h => h⟩

theorem Later.trans {w w' w'' : Pair} (h : L.Later w w') (h' : L.Later w' w'') :
    L.Later w w'' :=
  ⟨fun s hs => h'.usable s (h.usable s hs), fun v hv => h'.known v (h.known v hv)⟩

/-! ## computations that agree -/

/-- From the two states `x` and `y` end alike, in states that belong together, with a value that
is `Good` or an error that may be raised. -/
structure Agrees {α : Type} (L : Coupling) (Good : Pair → α → Prop) (w : Pair) (x y : Eval α) :
    Prop where
  same : (y w.2).1 = (x w.1).1
  linked : L.Linked ((x w.1).2, (y w.2).2)
  later : L.Later w ((x w.1).2, (y w.2).2)
  good : ∀ a, (x w.1).1 = .value a → Good ((x w.1).2, (y w.2).2) a
  blamed : ∀ e, (x w.1).1 = .error e → L.Blamed e

/-- A result, if there is any, may turn up. -/
def KnownResult (L : Coupling) (w : Pair) (r : Option Value) : Prop := ∀ v, r = some v → L.Known w v

def KnownAll (L : Coupling) (w : Pair) (vs : List Value) : Prop := ∀ v ∈ vs, L.Known w v

namespace Agrees

variable {α β : Type} {Good : Pair → α → Prop} {Good' : Pair → β → Prop} {w : Pair}

theorem pure {a : α} (hw : L.Linked w) (h : Good w a) :
    L.Agrees Good w (Pure.pure a) (Pure.pure a) := by
  refine ⟨rfl, hw, .refl w, ?_, ?_⟩
  · rintro _ ⟨⟩
    exact h
  · rintro _ ⟨⟩

theorem fail {e : EvalError} (hw : L.Linked w) (h : L.Blamed e) :
    L.Agrees Good w (Eval.fail e) (Eval.fail e) := by
  refine ⟨rfl, hw, .refl w, ?_, ?_⟩
  · rintro _ ⟨⟩
  · rintro _ ⟨⟩
    exact h

theorem ofExcept {r : Except EvalError α} (hw : L.Linked w) (hok : ∀ a, r = .ok a → Good w a)
    (herror : ∀ e, r = .error e → L.Blamed e) :
    L.Agrees Good w (Eval.ofExcept r) (Eval.ofExcept r) := by
  cases r with
  | ok a => exact pure hw (hok a rfl)
  | error e => exact fail hw (herror e rfl)

theorem andThen {x y : Eval α} {f g : α → Eval β} (hx : L.Agrees Good w x y)
    (hf : ∀ a w', L.Later w w' → L.Linked w' → Good w' a → L.Agrees Good' w' (f a) (g a)) :
    L.Agrees Good' w (x >>= f) (y >>= g) := by
  obtain ⟨same, linked, later, good, blamed⟩ := hx
  rcases hxi : x w.1 with ⟨o, i⟩
  rcases hyj : y w.2 with ⟨o', j⟩
  rw [hxi, hyj] at same linked later good
  rw [hxi] at blamed
  obtain rfl : o' = o := same
  cases o' with
  | value a =>
    have hi : (x >>= f) w.1 = f a i := by rw [Eval.bind_apply, hxi]
    have hj : (y >>= g) w.2 = g a j := by rw [Eval.bind_apply, hyj]
    obtain ⟨same', linked', later', good', blamed'⟩ := hf a (i, j) later linked (good a rfl)
    rw [← hi, ← hj] at same' linked' later' good'
    rw [← hi] at blamed'
    exact ⟨same', linked', later.trans later', good', blamed'⟩
  | error e =>
    have hi : (x >>= f) w.1 = (.error e, i) := by rw [Eval.bind_apply, hxi]
    have hj : (y >>= g) w.2 = (.error e, j) := by rw [Eval.bind_apply, hyj]
    refine ⟨by rw [hi, hj], by rw [hi, hj]; exact linked, by rw [hi, hj]; exact later, ?_, ?_⟩
    · rw [hi]
      rintro _ ⟨⟩
    · rw [hi]
      rintro _ ⟨⟩
      exact blamed e rfl
  | outOfFuel =>
    have hi : (x >>= f) w.1 = (.outOfFuel, i) := by rw [Eval.bind_apply, hxi]
    have hj : (y >>= g) w.2 = (.outOfFuel, j) := by rw [Eval.bind_apply, hyj]
    refine ⟨by rw [hi, hj], by rw [hi, hj]; exact linked, by rw [hi, hj]; exact later, ?_, ?_⟩
    · rw [hi]
      rintro _ ⟨⟩
    · rw [hi]
      rintro _ ⟨⟩

theorem after {w' : Pair} {x y x' y' : Eval α} (later : L.Later w w') (hx : x w.1 = x' w'.1)
    (hy : y w.2 = y' w'.2) (h : L.Agrees Good w' x' y') : L.Agrees Good w x y := by
  obtain ⟨same, linked, later', good, blamed⟩ := h
  rw [← hx, ← hy] at same linked later' good
  rw [← hx] at blamed
  exact ⟨same, linked, later.trans later', good, blamed⟩

end Agrees

/-! ## effects -/

namespace Kept

variable {w : Pair} {s : ScopeId} (h : L.Kept)
include h

theorem part {n m : Node} (hn : L.Runs n) (hm : m ∈ n.children) : L.Code m := by
  rcases hn with hcode | ⟨-, hall⟩
  · exact h.child hcode hm
  · exact hall m hm

theorem bindName {x : String} {v : Value} (hw : L.Linked w) (hs : L.Usable w s) (hx : L.Name x)
    (hv : L.Known w v) :
    L.Agrees (fun _ _ => True) w (Eval.bindName s x v) (Eval.bindName s x v) := by
  obtain ⟨linked, later⟩ := h.bind hw hs hx hv
  refine ⟨rfl, linked, later, fun _ _ => trivial, ?_⟩
  rintro _ ⟨⟩

theorem ofSink {α : Type} {Good : Pair → α → Prop} {r : Except SinkError α}
    (hw : L.Linked w) (hr : ∀ a, Good w a) :
    L.Agrees Good w (Eval.ofExcept (r.mapError .output)) (Eval.ofExcept (r.mapError .output)) := by
  refine .ofExcept hw (fun a _ => hr a) ?_
  cases r with
  | ok a => rintro e ⟨⟩
  | error cause =>
    rintro e ⟨⟩
    exact h.refused cause

theorem output (hw : L.Linked w) (text : String) :
    L.Agrees (fun _ _ => True) w (Eval.write text) (Eval.write text) := by
  obtain ⟨i, j⟩ := w
  obtain ⟨same, linked, later⟩ := h.write (utf8 text) hw
  have hwrite : ∀ k : Interpreter, Eval.write text k =
      Eval.ofExcept ((k.out.write (utf8 text)).1.mapError .output)
        ⟨k.scopes, (k.out.write (utf8 text)).2⟩ := by
    rintro ⟨scopes, out⟩
    simp only [Eval.write]
    rcases out.write (utf8 text) with ⟨e | ⟨⟩, out'⟩ <;> rfl
  refine .after later (hwrite i) ?_ (h.ofSink linked fun _ => trivial)
  rw [← same]
  exact hwrite j

theorem writeThrough {r : Option Value} (hw : L.Linked w) (hr : L.KnownResult w r) :
    L.Agrees (fun w' _ => L.KnownResult w' r) w Eval.flush Eval.flush := by
  obtain ⟨i, j⟩ := w
  have hflush : ∀ k : Interpreter,
      Eval.flush k = Eval.ofExcept (k.out.flush.mapError .output) k := by
    intro k
    unfold Eval.flush
    rcases k.out.flush with e | ⟨⟩ <;> rfl
  refine .after (.refl (i, j)) (hflush i) ?_ (h.ofSink hw fun _ => hr)
  rw [← h.flush hw]
  exact hflush j

theorem primitive {p : Primitive} {args : List Value} {span : Span} (hw : L.Linked w)
    (hspan : ∀ e, e.CalledAt span → L.Blamed e) :
    L.Agrees L.KnownResult w (p.apply args span) (p.apply args span) := by
  have number : ∀ r : Except EvalError Number, FailsAt span r →
      L.Agrees L.KnownResult w (Eval.ofExcept (r.map fun n => some (Value.number n)))
        (Eval.ofExcept (r.map fun n => some (Value.number n))) := by
    intro r hr
    refine .ofExcept hw ?_ fun e he => hspan e (hr.map _ e he)
    intro a ha v hv
    cases r with
    | ok n =>
      cases ha
      cases hv
      exact h.data w _ (by rintro f ⟨⟩)
    | error e => cases ha
  have text : ∀ r : Except EvalError String, FailsAt span r →
      L.Agrees (fun _ _ => True) w (Eval.ofExcept r) (Eval.ofExcept r) := fun r hr =>
    .ofExcept hw (fun _ _ => trivial) fun e he => hspan e (hr e he)
  cases p with
  | plus | multiply => exact number _ (Primitive.fold_failsAt _ span _ args _ _)
  | minus => exact number _ (Primitive.difference_failsAt span args)
  | divide => exact number _ (Primitive.quotient_failsAt span args)
  | display | displayln | newline =>
    refine (text _ (Primitive.outputText_failsAt _ span args)).andThen fun text w₁ _ hw₁ _ => ?_
    refine (h.output hw₁ text).andThen fun _ w₂ _ hw₂ _ => .pure hw₂ ?_
    rintro v ⟨⟩

theorem bindAll {bs : List (String × Value)} : ∀ {w : Pair}, L.Linked w → L.Usable w s →
    (∀ b ∈ bs, L.Name b.1 ∧ L.Known w b.2) →
    L.Agrees (fun _ _ => True) w (bindAll s bs) (bindAll s bs) := by
  induction bs with
  | nil => intro w hw _ _; exact .pure hw trivial
  | cons b bs ih =>
    intro w hw hs hbs
    obtain ⟨hx, hv⟩ := hbs b List.mem_cons_self
    refine (h.bindName hw hs hx hv).andThen fun _ w' later hw' _ => ?_
    refine ih hw' (later.usable s hs) fun b' hb' => ?_
    obtain ⟨hx', hv'⟩ := hbs b' (List.mem_cons_of_mem _ hb')
    exact ⟨hx', later.known _ hv'⟩

theorem lookUp {n : Node} (hw : L.Linked w) (hn : L.Code n) (hs : L.Usable w s)
    (hkind : n.kind = .variable) :
    L.Agrees L.Known w (variableValue n s) (variableValue n s) := by
  obtain ⟨i, j⟩ := w
  obtain ⟨same, known⟩ := h.find hw hs (h.name hn hkind)
  have hfind : L.Agrees L.KnownResult (i, j) (Eval.find s (n.identifier.getD ""))
      (Eval.find s (n.identifier.getD "")) := by
    refine ⟨congrArg Outcome.value same, hw, .refl _, ?_, ?_⟩
    · rintro _ ⟨⟩
      exact known
    · rintro _ ⟨⟩
  refine hfind.andThen fun r w' _ hw' hr => ?_
  cases r with
  | some v => exact .pure hw' (hr v rfl)
  | none => exact .fail hw' (h.raises hn (.notDefined hkind))

/-! ## one step of the evaluator -/

section Step

variable {ev ev' : Evaluator}
  (hev : ∀ {w n s}, L.Linked w → L.Runs n → L.Usable w s →
    L.Agrees L.KnownResult w (ev n s) (ev' n s))
include hev

theorem value {n : Node} (hw : L.Linked w) (hn : L.Code n) (hs : L.Usable w s) :
    L.Agrees L.Known w (ev.value n s) (ev'.value n s) := by
  refine (hev hw (.inl hn) hs).andThen fun r w' _ hw' hr => ?_
  cases r with
  | some v => exact .pure hw' (hr v rfl)
  | none => exact .fail hw' (h.raises hn .noValue)

theorem values {ns : List Node} : ∀ {w : Pair}, L.Linked w → (∀ n ∈ ns, L.Code n) →
    L.Usable w s → L.Agrees L.KnownAll w (ev.values s ns) (ev'.values s ns) := by
  induction ns with
  | nil => intro w hw _ _; exact .pure hw (by rintro v ⟨⟩)
  | cons n ns ih =>
    intro w hw hns hs
    have hn := hns n List.mem_cons_self
    refine (h.value hev hw hn hs).andThen fun v w₁ later₁ hw₁ hv => ?_
    have hrest := ih hw₁ (fun m hm => hns m (List.mem_cons_of_mem _ hm)) (later₁.usable s hs)
    refine hrest.andThen fun vs w₂ later₂ hw₂ hvs => .pure hw₂ fun u hu => ?_
    rcases List.mem_cons.1 hu with rfl | hu
    · exact later₂.known _ hv
    · exact hvs u hu

omit h in
theorem sequence {ns : List Node} : ∀ {w : Pair} {last : Option Value}, L.Linked w →
    (∀ n ∈ ns, L.Code n) → L.Usable w s → L.KnownResult w last →
    L.Agrees L.KnownResult w (ev.sequence s last ns) (ev'.sequence s last ns) := by
  induction ns with
  | nil => intro w last hw _ _ hlast; exact .pure hw hlast
  | cons n ns ih =>
    intro w last hw hns hs _
    refine (hev hw (.inl (hns n List.mem_cons_self)) hs).andThen fun r w' later hw' hr => ?_
    exact ih hw' (fun m hm => hns m (List.mem_cons_of_mem _ hm)) (later.usable s hs) hr

theorem applyWith {c : Callable} {args : List Value} {span : Span} (hw : L.Linked w)
    (hc : L.Known w (.callable c)) (hargs : L.KnownAll w args)
    (hspan : ∀ e, e.CalledAt span → L.Blamed e) :
    L.Agrees L.KnownResult w (applyWith ev c args span) (applyWith ev' c args span) := by
  cases c with
  | primitive p => exact h.primitive hw hspan
  | closure f =>
    simp only [SmallScheme.applyWith, callClosure]
    split
    · obtain ⟨i, j⟩ := w
      obtain ⟨linked, later, usable⟩ := h.enter hw hc
      have hopen : L.Agrees (fun w' s' => L.Usable w' s') (i, j)
          (Eval.spawn f.scope) (Eval.spawn f.scope) := by
        have hsize : j.scopes.size = i.scopes.size := h.size hw
        refine ⟨?_, linked, later, ?_, ?_⟩
        · exact congrArg Outcome.value hsize
        · rintro _ ⟨⟩
          exact usable
        · rintro _ ⟨⟩
      refine hopen.andThen fun s' w₁ later₁ hw₁ hs' => ?_
      have hbinds : ∀ b ∈ f.params.zip args, L.Name b.1 ∧ L.Known w₁ b.2 := by
        intro b hb
        obtain ⟨hx, hv⟩ := List.of_mem_zip hb
        exact ⟨(h.runnable hc).names _ hx, later₁.known _ (hargs _ hv)⟩
      refine (h.bindAll hw₁ hs' hbinds).andThen fun _ w₂ later₂ hw₂ _ => ?_
      exact hev hw₂ (h.runnable hc).runs (later₂.usable _ hs')
    · exact .fail hw (hspan _ (.arityMismatch _ _ _))

theorem call {n : Node} (hw : L.Linked w) (hn : L.Code n) (hs : L.Usable w s)
    (hkind : n.kind = .call) :
    L.Agrees L.KnownResult w (evaluateCall ev n s) (evaluateCall ev' n s) := by
  unfold evaluateCall
  split
  · exact .fail hw (h.raises hn .notCallable)
  · next head arguments hchildren =>
    have hhead : L.Code head := h.child hn (by rw [hchildren]; exact List.mem_cons_self)
    have harguments : ∀ m ∈ arguments, L.Code m := fun m hm =>
      h.child hn (by rw [hchildren]; exact List.mem_cons_of_mem _ hm)
    refine (h.value hev hw hhead hs).andThen fun v w₁ later₁ hw₁ hv => ?_
    cases v with
    | callable c =>
      refine (h.values hev hw₁ harguments (later₁.usable s hs)).andThen
        fun args w₂ later₂ hw₂ hargs => ?_
      exact h.applyWith hev hw₂ (later₂.known _ hv) hargs fun e he => h.raises hn (.call hkind he)
    | number | string => exact .fail hw₁ (h.raises hhead .notCallable)

theorem defineVariable {n target : Node} {rest : List Node} (hw : L.Linked w) (hn : L.Code n)
    (hs : L.Usable w s) (hkind : n.kind = .define) (hchildren : n.children = target :: rest)
    (htarget : target.kind = .variable) :
    L.Agrees L.KnownResult w (defineVariable ev n target rest s)
      (defineVariable ev' n target rest s) := by
  unfold SmallScheme.defineVariable
  split
  · next expression =>
    have hname : L.Name (target.identifier.getD "") :=
      h.name (h.child hn (by simp [hchildren])) htarget
    have hexpression : L.Code expression := h.child hn (by simp [hchildren])
    refine (h.value hev hw hexpression hs).andThen fun v w₁ later₁ hw₁ hv => ?_
    refine (h.bindName hw₁ (later₁.usable s hs) hname hv).andThen fun _ w₂ _ hw₂ _ => ?_
    exact .pure hw₂ (by rintro v ⟨⟩)
  · exact .fail hw (h.raises hn (.definition hkind (by decide) (by decide)))

omit hev in
theorem defineFunction {n target : Node} {rest : List Node} (hw : L.Linked w) (hn : L.Code n)
    (hs : L.Usable w s) (hkind : n.kind = .define) (hchildren : n.children = target :: rest)
    (htarget : target.kind = .call) :
    L.Agrees L.KnownResult w (defineFunction n target rest s) (defineFunction n target rest s) := by
  have hcode : L.Code target := h.child hn (by rw [hchildren]; exact List.mem_cons_self)
  unfold SmallScheme.defineFunction
  split
  · exact .fail hw (h.raises hn (.definition hkind (by decide) (by decide)))
  · have hhead : L.Agrees (fun _ names => headNames target.children = .ok names) w
        (Eval.ofExcept (headNames target.children))
        (Eval.ofExcept (headNames target.children)) := by
      refine .ofExcept hw (fun _ => id) fun e he => ?_
      obtain ⟨m, hm, hraises⟩ := headNames_error he
      exact h.raises (h.child hcode hm) hraises
    refine hhead.andThen fun names w₁ later₁ hw₁ hnames => ?_
    have hname : ∀ x ∈ names, L.Name x := by
      intro x hx
      obtain ⟨m, hm, hvariable, rfl⟩ := mem_of_headNames hnames x hx
      exact h.name (h.child hcode hm) hvariable
    cases names with
    | nil =>
      exact .fail hw₁ (h.raises hcode (.noName htarget (eq_nil_of_headNames hnames)))
    | cons name params =>
      obtain ⟨i, j⟩ := w₁
      obtain ⟨linked, later, known⟩ := h.capture hw₁ (later₁.usable s hs)
      have hdefines : ∀ s', n.Defines ⟨name, params, Node.body rest, s'⟩ := fun _ =>
        ⟨hkind, target, rest, hchildren, htarget, hnames, rfl⟩
      have hopen : L.Agrees (fun w' s' => L.Known w'
          (.callable (.closure ⟨name, params, Node.body rest, s'⟩))) (i, j)
          (Eval.spawn s) (Eval.spawn s) := by
        have hsize : j.scopes.size = i.scopes.size := h.size hw₁
        refine ⟨?_, linked, later, ?_, ?_⟩
        · exact congrArg Outcome.value hsize
        · rintro _ ⟨⟩
          exact known hn (hdefines _) rfl
        · rintro _ ⟨⟩
      refine hopen.andThen fun captured w₂ later₂ hw₂ hf => ?_
      have hs₂ := later₂.usable s (later₁.usable s hs)
      refine (h.bindName hw₂ hs₂ (hname name List.mem_cons_self) hf).andThen fun _ w₃ _ hw₃ _ => ?_
      exact .pure hw₃ (by rintro v ⟨⟩)

theorem define {n : Node} (hw : L.Linked w) (hn : L.Code n) (hs : L.Usable w s)
    (hkind : n.kind = .define) :
    L.Agrees L.KnownResult w (evaluateDefine ev n s) (evaluateDefine ev' n s) := by
  unfold evaluateDefine
  split
  · exact .fail hw (h.raises hn (.definition hkind (by decide) (by decide)))
  · next target rest hchildren =>
    split
    · next htarget => exact h.defineVariable hev hw hn hs hkind hchildren htarget
    · next htarget => exact h.defineFunction hw hn hs hkind hchildren htarget
    · next hvariable hcall =>
      have hcode : L.Code target := h.child hn (by rw [hchildren]; exact List.mem_cons_self)
      exact .fail hw (h.raises hcode (.noTarget hvariable hcall))

theorem step {n : Node} (hw : L.Linked w) (hn : L.Runs n) (hs : L.Usable w s) :
    L.Agrees L.KnownResult w (evaluateStep ev n s) (evaluateStep ev' n s) := by
  have hforms : L.Agrees L.KnownResult w (ev.sequence s none n.children)
      (ev'.sequence s none n.children) :=
    sequence hev hw (fun m hm => h.part hn hm) hs (by rintro v ⟨⟩)
  have hcode : n.kind ≠ .root → n.kind ≠ .function → L.Code n := by
    intro hroot hfunction
    rcases hn with hcode | ⟨hkind | hkind, -⟩
    · exact hcode
    · exact absurd hkind hroot
    · exact absurd hkind hfunction
  unfold evaluateStep
  cases hkind : n.kind with
  | root => exact hforms
  | function => exact hforms
  | literal =>
    have hn := hcode (by simp [hkind]) (by simp [hkind])
    cases hread : literalValue n with
    | ok v =>
      refine .pure hw ?_
      rintro _ ⟨⟩
      exact h.data w v (literalValue_ne_closure hread)
    | error e => exact .fail hw (h.raises hn (.literal hkind hread))
  | call => exact h.call hev hw (hcode (by simp [hkind]) (by simp [hkind])) hs hkind
  | define => exact h.define hev hw (hcode (by simp [hkind]) (by simp [hkind])) hs hkind
  | _ =>
    -- a variable
    have hn := hcode (by simp [hkind]) (by simp [hkind])
    refine (h.lookUp hw hn hs hkind).andThen fun v w' _ hw' hv => .pure hw' ?_
    rintro _ ⟨⟩
    exact hv

end Step

/-! ## whole evaluations -/

theorem evaluateWhere {allowed : Node → ScopeId → Interpreter → Prop}
    (hallowed : ∀ {i j n s}, L.Linked (i, j) → L.Runs n → L.Usable (i, j) s → allowed n s j)
    (stray : Eval (Option Value)) (fuel : Nat) :
    ∀ {w : Pair} {n : Node} {s : ScopeId}, L.Linked w → L.Runs n → L.Usable w s →
      L.Agrees L.KnownResult w (evaluateNode fuel n s) (evaluateWhere allowed stray fuel n s) := by
  induction fuel with
  | zero =>
    intro w n s hw _ _
    refine ⟨rfl, hw, .refl w, ?_, ?_⟩
    · rintro _ ⟨⟩
    · rintro _ ⟨⟩
  | succ fuel ih =>
    intro w n s hw hn hs
    -- within the relation the second evaluator is not cut off
    have hsucc := evaluateWhere_succ (hallowed hw hn hs) stray fuel
    exact .after (.refl w) rfl hsucc (h.step ih hw hn hs)

theorem evaluateNode (fuel : Nat) {n : Node} (hw : L.Linked w) (hn : L.Runs n)
    (hs : L.Usable w s) :
    L.Agrees L.KnownResult w (evaluateNode fuel n s) (evaluateNode fuel n s) := by
  have hall : L.Agrees L.KnownResult w (SmallScheme.evaluateNode fuel n s)
      (SmallScheme.evaluateWhere (fun _ _ _ => True) Eval.exhausted fuel n s) :=
    h.evaluateWhere (fun _ _ _ => trivial) _ fuel hw hn hs
  rwa [evaluateWhere_of_forall (fun _ _ _ => trivial)] at hall

theorem evaluate (fuel : Nat) {root : Node} (hw : L.Linked w) (hn : L.Runs root)
    (hs : L.Usable w Scopes.global)
    (hroot : root.kind ≠ .root → L.Blamed (.notRoot root.kind)) :
    L.Agrees L.KnownResult w (evaluate fuel root) (evaluate fuel root) := by
  unfold SmallScheme.evaluate
  split
  · refine (h.evaluateNode fuel hw hn hs).andThen fun r w₁ _ hw₁ hr => ?_
    exact (h.writeThrough hw₁ hr).andThen fun _ w₂ _ hw₂ hr₂ => .pure hw₂ hr₂
  · next hkind => exact .fail hw (hroot hkind)

theorem apply (fuel : Nat) {c : Callable} {args : List Value} {span : Span}
    (hw : L.Linked w) (hc : L.Known w (.callable c)) (hargs : L.KnownAll w args)
    (hspan : ∀ e, e.CalledAt span → L.Blamed e) :
    L.Agrees L.KnownResult w (apply fuel c args span) (apply fuel c args span) :=
  h.applyWith (h.evaluateNode fuel) hw hc hargs hspan

end Kept

end Coupling

end SmallScheme
