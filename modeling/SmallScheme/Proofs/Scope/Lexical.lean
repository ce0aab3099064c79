import SmallScheme.Proofs.Evaluation.Coupling
import SmallScheme.Proofs.Program
import SmallScheme.Proofs.Scope.WellFormed

/-!
Scoping is lexical. A call depends on the scopes that can be reached from the procedure and its
arguments, and on no others.

* `Scopes.Closed R a` — ways up and functions lead from the scopes in `R` only to scopes in `R`;
* `Scopes.AgreeOn R a b` — the scopes in `R` are the same in both arenas;
* `SameEffect i j p q` — two computations from `i` and `j` end alike, write the same and open the
  same scopes;
* `lexicalCoupling` — two interpreters that agree on `R` and on all scopes since a given one;
* `scoping_is_lexical`: a call has the same effect in two such states, whatever the other scopes
  hold, such as the scope of the caller.
-/

namespace SmallScheme

/-! ## scopes that agree -/

/-- The scopes have the same parent, and every name has the same value in both. -/
structure Scope.Same (a b : Scope) : Prop where
  parent : b.parent = a.parent
  get? : ∀ name, b.bindings.get? name = a.bindings.get? name

/-- A function keeps a scope in `R`. -/
def Value.CapturesIn (R : ScopeId → Prop) (v : Value) : Prop :=
  ∀ f : Closure, v = .callable (.closure f) → R f.scope

namespace Scopes

/-- From the scopes in `R` the ways up and the functions lead to scopes in `R`. -/
structure Closed (R : ScopeId → Prop) (a : Scopes) : Prop where
  parent : ∀ {id scope p}, R id → a.get? id = some scope → scope.parent = some p → R p
  captured : ∀ {id scope name v}, R id → a.get? id = some scope →
    scope.bindings.get? name = some v → v.CapturesIn R

/-- The arenas have equally many scopes, and those in `R` are the same. -/
structure AgreeOn (R : ScopeId → Prop) (a b : Scopes) : Prop where
  size : b.size = a.size
  same : ∀ {id before}, R id → a.get? id = some before →
    ∃ after, b.get? id = some after ∧ before.Same after

variable {R : ScopeId → Prop} {a b : Scopes}

theorem findWithin_of_agreeOn (hclosed : a.Closed R) (hagree : a.AgreeOn R b) (name : String)
    (fuel : Nat) : ∀ id, R id → b.findWithin name fuel id = a.findWithin name fuel id ∧
      ∀ v, a.findWithin name fuel id = some v → v.CapturesIn R := by
  induction fuel with
  | zero => intro id _; exact ⟨rfl, fun v hv => by cases hv⟩
  | succ fuel ih =>
    intro id hid
    rw [findWithin, findWithin]
    cases ha : a.get? id with
    | none =>
      have hb : b.get? id = none := by
        cases hb : b.get? id with
        | none => rfl
        | some scope =>
          have hlt := lt_size_of_get? hb
          rw [hagree.size] at hlt
          obtain ⟨scope', hs'⟩ := exists_get?_of_lt hlt
          rw [ha] at hs'
          cases hs'
      rw [hb]
      exact ⟨rfl, fun v hv => by cases hv⟩
    | some before =>
      obtain ⟨after, hb, hsame⟩ := hagree.same hid ha
      rw [hb, Option.bind_some, Option.bind_some, hsame.get?, hsame.parent]
      cases hget : before.bindings.get? name with
      | some v =>
        refine ⟨rfl, ?_⟩
        rintro _ ⟨⟩
        exact hclosed.captured hid ha hget
      | none =>
        cases hp : before.parent with
        | none => exact ⟨rfl, fun v hv => by cases hv⟩
        | some p => exact ih p (hclosed.parent hid ha hp)

theorem Closed.bind (h : a.Closed R) {s : ScopeId} {name : String} {v : Value}
    (hv : v.CapturesIn R) : (a.bind s name v).Closed R := by
  have hget : ∀ {id scope}, (a.bind s name v).get? id = some scope →
      ∃ before, a.get? id = some before ∧ scope.parent = before.parent ∧
        ∀ x u, scope.bindings.get? x = some u → u = v ∨ before.bindings.get? x = some u := by
    intro id scope hs
    rw [get?_bind] at hs
    split at hs
    · next hid =>
      subst hid
      obtain ⟨before, hb, rfl⟩ := Option.map_eq_some_iff.1 hs
      refine ⟨before, hb, rfl, fun x u hu => ?_⟩
      rw [Bindings.get?_set] at hu
      split at hu
      · exact .inl (Option.some.inj hu).symm
      · exact .inr hu
    · exact ⟨scope, hs, rfl, fun x u hu => .inr hu⟩
  refine ⟨?_, ?_⟩
  · intro id scope p hid hs hp
    obtain ⟨before, hb, hparent, -⟩ := hget hs
    exact h.parent hid hb (hparent ▸ hp)
  · intro id scope x u hid hs hu
    obtain ⟨before, hb, -, hold⟩ := hget hs
    rcases hold x u hu with rfl | hu
    · exact hv
    · exact h.captured hid hb hu

theorem Closed.spawn (h : a.Closed R) {p : ScopeId} (hp : R p) : (a.spawn p).2.Closed R := by
  refine ⟨?_, ?_⟩
  · intro id scope q hid hs hq
    rw [get?_spawn] at hs
    split at hs
    · cases hs
      cases hq
      exact hp
    · exact h.parent hid hs hq
  · intro id scope x u hid hs hu
    rw [get?_spawn] at hs
    split at hs
    · cases hs
      cases hu
    · exact h.captured hid hs hu

theorem AgreeOn.bind (h : a.AgreeOn R b) (s : ScopeId) (name : String) (v : Value) :
    (a.bind s name v).AgreeOn R (b.bind s name v) := by
  refine ⟨by rw [size_bind, size_bind, h.size], ?_⟩
  intro id scope hid hs
  rw [get?_bind] at hs ⊢
  split at hs
  · next hsid =>
    subst hsid
    obtain ⟨before, hbefore, rfl⟩ := Option.map_eq_some_iff.1 hs
    obtain ⟨after, hafter, hsame⟩ := h.same hid hbefore
    rw [if_pos rfl, hafter]
    refine ⟨_, rfl, hsame.parent, fun x => ?_⟩
    simp only [Bindings.get?_set, hsame.get?]
  · next hsid =>
    rw [if_neg hsid]
    exact h.same hid hs

theorem AgreeOn.spawn (h : a.AgreeOn R b) (p : ScopeId) :
    (a.spawn p).2.AgreeOn R (b.spawn p).2 := by
  refine ⟨by rw [size_spawn, size_spawn, h.size], ?_⟩
  intro id scope hid hs
  rw [get?_spawn] at hs ⊢
  rw [h.size]
  split at hs
  · next hnew =>
    rw [if_pos hnew]
    exact ⟨scope, hs, rfl, fun _ => rfl⟩
  · next hold =>
    rw [if_neg hold]
    exact h.same hid hs

end Scopes

/-! ## the two runs of a call -/

/-- The computations `p` from the state `i` and `q` from the state `j` end alike, write the same
and open the same scopes. -/
structure SameEffect (i j : Interpreter) (p q : Outcome (Option Value) × Interpreter) : Prop where
  outcome : q.1 = p.1
  output : ∃ bytes, p.2.out.written = i.out.written ++ bytes ∧
    q.2.out.written = j.out.written ++ bytes
  size : q.2.scopes.size = p.2.scopes.size
  opened : ∀ id : Nat, i.scopes.size ≤ id → q.2.scopes.get? id = p.2.scopes.get? id

/-- The scopes in `R` and all that are opened after the first `n`. -/
def Since (n : Nat) (R : ScopeId → Prop) (id : ScopeId) : Prop := R id ∨ n ≤ id

/-- Two states that a call from `i` and `j` has led to. -/
structure InStep (R : ScopeId → Prop) (i j i' j' : Interpreter) : Prop where
  closed : i'.scopes.Closed (Since i.scopes.size R)
  agree : i'.scopes.AgreeOn (Since i.scopes.size R) j'.scopes
  size_le : i.scopes.size ≤ i'.scopes.size
  opened : ∀ id : Nat, i.scopes.size ≤ id → j'.scopes.get? id = i'.scopes.get? id
  accepts : i'.out.Accepts ∧ j'.out.Accepts
  output : ∃ bytes, i'.out.written = i.out.written ++ bytes ∧
    j'.out.written = j.out.written ++ bytes

/-- Two interpreters that agree on `R` and on all scopes that were opened since `i` and `j`. -/
def lexicalCoupling (R : ScopeId → Prop) (i j : Interpreter) : Coupling where
  Linked := fun (i', j') => InStep R i j i' j'
  Usable _ s := i.scopes.size ≤ s
  Known _ v := v.CapturesIn (Since i.scopes.size R)
  Code _ := True
  Name _ := True
  Blamed _ := True

section Lexical

variable {R : ScopeId → Prop} {i j : Interpreter}

theorem lexicalCoupling_later (w w' : Pair) : (lexicalCoupling R i j).Later w w' :=
  ⟨fun _ h => h, fun _ h => h⟩

theorem InStep.spawn {i' j' : Interpreter} (h : InStep R i j i' j') {p : ScopeId}
    (hp : Since i.scopes.size R p) :
    InStep R i j ⟨(i'.scopes.spawn p).2, i'.out⟩ ⟨(j'.scopes.spawn p).2, j'.out⟩ := by
  refine ⟨h.closed.spawn hp, h.agree.spawn p, ?_, ?_, h.accepts, h.output⟩
  · rw [Scopes.size_spawn]
    exact Nat.le_succ_of_le h.size_le
  · intro id hid
    rw [Scopes.get?_spawn, Scopes.get?_spawn, h.agree.size, h.opened id hid]

theorem write_of_accepts {s : Sink} (h : s.Accepts) (bytes : List UInt8) :
    (s.write bytes).1 = .ok () ∧ (s.write bytes).2.written = s.written ++ bytes := by
  refine ⟨?_, ?_⟩
  · rw [Sink.write, h.1]
  · rw [Sink.written_write, h.1]
    rfl

theorem lexicalCoupling_kept : (lexicalCoupling R i j).Kept where
  child _ _ := trivial
  name _ _ := trivial
  raises _ _ := trivial
  refused _ := trivial
  data _ _ h f hf := absurd hf (h f)
  runnable _ := ⟨.inl trivial, fun _ _ => trivial⟩
  size h := h.agree.size
  find := by
    intro i' j' s x h hs _
    have hfind := Scopes.findWithin_of_agreeOn h.closed h.agree x i'.scopes.size s (.inr hs)
    rw [Scopes.find, Scopes.find, h.agree.size]
    exact hfind
  bind := by
    intro i' j' s x v h hs _ hv
    refine ⟨⟨h.closed.bind hv, h.agree.bind s x v, ?_, ?_, h.accepts, h.output⟩,
      lexicalCoupling_later _ _⟩
    · rw [Scopes.size_bind]
      exact h.size_le
    · intro id hid
      rw [Scopes.get?_bind, Scopes.get?_bind, h.opened id hid, h.opened s hs]
  write := by
    intro i' j' bytes h
    obtain ⟨hok, hwritten⟩ := write_of_accepts h.accepts.1 bytes
    obtain ⟨hok', hwritten'⟩ := write_of_accepts h.accepts.2 bytes
    obtain ⟨before, hi, hj⟩ := h.output
    refine ⟨by rw [hok, hok'], ⟨h.closed, h.agree, h.size_le, h.opened,
      ⟨h.accepts.1.write bytes, h.accepts.2.write bytes⟩, before ++ bytes, ?_, ?_⟩,
      lexicalCoupling_later _ _⟩
    · rw [hwritten, hi, List.append_assoc]
    · rw [hwritten', hj, List.append_assoc]
  flush := by
    intro i' j' h
    rw [Sink.flush, Sink.flush, h.accepts.1.2, h.accepts.2.2]
  enter h hf := ⟨h.spawn (hf _ rfl), lexicalCoupling_later _ _, h.size_le⟩
  capture := by
    intro i' j' s h hs
    refine ⟨h.spawn (.inr hs), lexicalCoupling_later _ _, ?_⟩
    rintro n f - - hscope _ ⟨⟩
    rw [hscope]
    exact .inr h.size_le

theorem sameEffect_apply (hclosed : i.scopes.Closed R) (hagree : i.scopes.AgreeOn R j.scopes)
    (hi : i.out.Accepts) (hj : j.out.Accepts) {c : Callable} {args : List Value}
    (hc : (Value.callable c).CapturesIn R) (hargs : ∀ v ∈ args, v.CapturesIn R) (fuel : Nat)
    (span : Span) :
    SameEffect i j (apply fuel c args span i) (apply fuel c args span j) := by
  -- no scope is there yet of those that are to be opened
  have hfresh : ∀ {id : Nat} {scope}, i.scopes.size ≤ id → i.scopes.get? id ≠ some scope := by
    intro id scope hid hs
    have hlt := Scopes.lt_size_of_get? hs
    omega
  have hstart : InStep R i j i j := by
    refine ⟨⟨?_, ?_⟩, ⟨hagree.size, ?_⟩, Nat.le_refl _, ?_, ⟨hi, hj⟩, [], by simp, by simp⟩
    · rintro id scope p (hid | hid) hs hp
      · exact .inl (hclosed.parent hid hs hp)
      · exact absurd hs (hfresh hid)
    · rintro id scope x v (hid | hid) hs hv f hf
      · exact .inl (hclosed.captured hid hs hv f hf)
      · exact absurd hs (hfresh hid)
    · rintro id scope (hid | hid) hs
      · exact hagree.same hid hs
      · exact absurd hs (hfresh hid)
    · intro id hid
      have hid' : j.scopes.size ≤ id := by
        rw [hagree.size]
        exact hid
      rw [Scopes.get?, Scopes.get?, Array.getElem?_eq_none hid, Array.getElem?_eq_none hid']
  have hagrees : (lexicalCoupling R i j).Agrees _ (i, j) (apply fuel c args span)
      (apply fuel c args span) :=
    lexicalCoupling_kept.apply fuel hstart (fun f hf => .inl (hc f hf))
      (fun v hv f hf => .inl (hargs v hv f hf)) fun _ _ => trivial
  have hend : InStep R i j _ _ := hagrees.linked
  exact ⟨hagrees.same, hend.output, hend.agree.size, hend.opened⟩

end Lexical

/-! ## what a call can reach -/

namespace Scopes

/-- The scopes that can be reached from a procedure and its arguments. -/
inductive Reachable (a : Scopes) (c : Callable) (args : List Value) : ScopeId → Prop
  | callee {f : Closure} : c = .closure f → Reachable a c args f.scope
  | argument {f : Closure} : .callable (.closure f) ∈ args → Reachable a c args f.scope
  | parent {id p : ScopeId} {scope : Scope} : Reachable a c args id → a.get? id = some scope →
      scope.parent = some p → Reachable a c args p
  | captured {id : ScopeId} {scope : Scope} {name : String} {f : Closure} :
      Reachable a c args id → a.get? id = some scope →
      scope.bindings.get? name = some (.callable (.closure f)) → Reachable a c args f.scope

theorem closed_reachable (a : Scopes) (c : Callable) (args : List Value) :
    a.Closed (a.Reachable c args) := by
  refine ⟨fun hid hs hp => .parent hid hs hp, ?_⟩
  rintro id scope name _ hid hs hv f rfl
  exact .captured hid hs hv

/-- The arena with other bindings in one of its scopes. -/
def rebind (a : Scopes) (id : ScopeId) (bindings : Bindings) : Scopes :=
  ⟨a.arena.modify id fun scope => { scope with bindings }⟩

theorem agreeOn_rebind {R : ScopeId → Prop} (a : Scopes) {id : ScopeId} (hid : ¬ R id)
    (bindings : Bindings) : a.AgreeOn R (a.rebind id bindings) := by
  refine ⟨Array.size_modify, ?_⟩
  intro other scope hother hs
  have hne : id ≠ other := by
    rintro rfl
    exact hid hother
  refine ⟨scope, ?_, rfl, fun _ => rfl⟩
  rw [get?, rebind, Array.getElem?_modify, if_neg hne]
  exact hs

end Scopes

/-- **Scoping is lexical.** Let two states have equally many scopes, of which those in `R` are the
same, and let `R` hold the scopes that the procedure and its arguments keep, and all that ways up
and functions lead to from there. Then the call has the same effect in both. In particular other
bindings in a scope that cannot be reached from the procedure and its arguments, such as the scope
of the caller, make no difference. -/
theorem scoping_is_lexical (i : Interpreter) (hi : i.out.Accepts) (c : Callable)
    (args : List Value) :
    (∀ (R : ScopeId → Prop) (j : Interpreter), i.scopes.Closed R → i.scopes.AgreeOn R j.scopes →
      j.out.Accepts → (Value.callable c).CapturesIn R → (∀ v ∈ args, v.CapturesIn R) →
      ∀ fuel span, SameEffect i j (apply fuel c args span i) (apply fuel c args span j)) ∧
    (∀ id, ¬ i.scopes.Reachable c args id → ∀ bindings fuel span,
      SameEffect i ⟨i.scopes.rebind id bindings, i.out⟩ (apply fuel c args span i)
        (apply fuel c args span ⟨i.scopes.rebind id bindings, i.out⟩)) := by
  refine ⟨?_, ?_⟩
  · intro R j hclosed hagree hj hc hargs fuel span
    exact sameEffect_apply hclosed hagree hi hj hc hargs fuel span
  · intro id hid bindings fuel span
    have hclosed := i.scopes.closed_reachable c args
    have hagree := i.scopes.agreeOn_rebind hid bindings
    refine sameEffect_apply (j := ⟨i.scopes.rebind id bindings, i.out⟩) hclosed hagree hi hi ?_ ?_
      fuel span
    · rintro f ⟨⟩
      exact .callee rfl
    · rintro _ hv f rfl
      exact .argument hv

/-- A function whose body is the variable `x`. -/
def lookX : Closure := ⟨"f", [], .body [.leaf ⟨"x", .identifier, ⟨1, 0⟩, ⟨0, 0⟩⟩], 1⟩

/-- A global `x`, the scope that the function keeps, and a scope below it with an `x` of its own. -/
def lookState : Interpreter :=
  ⟨⟨#[⟨none, [("x", .string "global")]⟩, ⟨some 0, []⟩, ⟨some 1, [("x", .string "own")]⟩]⟩,
    .unlimited⟩

theorem reachable_lookState {id : Nat}
    (h : lookState.scopes.Reachable (.closure lookX) [] id) : id ≤ 1 := by
  have hget : ∀ {id : Nat} {scope}, id ≤ 1 → lookState.scopes.get? id = some scope →
      scope = ⟨none, [("x", .string "global")]⟩ ∨ scope = ⟨some 0, []⟩ := by
    intro id scope hid hs
    rcases (by omega : id = 0 ∨ id = 1) with rfl | rfl
    · exact .inl (Option.some.inj hs).symm
    · exact .inr (Option.some.inj hs).symm
  induction h with
  | callee hf => cases hf; decide
  | argument hmem => cases hmem
  | parent _ hs hp ih =>
    rcases hget ih hs with rfl | rfl
    · cases hp
    · cases hp
      decide
  | captured _ hs hv ih =>
    rcases hget ih hs with rfl | rfl
    · rw [Bindings.get?] at hv
      split at hv <;> cases hv
    · cases hv

/-- The function does not see the `x` of a caller in the third scope. -/
theorem scoping_is_lexical_look :
    lookState.out.Accepts ∧ ¬ lookState.scopes.Reachable (.closure lookX) [] 2 ∧
    (apply 9 (.closure lookX) [] ⟨0, 0⟩ lookState).1 = .value (some (.string "global")) ∧
    SameEffect lookState ⟨lookState.scopes.rebind 2 [("x", .string "other")], .unlimited⟩
      (apply 9 (.closure lookX) [] ⟨0, 0⟩ lookState)
      (apply 9 (.closure lookX) [] ⟨0, 0⟩
        ⟨lookState.scopes.rebind 2 [("x", .string "other")], .unlimited⟩) := by
  have hfar : ¬ lookState.scopes.Reachable (.closure lookX) [] 2 := by
    intro h
    have := reachable_lookState h
    omega
  have hi := Sink.accepts_unlimited
  exact ⟨hi, hfar, rfl, (scoping_is_lexical lookState hi (.closure lookX) []).2 2 hfar _ 9 ⟨0, 0⟩⟩

end SmallScheme
