import SmallScheme.Proofs.Evaluation.Effect
import SmallScheme.Proofs.Scope.WellFormed

/-!
What evaluations and calls leave alone. An evaluation changes no scope that was there before but
the one it happens in, of which it keeps the parent and all names; a call changes none.

* `Scopes.Frame s a b` — the arena `b` can be left by an evaluation in the scope `s` of `a`;
* `frame_guarantee`: it is kept by every effect of an evaluation;
* `StartsCall` — the calls that an evaluation makes, at whatever depth, each with the state that
  it finds; `StartsCall.frame` is the same frame for all of these states.
-/

namespace SmallScheme

/-! ## frames -/

/-- The arena `b` has the scopes of `a`, of which only `s` may differ, by more names or other
values. -/
structure Scopes.Frame (s : ScopeId) (a b : Scopes) : Prop where
  size_le : a.size ≤ b.size
  others : ∀ id : Nat, id < a.size → id ≠ s → b.get? id = a.get? id
  own : ∀ before, a.get? s = some before → ∃ after, b.get? s = some after ∧
    after.parent = before.parent ∧
    ∀ name, (before.bindings.get? name).isSome → (after.bindings.get? name).isSome

namespace Scopes.Frame

variable {s : Nat} {a b c : Scopes}

theorem refl (s : ScopeId) (a : Scopes) : Frame s a a :=
  ⟨Nat.le_refl _, fun _ _ _ => rfl, fun before h => ⟨before, h, rfl, fun _ hn => hn⟩⟩

theorem trans (h₁ : Frame s a b) (h₂ : Frame s b c) : Frame s a c := by
  refine ⟨Nat.le_trans h₁.size_le h₂.size_le, ?_, ?_⟩
  · intro id hid hne
    have hle := h₁.size_le
    rw [h₂.others id (by omega) hne, h₁.others id hid hne]
  · intro before hb
    obtain ⟨mid, hm, hpm, hnm⟩ := h₁.own before hb
    obtain ⟨after, ha, hpa, hna⟩ := h₂.own mid hm
    exact ⟨after, ha, hpa.trans hpm, fun name hn => hna name (hnm name hn)⟩

theorem bind (s : ScopeId) (a : Scopes) (name : String) (v : Value) :
    Frame s a (a.bind s name v) := by
  refine ⟨by simp, ?_, ?_⟩
  · intro id _ hne
    rw [get?_bind, if_neg (Ne.symm hne)]
  · intro before hb
    refine ⟨_, get?_bind_self hb name v, rfl, ?_⟩
    intro other hn
    rw [Bindings.get?_set]
    split
    · rfl
    · exact hn

theorem of_extends (h : b.Extends a) : Frame s a b := by
  refine ⟨h.size_le, fun id hid _ => h id hid, fun before hb => ?_⟩
  exact ⟨before, (h s (lt_size_of_get? hb)).trans hb, rfl, fun _ hn => hn⟩

theorem extends_of_spawn {p : ScopeId} (h : Frame a.size (a.spawn p).2 b) : b.Extends a := by
  intro id hid
  have hne : id ≠ a.size := by omega
  rw [h.others id (by rw [size_spawn]; omega) hne, get?_spawn, if_neg hne]

end Scopes.Frame

theorem frame_guarantee : Guarantee fun s i j => Scopes.Frame s i.scopes j.scopes where
  refl s i := .refl s i.scopes
  trans := Scopes.Frame.trans
  bind s i name v := .bind s i.scopes name v
  write s i _ := .refl s i.scopes
  inner h := .of_extends (Scopes.Frame.extends_of_spawn h)

theorem extends_of_apply (fuel : Nat) (c : Callable) (args : List Value) (span : Span)
    (i : Interpreter) : (apply fuel c args span i).2.scopes.Extends i.scopes := by
  -- a call is an effect in every scope, so also in one that is not there
  have h := frame_guarantee.apply fuel c args span i.scopes.size i
  intro id hid
  exact h.others id hid (by omega)

/-! ## the calls that an evaluation makes -/

/-- The state in which the body of a function is evaluated: the scope of the call is open, and
the parameters are bound in it. -/
def Closure.enter (f : Closure) (args : List Value) (i : Interpreter) : Interpreter :=
  (bindAll i.scopes.size (f.params.zip args) ⟨(i.scopes.spawn f.scope).2, i.out⟩).2

/-- While `n` is evaluated in `scope` from the state `i`, the procedure `c` is called with `args`
in the state `j`. -/
inductive StartsCall : Node → ScopeId → Interpreter → Callable → List Value → Interpreter → Prop
  | inForm {fuel n pre m post scope i r j c args k} :
      n.kind = .root ∨ n.kind = .function → n.children = pre ++ m :: post →
      (evaluateNode fuel).sequence scope none pre i = (.value r, j) →
      StartsCall m scope j c args k → StartsCall n scope i c args k
  | inHead {n head rest scope i c args k} :
      n.kind = .call → n.children = head :: rest →
      StartsCall head scope i c args k → StartsCall n scope i c args k
  | inArgument {fuel n head pre m post scope i d j vs j' c args k} :
      n.kind = .call → n.children = head :: (pre ++ m :: post) →
      (evaluateNode fuel).value head scope i = (.value (.callable d), j) →
      (evaluateNode fuel).values scope pre j = (.value vs, j') →
      StartsCall m scope j' c args k → StartsCall n scope i c args k
  | here {fuel n head rest scope i c j args k} :
      n.kind = .call → n.children = head :: rest →
      (evaluateNode fuel).value head scope i = (.value (.callable c), j) →
      (evaluateNode fuel).values scope rest j = (.value args, k) → StartsCall n scope i c args k
  | inBody {n scope i f vs j c args k} :
      StartsCall n scope i (.closure f) vs j → vs.length = f.params.length →
      StartsCall f.body j.scopes.size (f.enter vs j) c args k → StartsCall n scope i c args k
  | inDefinition {n target m scope i c args k} :
      n.kind = .define → n.children = [target, m] → target.kind = .variable →
      StartsCall m scope i c args k → StartsCall n scope i c args k

theorem Closure.enter_frame (f : Closure) (args : List Value) (i : Interpreter) :
    Scopes.Frame i.scopes.size (i.scopes.spawn f.scope).2 (f.enter args i).scopes :=
  frame_guarantee.bindAll (f.params.zip args) ⟨(i.scopes.spawn f.scope).2, i.out⟩

theorem Closure.extends_of_enter {f : Closure} {args : List Value} {i : Interpreter} {a : Scopes}
    (h : Scopes.Frame i.scopes.size (f.enter args i).scopes a) : a.Extends i.scopes :=
  ((f.enter_frame args i).trans h).extends_of_spawn

theorem StartsCall.frame {n : Node} {scope : ScopeId} {i j : Interpreter} {c : Callable}
    {args : List Value} (h : StartsCall n scope i c args j) :
    Scopes.Frame scope i.scopes j.scopes := by
  have hev := fun fuel => frame_guarantee.evaluateNode fuel
  induction h with
  | @inForm fuel _ pre _ _ scope i _ _ _ _ _ _ _ hpre _ ih =>
    have hseq := frame_guarantee.sequence (hev fuel) (s := scope) pre none i
    rw [hpre] at hseq
    exact hseq.trans ih
  | inHead _ _ _ ih => exact ih
  | @inArgument fuel _ head pre _ _ scope i _ j _ _ _ _ _ _ _ hhead hpre _ ih =>
    have hvalue := frame_guarantee.value (hev fuel) (s := scope) head i
    have hvalues := frame_guarantee.values (hev fuel) (s := scope) pre j
    rw [hhead] at hvalue
    rw [hpre] at hvalues
    exact hvalue.trans (hvalues.trans ih)
  | @here fuel _ head rest scope i _ j _ _ _ _ hhead hargs =>
    have hvalue := frame_guarantee.value (hev fuel) (s := scope) head i
    have hvalues := frame_guarantee.values (hev fuel) (s := scope) rest j
    rw [hhead] at hvalue
    rw [hargs] at hvalues
    exact hvalue.trans hvalues
  | inBody _ _ _ ih₁ ih₂ => exact ih₁.trans (.of_extends (Closure.extends_of_enter ih₂))
  | inDefinition _ _ _ _ ih => exact ih

/-! ## what a call sees -/

theorem get?_bindAll {s : ScopeId} {name : String} (bs : List (String × Value))
    (hname : ∀ b ∈ bs, b.1 ≠ name) : ∀ (i : Interpreter) (before : Scope),
      i.scopes.get? s = some before → ∃ after, (bindAll s bs i).2.scopes.get? s = some after ∧
        after.parent = before.parent ∧ after.bindings.get? name = before.bindings.get? name := by
  induction bs with
  | nil => intro i before h; exact ⟨before, h, rfl, rfl⟩
  | cons b bs ih =>
    intro i before h
    have hset := Scopes.get?_bind_self h b.1 b.2
    obtain ⟨after, hafter, hparent, hget⟩ :=
      ih (fun b' hb' => hname b' (by simp [hb'])) ⟨i.scopes.bind s b.1 b.2, i.out⟩ _ hset
    refine ⟨after, hafter, hparent, ?_⟩
    rw [hget, Bindings.get?_set, if_neg (hname b (by simp))]

theorem Closure.find_enter {f : Closure} {args : List Value} {i : Interpreter} {a : Scopes}
    {name : String} (ha : a.WellFormed) (h : i.scopes.Extends a) (hf : f.scope < a.size)
    (hname : name ∉ f.params) :
    (f.enter args i).scopes.find i.scopes.size name = a.find f.scope name := by
  have hfresh : (i.scopes.spawn f.scope).2.get? i.scopes.size = some ⟨some f.scope, []⟩ := by
    rw [Scopes.get?_spawn, if_pos rfl]
  have hother : ∀ b ∈ f.params.zip args, b.1 ≠ name := by
    rintro b hb rfl
    exact hname (List.of_mem_zip hb).1
  obtain ⟨scope, hs, hparent, hget⟩ :=
    get?_bindAll _ hother ⟨(i.scopes.spawn f.scope).2, i.out⟩ _ hfresh
  have hext : (f.enter args i).scopes.Extends a := by
    intro id hid
    rw [Closure.extends_of_enter (.refl _ _) id (by have := h.size_le; omega), h id hid]
  exact Scopes.find_of_parent ha hext hs hparent hget hf h.size_le

/-- **Calls change no scope that was there before.** In a well-formed arena a call leaves every
scope as it was, and so what each of them sees. An evaluation leaves every scope but its own,
which keeps its parent and its names. And a function that was there before a call of `f`, such as
`f` itself, sees nothing of that call when the body of `f` calls it: but for its own parameters
each name is what it was before. -/
theorem calls_change_no_scope (i : Interpreter) (hi : i.scopes.WellFormed) :
    (∀ fuel c args span (id : Nat), id < i.scopes.size →
      (apply fuel c args span i).2.scopes.get? id = i.scopes.get? id ∧
      ∀ name, (apply fuel c args span i).2.scopes.find id name = i.scopes.find id name) ∧
    (∀ fuel n (s : Nat), s < i.scopes.size →
      (∀ id : Nat, id < i.scopes.size → id ≠ s →
        (evaluateNode fuel n s i).2.scopes.get? id = i.scopes.get? id) ∧
      ∃ before after, i.scopes.get? s = some before ∧
        (evaluateNode fuel n s i).2.scopes.get? s = some after ∧ after.parent = before.parent ∧
        ∀ name, (before.bindings.get? name).isSome → (after.bindings.get? name).isSome) ∧
    (∀ (f g : Closure) vs args j,
      StartsCall f.body i.scopes.size (f.enter vs i) (.closure g) args j →
      g.scope < i.scopes.size → ∀ name, name ∉ g.params →
        (g.enter args j).scopes.find j.scopes.size name = i.scopes.find g.scope name) := by
  refine ⟨?_, ?_, ?_⟩
  · intro fuel c args span id hid
    have hext := extends_of_apply fuel c args span i
    exact ⟨hext id hid, Scopes.find_of_extends hi hext hid⟩
  · intro fuel n s hs
    have hframe := frame_guarantee.evaluateNode fuel n s i
    obtain ⟨before, hb⟩ := Scopes.exists_get?_of_lt hs
    obtain ⟨after, ha, hparent, hnames⟩ := hframe.own before hb
    exact ⟨hframe.others, before, after, hb, ha, hparent, hnames⟩
  · intro f g vs args j hcall hg name hname
    exact Closure.find_enter hi (Closure.extends_of_enter hcall.frame) hg hname

/-- A function that calls its argument with a text. -/
def relay : Closure :=
  ⟨"relay", ["x"], .body [⟨.call, none, [.leaf ⟨"x", .identifier, ⟨1, 0⟩, ⟨0, 0⟩⟩,
    .leaf ⟨"a", .string, ⟨1, 0⟩, ⟨0, 0⟩⟩], ⟨0, 0⟩⟩], 1⟩

/-- An interpreter that has only this function. -/
def relayState : Interpreter :=
  ⟨⟨#[⟨none, [("relay", .callable (.closure relay))]⟩, ⟨some 0, []⟩]⟩, .unlimited⟩

theorem wellFormed_relayState : relayState.scopes.WellFormed := by
  have hget : ∀ {id : Nat} {scope}, relayState.scopes.get? id = some scope →
      id = 0 ∧ scope = ⟨none, [("relay", .callable (.closure relay))]⟩ ∨
      id = 1 ∧ scope = ⟨some 0, []⟩ := by
    intro id scope hs
    have hlt : id < 2 := Scopes.lt_size_of_get? hs
    rcases (by omega : id = 0 ∨ id = 1) with rfl | rfl
    · cases hs; exact Or.inl ⟨rfl, rfl⟩
    · cases hs; exact Or.inr ⟨rfl, rfl⟩
  refine ⟨⟨_, rfl, rfl⟩, ?_, ?_⟩
  · intro id scope hs hid
    rcases hget hs with ⟨rfl, -⟩ | ⟨rfl, rfl⟩
    · exact absurd rfl hid
    · exact ⟨0, rfl, by omega⟩
  · intro id scope name f hs hmem
    rcases hget hs with ⟨rfl, rfl⟩ | ⟨rfl, rfl⟩
    · obtain ⟨-, rfl⟩ := by simpa using hmem
      decide
    · simp at hmem

/-- The function is called with itself, so that its body calls it again, with a text, which then
cannot be called. -/
theorem calls_change_no_scope_relay :
    relayState.scopes.WellFormed ∧
    (apply 9 (.closure relay) [.callable (.closure relay)] ⟨0, 0⟩ relayState).1 =
      .error (.notCallable "x" ⟨0, 0⟩) ∧
    (apply 9 (.closure relay) [.callable (.closure relay)] ⟨0, 0⟩ relayState).2.scopes.get? 0 =
      relayState.scopes.get? 0 ∧
    ∃ j, StartsCall relay.body 2 (relay.enter [.callable (.closure relay)] relayState)
        (.closure relay) [.string "a"] j ∧
      (relay.enter [.string "a"] j).scopes.find j.scopes.size "relay" =
        relayState.scopes.find 1 "relay" := by
  have hi := wellFormed_relayState
  obtain ⟨hcall, -, hinner⟩ := calls_change_no_scope relayState hi
  have hstart : StartsCall relay.body 2 (relay.enter [.callable (.closure relay)] relayState)
      (.closure relay) [.string "a"] (relay.enter [.callable (.closure relay)] relayState) := by
    refine @StartsCall.inForm 1 _ [] _ [] _ _ _ _ _ _ _ (Or.inr rfl) rfl rfl ?_
    exact @StartsCall.here 1 _ _ _ _ _ _ _ _ _ rfl rfl rfl rfl
  exact ⟨hi, rfl, (hcall 9 _ _ _ 0 (by decide)).1, _, hstart,
    hinner relay relay _ _ _ hstart (by decide) "relay" (by decide)⟩

end SmallScheme
