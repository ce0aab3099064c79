import Mathlib.Data.List.Forall2
import SmallScheme.Proofs.Evaluation.Fuel
import SmallScheme.Proofs.Evaluation.Guards
import SmallScheme.Proofs.Node.Form

/-!
Globals that programs do not mention. All names that an evaluation looks up or binds stand in its
programs, as variables, as parameters or as what is defined. A global with another name is out of
their reach.

* `Node.names` — the names of the variables in a tree;
* `Unmentioned x roots` — the programs of sources in which no variable is `x`;
* `Scopes.Gains x v a b` — the arena `b` is `a` with one more global;
* `unmentionedCoupling` — two interpreters of which the second has one more global, and whose
  functions do not mention it; `Unmentioned.kept`: every effect of such programs keeps them so;
* `Interpreter.trace` — what programs come to one after another, and `Interpreter.Completes`, where
  all of them end by themselves;
* `unmentioned_global_is_inert`: with the global and without it, programs come to the same.
-/

namespace SmallScheme

/-! ## names in a tree -/

namespace Node

def names (n : Node) : List String := n.collect identifier

theorem mem_names_of_identifier {n : Node} {x : String} (h : n.identifier = some x) :
    x ∈ n.names := by
  rw [names, collect_eq, h]
  exact List.mem_append_left _ (List.mem_singleton_self x)

theorem names_subset_of_child {n m : Node} (h : m ∈ n.children) : m.names ⊆ n.names := by
  intro x hx
  rw [names, collect_eq]
  exact List.mem_append_right _ (List.mem_flatMap.2 ⟨m, h, hx⟩)

theorem Within.names_subset {root n : Node} (h : Within root.children n) :
    n.names ⊆ root.names := by
  induction h with
  | top hmem => exact names_subset_of_child hmem
  | child _ hmem ih => exact List.Subset.trans (names_subset_of_child hmem) ih

/-- The node stands in one of the programs. -/
def PartOf (roots : List Node) (n : Node) : Prop := ∃ root ∈ roots, Within root.children n

theorem PartOf.child {roots : List Node} {n m : Node} (h : n.PartOf roots) (hm : m ∈ n.children) :
    m.PartOf roots := by
  obtain ⟨root, hroot, hn⟩ := h
  exact ⟨root, hroot, .child hn hm⟩

end Node

/-- The programs are those of sources, and none of them mentions the name. -/
def Unmentioned (x : String) (roots : List Node) : Prop :=
  ∀ root ∈ roots, ∃ src ts, lex src = .ok ts ∧ parse ts = .ok root ∧ x ∉ root.names

namespace Unmentioned

variable {x : String} {roots : List Node}

theorem kind_root (h : Unmentioned x roots) {root : Node} (hroot : root ∈ roots) :
    root.kind = .root := by
  obtain ⟨src, ts, -, hparse, -⟩ := h root hroot
  exact kind_of_parse hparse

/-- A variable in one of the programs has a name, and another one. -/
theorem name_ne (h : Unmentioned x roots) {n : Node} (hn : n.PartOf roots)
    (hkind : n.kind = .variable) : n.identifier.getD "" ≠ x := by
  obtain ⟨root, hroot, hwithin⟩ := hn
  obtain ⟨src, ts, hlex, hparse, hx⟩ := h root hroot
  have hnode : NodeOf [src] n := ⟨src, List.mem_singleton_self src, ts, root, hlex, hparse, hwithin⟩
  obtain ⟨t, ht⟩ := Option.ne_none_iff_exists'.1 (hnode.complete.leaf (.inr hkind))
  have hname : n.identifier = some t.text := by rw [Node.identifier, if_pos hkind, ht]; rfl
  rw [hname]
  rintro rfl
  exact hx (hwithin.names_subset (Node.mem_names_of_identifier hname))

end Unmentioned

/-! ## arenas with one more global -/

namespace Scopes

/-- The arena `b` is `a`, but for a global of the name `x`, which is `v` in `b` and is not there in
`a`. -/
structure Gains (x : String) (v : Value) (a b : Scopes) : Prop where
  size : b.size = a.size
  others : ∀ id, id ≠ Scopes.global → b.get? id = a.get? id
  global : ∃ before after, a.get? Scopes.global = some before ∧
    b.get? Scopes.global = some after ∧ after.parent = before.parent ∧
    before.bindings.get? x = none ∧
    ∀ y, after.bindings.get? y = if y = x then some v else before.bindings.get? y

namespace Gains

variable {x : String} {v : Value} {a b : Scopes}

theorem ofGlobals {globals : Bindings} (hx : globals.get? x = none) :
    Gains x v (.ofGlobals globals) (.ofGlobals (globals.set x v)) := by
  refine ⟨rfl, ?_, ⟨none, globals⟩, ⟨none, globals.set x v⟩, rfl, rfl, rfl, hx, fun y => ?_⟩
  · intro id hid
    have hsize : ∀ gs : Bindings, (Scopes.ofGlobals gs).get? id = none := fun gs =>
      Array.getElem?_eq_none (Nat.one_le_iff_ne_zero.2 hid)
    rw [hsize, hsize]
  · simp only [Bindings.get?_set, eq_comm]

theorem find (h : Gains x v a b) {y : String} (hy : y ≠ x) (s : ScopeId) :
    b.find s y = a.find s y := by
  have hwithin : ∀ fuel id, b.findWithin y fuel id = a.findWithin y fuel id := by
    intro fuel
    induction fuel with
    | zero => intro id; rfl
    | succ fuel ih =>
      intro id
      rw [findWithin, findWithin, funext ih]
      by_cases hid : id = Scopes.global
      · obtain ⟨before, after, ha, hb, hparent, -, hget⟩ := h.global
        rw [hid, ha, hb, Option.bind_some, Option.bind_some, hget, if_neg hy, hparent]
      · rw [h.others id hid]
  rw [Scopes.find, Scopes.find, h.size, hwithin]

theorem bind (h : Gains x v a b) {y : String} (hy : y ≠ x) (s : ScopeId) (u : Value) :
    Gains x v (a.bind s y u) (b.bind s y u) := by
  obtain ⟨before, after, ha, hb, hparent, hx, hget⟩ := h.global
  refine ⟨by rw [size_bind, size_bind, h.size], ?_, ?_⟩
  · intro id hid
    rw [get?_bind, get?_bind]
    by_cases hs : s = id
    · rw [if_pos hs, if_pos hs, hs, h.others id hid]
    · rw [if_neg hs, if_neg hs, h.others id hid]
  · by_cases hs : s = Scopes.global
    · subst hs
      refine ⟨_, _, get?_bind_self ha y u, get?_bind_self hb y u, hparent, ?_, fun z => ?_⟩
      · rw [Bindings.get?_set, if_neg hy, hx]
      · rw [Bindings.get?_set, Bindings.get?_set, hget]
        by_cases hz : y = z
        · rw [if_pos hz, if_pos hz, if_neg (hz ▸ hy)]
        · rw [if_neg hz, if_neg hz]
    · exact ⟨before, after, by rw [get?_bind, if_neg hs, ha], by rw [get?_bind, if_neg hs, hb],
        hparent, hx, hget⟩

theorem spawn (h : Gains x v a b) (p : ScopeId) : Gains x v (a.spawn p).2 (b.spawn p).2 := by
  obtain ⟨before, after, ha, hb, hrest⟩ := h.global
  have hold : Scopes.global ≠ a.size := Nat.ne_of_lt (lt_size_of_get? ha)
  refine ⟨by rw [size_spawn, size_spawn, h.size], ?_, before, after, ?_, ?_, hrest⟩
  · intro id hid
    rw [get?_spawn, get?_spawn, h.size, h.others id hid]
  · rw [get?_spawn, if_neg hold, ha]
  · rw [get?_spawn, h.size, if_neg hold, hb]

end Gains

end Scopes

/-! ## the two runs -/

/-- A function is made of the programs, and no parameter has the name. -/
def Value.Unaware (x : String) (roots : List Node) (u : Value) : Prop :=
  ∀ f : Closure, u = .callable (.closure f) →
    f.body.MadeOf (Node.PartOf roots) ∧ ∀ y ∈ f.params, y ≠ x

/-- Two interpreters of which the second has one more global, and which write to the same output. -/
def unmentionedCoupling (x : String) (v : Value) (roots : List Node) : Coupling where
  Linked := fun (i, j) => i.scopes.Gains x v j.scopes ∧ j.out = i.out ∧
    i.scopes.AllBound (·.Unaware x roots)
  Usable _ _ := True
  Known _ u := u.Unaware x roots
  Code := Node.PartOf roots
  Name y := y ≠ x
  Blamed _ := True

section Runs

variable {x : String} {v : Value} {roots : List Node}

theorem unmentionedCoupling_later (w w' : Pair) : (unmentionedCoupling x v roots).Later w w' :=
  ⟨fun _ h => h, fun _ h => h⟩

theorem Node.Defines.unaware (hroots : Unmentioned x roots) {n : Node} {f : Closure}
    (hn : n.PartOf roots) (h : n.Defines f) : Value.Unaware x roots (.callable (.closure f)) := by
  rintro _ ⟨⟩
  refine ⟨.inr ⟨.inr h.kind_body, fun m hm => hn.child (h.mem_children hm)⟩, fun y hy => ?_⟩
  -- a parameter is a variable in the head of the definition
  obtain ⟨-, target, rest, hchildren, -, hnames, -⟩ := h
  have htarget : target.PartOf roots := hn.child (by rw [hchildren]; exact List.mem_cons_self)
  obtain ⟨m, hm, hvariable, rfl⟩ := mem_of_headNames hnames y (List.mem_cons_of_mem _ hy)
  exact hroots.name_ne (htarget.child hm) hvariable

theorem Unmentioned.kept (hroots : Unmentioned x roots) : (unmentionedCoupling x v roots).Kept where
  child hn hm := hn.child hm
  name hn hkind := hroots.name_ne hn hkind
  raises _ _ := trivial
  refused _ := trivial
  data _ _ h f hf := absurd hf (h f)
  runnable h := ⟨(h _ rfl).1, (h _ rfl).2⟩
  size h := h.1.size
  find := by
    rintro i j s y ⟨hgains, -, hbound⟩ - hy
    exact ⟨hgains.find hy s, fun u hu => hbound.find hu⟩
  bind := by
    rintro i j s y u ⟨hgains, hout, hbound⟩ - hy hu
    exact ⟨⟨hgains.bind hy s u, hout, hbound.bind hu s y⟩, unmentionedCoupling_later _ _⟩
  write := by
    rintro i j bytes ⟨hgains, hout, hbound⟩
    have hwrite : j.out.write bytes = i.out.write bytes := by rw [hout]
    exact ⟨congrArg Prod.fst hwrite, ⟨hgains, congrArg Prod.snd hwrite, hbound⟩,
      unmentionedCoupling_later _ _⟩
  flush h := congrArg Sink.flush h.2.1
  enter := by
    rintro i j f ⟨hgains, hout, hbound⟩ -
    exact ⟨⟨hgains.spawn f.scope, hout, hbound.spawn f.scope⟩, unmentionedCoupling_later _ _,
      trivial⟩
  capture := by
    rintro i j s ⟨hgains, hout, hbound⟩ -
    refine ⟨⟨hgains.spawn s, hout, hbound.spawn s⟩, unmentionedCoupling_later _ _, ?_⟩
    intro n f hn hdefines _
    exact hdefines.unaware hroots hn

/-- One of the programs comes to the same in both. -/
theorem Unmentioned.evaluate (hroots : Unmentioned x roots) {i j : Interpreter}
    (h : (unmentionedCoupling x v roots).Linked (i, j)) {root : Node} (hroot : root ∈ roots)
    (fuel : Nat) :
    (evaluate fuel root j).1 = (evaluate fuel root i).1 ∧
      (unmentionedCoupling x v roots).Linked
        ((evaluate fuel root i).2, (evaluate fuel root j).2) := by
  have hkind := hroots.kind_root hroot
  have hagrees : (unmentionedCoupling x v roots).Agrees _ (i, j) (SmallScheme.evaluate fuel root)
      (SmallScheme.evaluate fuel root) :=
    hroots.kept.evaluate fuel h (.inr ⟨.inl hkind, fun n hn => ⟨root, hroot, .top hn⟩⟩) trivial
      fun _ => trivial
  exact ⟨hagrees.same, hagrees.linked⟩

end Runs

/-! ## programs one after another -/

namespace Interpreter

/-- How some programs end one after another, each with the depth to which it may go. -/
def trace (i : Interpreter) : List (Nat × Node) → List (Outcome (Option Value) × Interpreter)
  | [] => []
  | (fuel, root) :: runs => evaluate fuel root i :: trace (evaluate fuel root i).2 runs

/-- The programs end one after another by themselves, with these outcomes and in these states. -/
def Completes (i : Interpreter) (roots : List Node)
    (ends : List (Outcome (Option Value) × Interpreter)) : Prop :=
  ∃ runs, runs.map Prod.snd = roots ∧ i.trace runs = ends ∧ ∀ e ∈ ends, e.1 ≠ .outOfFuel

theorem evaluate_unique {root : Node} {i : Interpreter} {m n : Nat}
    (hm : (evaluate m root i).1 ≠ .outOfFuel) (hn : (evaluate n root i).1 ≠ .outOfFuel) :
    evaluate m root i = evaluate n root i := by
  rcases Nat.le_total m n with hle | hle
  · exact (evaluate_refines hle root i hm).symm
  · exact evaluate_refines hle root i hn

theorem trace_unique : ∀ {runs runs' : List (Nat × Node)} {i : Interpreter},
    runs.map Prod.snd = runs'.map Prod.snd → (∀ e ∈ i.trace runs, e.1 ≠ .outOfFuel) →
    (∀ e ∈ i.trace runs', e.1 ≠ .outOfFuel) → i.trace runs = i.trace runs' := by
  intro runs
  induction runs with
  | nil =>
    intro runs' i hroots _ _
    rw [List.map_eq_nil_iff.1 hroots.symm]
  | cons r runs ih =>
    intro runs' i hroots hends hends'
    cases runs' with
    | nil => cases hroots
    | cons r' runs' =>
      obtain ⟨m, root⟩ := r
      obtain ⟨n, root'⟩ := r'
      obtain ⟨rfl, htail⟩ := List.cons.inj hroots
      have hfirst := evaluate_unique (hends _ List.mem_cons_self) (hends' _ List.mem_cons_self)
      rw [trace, trace, hfirst]
      rw [trace, hfirst] at hends
      rw [trace] at hends'
      rw [ih htail (fun e he => hends e (List.mem_cons_of_mem _ he))
        fun e he => hends' e (List.mem_cons_of_mem _ he)]

theorem Completes.unique {i : Interpreter} {roots : List Node}
    {ends ends' : List (Outcome (Option Value) × Interpreter)} (h : i.Completes roots ends)
    (h' : i.Completes roots ends') : ends = ends' := by
  obtain ⟨runs, hroots, rfl, hends⟩ := h
  obtain ⟨runs', hroots', rfl, hends'⟩ := h'
  exact trace_unique (hroots.trans hroots'.symm) hends hends'

end Interpreter

/-- Two programs ended alike: with the same outcome and the same output, and in arenas of which the
second has one more global. -/
structure EndsAlike (x : String) (v : Value) (p q : Outcome (Option Value) × Interpreter) :
    Prop where
  outcome : q.1 = p.1
  output : q.2.out = p.2.out
  arena : p.2.scopes.Gains x v q.2.scopes

theorem EndsAlike.completes_iff {x : String} {v : Value}
    {ends ends' : List (Outcome (Option Value) × Interpreter)}
    (h : List.Forall₂ (EndsAlike x v) ends ends') :
    (∀ e ∈ ends, e.1 ≠ .outOfFuel) ↔ ∀ e ∈ ends', e.1 ≠ .outOfFuel := by
  induction h with
  | nil => exact Iff.rfl
  | cons h _ ih => rw [List.forall_mem_cons, List.forall_mem_cons, h.outcome, ih]

theorem Unmentioned.trace {x : String} {v : Value} {roots : List Node}
    (hroots : Unmentioned x roots) (runs : List (Nat × Node)) : ∀ {i j : Interpreter},
      (unmentionedCoupling x v roots).Linked (i, j) → (∀ r ∈ runs, r.2 ∈ roots) →
      List.Forall₂ (EndsAlike x v) (i.trace runs) (j.trace runs) := by
  induction runs with
  | nil => intro i j _ _; exact .nil
  | cons r runs ih =>
    intro i j h hruns
    obtain ⟨same, linked⟩ := hroots.evaluate h (hruns r List.mem_cons_self) r.1
    refine .cons ⟨same, linked.2.1, linked.1⟩ (ih linked fun r' hr' => ?_)
    exact hruns r' (List.mem_cons_of_mem _ hr')

/-- **A global that is not mentioned is inert.** Let the globals be no functions of a program, and
`x` none of them. If no variable of some programs is `x`, then the programs come to the same whether
`x` is a global or not. They all end by themselves with it if and only if they do without it. Then
each of them ends with the same value or the same error, and leaves the same output and the same
arena but for the global `x`. -/
theorem unmentioned_global_is_inert {globals : Bindings}
    (hglobals : ∀ name f, (name, .callable (.closure f)) ∉ globals) {x : String}
    (hx : globals.get? x = none) (v : Value) {roots : List Node} (hroots : Unmentioned x roots)
    (out : Sink) :
    ((∃ ends, (Interpreter.new globals out).Completes roots ends) ↔
      ∃ ends, (Interpreter.new (globals.set x v) out).Completes roots ends) ∧
    ∀ ends ends', (Interpreter.new globals out).Completes roots ends →
      (Interpreter.new (globals.set x v) out).Completes roots ends' →
      List.Forall₂ (EndsAlike x v) ends ends' := by
  have hstart : (unmentionedCoupling x v roots).Linked
      (Interpreter.new globals out, Interpreter.new (globals.set x v) out) := by
    refine ⟨.ofGlobals hx, rfl, .ofGlobals ?_⟩
    rintro name _ hmem f rfl
    exact absurd hmem (hglobals name f)
  have htrace : ∀ {runs : List (Nat × Node)}, runs.map Prod.snd = roots →
      List.Forall₂ (EndsAlike x v) ((Interpreter.new globals out).trace runs)
        ((Interpreter.new (globals.set x v) out).trace runs) := by
    rintro runs rfl
    exact hroots.trace runs hstart fun r hr => List.mem_map_of_mem hr
  refine ⟨⟨?_, ?_⟩, ?_⟩
  · rintro ⟨_, runs, hruns, rfl, hends⟩
    exact ⟨_, runs, hruns, rfl, (EndsAlike.completes_iff (htrace hruns)).1 hends⟩
  · rintro ⟨_, runs, hruns, rfl, hends⟩
    exact ⟨_, runs, hruns, rfl, (EndsAlike.completes_iff (htrace hruns)).2 hends⟩
  · rintro _ ends' ⟨runs, hruns, rfl, hends⟩ h'
    -- with as much fuel as the first run the second one ends too, and it ends in one way only
    have hsecond : (Interpreter.new (globals.set x v) out).Completes roots _ :=
      ⟨runs, hruns, rfl, (EndsAlike.completes_iff (htrace hruns)).1 hends⟩
    rw [h'.unique hsecond]
    exact htrace hruns

/-- The program `(define (f) y)`. -/
def strayDefinition : Node :=
  .program [⟨.define, some ⟨"define", .identifier, ⟨1, 1⟩, ⟨1, 7⟩⟩,
    [⟨.call, some ⟨"(", .paren, ⟨1, 8⟩, ⟨8, 9⟩⟩,
      [.leaf ⟨"f", .identifier, ⟨1, 9⟩, ⟨9, 10⟩⟩], ⟨8, 11⟩⟩,
      .leaf ⟨"y", .identifier, ⟨1, 12⟩, ⟨12, 13⟩⟩], ⟨0, 14⟩⟩]

/-- The program `(f)`. -/
def strayCall : Node :=
  .program [⟨.call, some ⟨"(", .paren, ⟨1, 0⟩, ⟨0, 1⟩⟩,
    [.leaf ⟨"f", .identifier, ⟨1, 1⟩, ⟨1, 2⟩⟩], ⟨0, 3⟩⟩]

/-- The second program fails in the function that the first one defined, for want of `y`, also where
there is a global `z`. -/
theorem unmentioned_global_is_inert_call :
    ∃ ends ends', Unmentioned "z" [strayDefinition, strayCall] ∧
      (Interpreter.new .builtins .unlimited).Completes [strayDefinition, strayCall] ends ∧
      ends.map Prod.fst = [.value none, .error (.notDefined "y" ⟨12, 13⟩)] ∧
      (Interpreter.new (Bindings.builtins.set "z" (.string "a")) .unlimited).Completes
        [strayDefinition, strayCall] ends' ∧
      List.Forall₂ (EndsAlike "z" (.string "a")) ends ends' := by
  have hdefinition : lex "(define (f) y)" = .ok
      [⟨"(", .paren, ⟨1, 0⟩, ⟨0, 1⟩⟩, ⟨"define", .identifier, ⟨1, 1⟩, ⟨1, 7⟩⟩,
        ⟨"(", .paren, ⟨1, 8⟩, ⟨8, 9⟩⟩, ⟨"f", .identifier, ⟨1, 9⟩, ⟨9, 10⟩⟩,
        ⟨")", .paren, ⟨1, 10⟩, ⟨10, 11⟩⟩, ⟨"y", .identifier, ⟨1, 12⟩, ⟨12, 13⟩⟩,
        ⟨")", .paren, ⟨1, 13⟩, ⟨13, 14⟩⟩] :=
    lex_eq_of_within 9 rfl
  have hcall : lex "(f)" = .ok
      [⟨"(", .paren, ⟨1, 0⟩, ⟨0, 1⟩⟩, ⟨"f", .identifier, ⟨1, 1⟩, ⟨1, 2⟩⟩,
        ⟨")", .paren, ⟨1, 2⟩, ⟨2, 3⟩⟩] :=
    lex_eq_of_within 5 rfl
  have hroots : Unmentioned "z" [strayDefinition, strayCall] := by
    intro root hroot
    rcases List.mem_pair.1 hroot with rfl | rfl
    · exact ⟨_, _, hdefinition, parse_eq_of_run rfl, by decide⟩
    · exact ⟨_, _, hcall, parse_eq_of_run rfl, by decide⟩
  have hfirst : (Interpreter.new .builtins .unlimited).Completes [strayDefinition, strayCall]
      ((Interpreter.new .builtins .unlimited).trace [(9, strayDefinition), (9, strayCall)]) := by
    refine ⟨_, rfl, rfl, List.forall_mem_cons.2 ⟨?_, List.forall_mem_singleton.2 ?_⟩⟩
    · rintro ⟨⟩
    · rintro ⟨⟩
  obtain ⟨hends, halike⟩ := unmentioned_global_is_inert Bindings.closure_notMem_builtins
    (x := "z") rfl (.string "a") hroots .unlimited
  obtain ⟨ends', hsecond⟩ := hends.1 ⟨_, hfirst⟩
  exact ⟨_, ends', hroots, hfirst, rfl, hsecond, halike _ _ hfirst hsecond⟩

end SmallScheme
