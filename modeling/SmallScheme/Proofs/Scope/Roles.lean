import Mathlib.Data.List.Induction
import SmallScheme.Proofs.Evaluation.Visit

/-!
What scopes are for. After any programs each scope of the arena has one role: it is the global one,
it is kept by a function that was defined, or it belongs to a call.

* `Scopes.Depth a id d` — the scope `id` lies `d` scopes below one without a parent;
* `Scopes.Active`, `Scopes.Kept` — at an even and at an odd depth, which is where evaluations happen
  and what functions keep;
* `Scopes.Regular` — kept scopes bind nothing, and functions keep such scopes; every effect of an
  evaluation leaves it so (`roleCoupling_kept`);
* `Interpreter.Opened i runs r id` — a program of `runs` opened the scope `id` for `r`;
* `scopes_have_fixed_roles`: these are the roles, and how the scopes of each role stand.
-/

namespace SmallScheme

/-! ## depths -/

namespace Scopes

/-- The number of scopes above a scope. -/
inductive Depth (a : Scopes) : ScopeId → Nat → Prop
  | top {id : ScopeId} {scope : Scope} : a.get? id = some scope → scope.parent = none → Depth a id 0
  | child {id p : ScopeId} {scope : Scope} {d : Nat} : a.get? id = some scope →
      scope.parent = some p → Depth a p d → Depth a id (d + 1)

/-- Evaluations may happen in the scope. -/
def Active (a : Scopes) (id : ScopeId) : Prop := ∃ d, a.Depth id (2 * d)

/-- A function may keep the scope. -/
def Kept (a : Scopes) (id : ScopeId) : Prop := ∃ d, a.Depth id (2 * d + 1)

/-- The scope lies directly below another one. -/
def Under (a : Scopes) (id p : ScopeId) : Prop :=
  ∃ scope, a.get? id = some scope ∧ scope.parent = some p

section

variable {a b : Scopes} {id p : ScopeId}

theorem Depth.lt_size {d : Nat} {id : Nat} (h : a.Depth id d) : id < a.size := by
  cases h with
  | top hs _ => exact lt_size_of_get? hs
  | child hs _ _ => exact lt_size_of_get? hs

theorem Depth.unique {d e : Nat} (h : a.Depth id d) (h' : a.Depth id e) : d = e := by
  induction h generalizing e with
  | top hs hp =>
    cases h' with
    | top _ _ => rfl
    | child hs' hp' _ =>
      rw [hs] at hs'
      cases hs'
      rw [hp] at hp'
      cases hp'
  | child hs hp _ ih =>
    cases h' with
    | top hs' hp' =>
      rw [hs] at hs'
      cases hs'
      rw [hp] at hp'
      cases hp'
    | child hs' hp' h' =>
      rw [hs] at hs'
      cases hs'
      rw [hp] at hp'
      cases hp'
      rw [ih h']

theorem Depth.grows {d : Nat} (h : a.Depth id d) (hab : a.Grows b) : b.Depth id d := by
  induction h with
  | top hs hp =>
    obtain ⟨after, hafter, hparent, -⟩ := hab.scope _ _ hs
    exact .top hafter (hparent.trans hp)
  | child hs hp _ ih =>
    obtain ⟨after, hafter, hparent, -⟩ := hab.scope _ _ hs
    exact .child hafter (hparent.trans hp) ih

theorem Active.grows (h : a.Active id) (hab : a.Grows b) : b.Active id := by
  obtain ⟨d, hd⟩ := h
  exact ⟨d, hd.grows hab⟩

theorem Kept.grows (h : a.Kept id) (hab : a.Grows b) : b.Kept id := by
  obtain ⟨d, hd⟩ := h
  exact ⟨d, hd.grows hab⟩

theorem Under.grows (h : a.Under id p) (hab : a.Grows b) : b.Under id p := by
  obtain ⟨scope, hs, hp⟩ := h
  obtain ⟨after, hafter, hparent, -⟩ := hab.scope _ _ hs
  exact ⟨after, hafter, hparent.trans hp⟩

theorem Active.not_kept (h : a.Active id) : ¬a.Kept id := by
  rintro ⟨e, he⟩
  obtain ⟨d, hd⟩ := h
  have := hd.unique he
  omega

theorem Under.kept (h : a.Under id p) (hp : a.Active p) : a.Kept id := by
  obtain ⟨scope, hs, hparent⟩ := h
  obtain ⟨d, hd⟩ := hp
  exact ⟨d, .child hs hparent hd⟩

theorem Under.active (h : a.Under id p) (hp : a.Kept p) : a.Active id := by
  obtain ⟨scope, hs, hparent⟩ := h
  obtain ⟨d, hd⟩ := hp
  exact ⟨d + 1, .child hs hparent hd⟩

theorem Under.unique {q : ScopeId} (h : a.Under id p) (h' : a.Under id q) : p = q := by
  obtain ⟨scope, hs, hp⟩ := h
  obtain ⟨scope', hs', hq⟩ := h'
  rw [hs] at hs'
  cases hs'
  rw [hp] at hq
  cases hq
  rfl

theorem under_spawn (a : Scopes) (p : ScopeId) : (a.spawn p).2.Under a.size p :=
  ⟨⟨some p, []⟩, by rw [get?_spawn, if_pos rfl], rfl⟩

end

end Scopes

/-! ## regular arenas -/

/-- A function keeps a scope that functions may keep. -/
def Value.Keeps (v : Value) (a : Scopes) : Prop :=
  ∀ f : Closure, v = .callable (.closure f) → a.Kept f.scope

theorem Value.Keeps.grows {v : Value} {a b : Scopes} (h : v.Keeps a) (hab : a.Grows b) :
    v.Keeps b :=
  fun f hf => (h f hf).grows hab

/-- **Regular arenas.** -/
structure Scopes.Regular (a : Scopes) : Prop where
  global : a.Depth Scopes.global 0
  depth : ∀ id scope, a.get? id = some scope → ∃ d, a.Depth id d
  empty : ∀ id scope, a.get? id = some scope → a.Kept id → scope.bindings = []
  keeps : a.AllBound (·.Keeps a)

namespace Scopes.Regular

variable {a : Scopes}

/-- A scope of the arena that may be kept later may be kept now. -/
theorem kept_of_grows (h : a.Regular) {b : Scopes} (hab : a.Grows b) {id : ScopeId} {scope : Scope}
    (hs : a.get? id = some scope) (hkept : b.Kept id) : a.Kept id := by
  obtain ⟨d, hd⟩ := h.depth id scope hs
  obtain ⟨e, he⟩ := hkept
  rw [(hd.grows hab).unique he] at hd
  exact ⟨e, hd⟩

theorem bind (h : a.Regular) {s : ScopeId} (hs : a.Active s) (name : String) {v : Value}
    (hv : v.Keeps a) : (a.bind s name v).Regular := by
  have hgrows := Grows.bind a s name v
  refine ⟨h.global.grows hgrows, ?_, ?_, ?_⟩
  · intro id scope hid
    obtain ⟨before, hb, -, -⟩ := exists_of_get?_bind hid
    obtain ⟨d, hd⟩ := h.depth id before hb
    exact ⟨d, hd.grows hgrows⟩
  · intro id scope hid hkept
    -- the name is bound in an active scope, so in none that is kept
    have hne : s ≠ id := by
      rintro rfl
      exact (hs.grows hgrows).not_kept hkept
    rw [get?_bind, if_neg hne] at hid
    exact h.empty id scope hid (h.kept_of_grows hgrows hid hkept)
  · exact (h.keeps.bind hv s name).mono fun u hu => hu.grows hgrows

theorem spawn (h : a.Regular) {p : ScopeId} {d : Nat} (hp : a.Depth p d) :
    (a.spawn p).2.Regular := by
  have hgrows := Grows.spawn a p
  refine ⟨h.global.grows hgrows, ?_, ?_, ?_⟩
  · intro id scope hid
    by_cases hnew : id = a.size
    · subst hnew
      obtain ⟨scope, hs, hparent⟩ := a.under_spawn p
      exact ⟨d + 1, .child hs hparent (hp.grows hgrows)⟩
    · rw [get?_spawn, if_neg hnew] at hid
      obtain ⟨e, he⟩ := h.depth id scope hid
      exact ⟨e, he.grows hgrows⟩
  · intro id scope hid hkept
    rw [get?_spawn] at hid
    split at hid
    · cases hid
      rfl
    · exact h.empty id scope hid (h.kept_of_grows hgrows hid hkept)
  · exact (h.keeps.spawn p).mono fun u hu => hu.grows hgrows

theorem builtins : (Scopes.ofGlobals .builtins).Regular := by
  have hglobal : (Scopes.ofGlobals .builtins).Depth Scopes.global 0 := .top rfl rfl
  have hget : ∀ {id : Nat} {scope}, (Scopes.ofGlobals .builtins).get? id = some scope →
      id = Scopes.global := by
    intro id scope hs
    exact Nat.lt_one_iff.1 (lt_size_of_get? hs)
  refine ⟨hglobal, ?_, ?_, .builtins (by rintro p f ⟨⟩)⟩
  · intro id scope hs
    obtain rfl := hget hs
    exact ⟨0, hglobal⟩
  · intro id scope hs hkept
    obtain rfl := hget hs
    exact absurd hkept (Active.not_kept ⟨0, hglobal⟩)

end Scopes.Regular

/-- An interpreter with a regular arena beside itself: evaluations happen in active scopes. -/
def roleCoupling : Coupling where
  Linked := fun (i, j) => j = i ∧ i.scopes.Regular
  Usable w s := w.1.scopes.Active s
  Known w v := v.Keeps w.1.scopes
  Code _ := True
  Name _ := True
  Blamed _ := True

theorem roleCoupling_later {w w' : Pair} (h : w.1.scopes.Grows w'.1.scopes) :
    roleCoupling.Later w w' :=
  ⟨fun _ hs => hs.grows h, fun _ hv => hv.grows h⟩

theorem roleCoupling_kept : roleCoupling.Kept where
  child _ _ := trivial
  name _ _ := trivial
  raises _ _ := trivial
  refused _ := trivial
  data w v h f hf := absurd hf (h f)
  runnable _ := ⟨.inl trivial, fun _ _ => trivial⟩
  size := by
    rintro _ i ⟨rfl, -⟩
    rfl
  find := by
    rintro _ i s x ⟨rfl, h⟩ - -
    exact ⟨rfl, fun v hv => h.keeps.find hv⟩
  bind := by
    rintro _ i s x v ⟨rfl, h⟩ hs - hv
    exact ⟨⟨rfl, h.bind hs x hv⟩, roleCoupling_later (.bind i.scopes s x v)⟩
  write := by
    rintro _ i bytes ⟨rfl, h⟩
    exact ⟨rfl, ⟨rfl, h⟩, roleCoupling_later (.refl _)⟩
  flush := by
    rintro _ i ⟨rfl, -⟩
    rfl
  enter := by
    rintro _ i f ⟨rfl, h⟩ hf
    have hkept : i.scopes.Kept f.scope := hf f rfl
    have hgrows := Scopes.Grows.spawn i.scopes f.scope
    obtain ⟨d, hd⟩ := hkept
    refine ⟨⟨rfl, h.spawn hd⟩, roleCoupling_later hgrows, ?_⟩
    exact (i.scopes.under_spawn f.scope).active ⟨d, hd.grows hgrows⟩
  capture := by
    rintro _ i s ⟨rfl, h⟩ hs
    have hactive : i.scopes.Active s := hs
    have hgrows := Scopes.Grows.spawn i.scopes s
    obtain ⟨d, hd⟩ := hactive
    refine ⟨⟨rfl, h.spawn hd⟩, roleCoupling_later hgrows, ?_⟩
    rintro n f - - hscope g ⟨⟩
    rw [hscope]
    exact (i.scopes.under_spawn s).kept ⟨d, hd.grows hgrows⟩

/-! ## roles -/

/-- How a scope of the role stands in the arena. -/
def Role.Stands (a : Scopes) (id : ScopeId) : Role → Prop
  | .global => id = Scopes.global
  | .captured s => a.Active s ∧ a.Under id s
  | .call k => a.Kept k ∧ a.Under id k

namespace Role.Stands

variable {a b : Scopes} {id : ScopeId} {r r' : Role}

theorem grows (h : r.Stands a id) (hab : a.Grows b) : r.Stands b id := by
  cases r with
  | global => exact h
  | captured s => exact ⟨h.1.grows hab, h.2.grows hab⟩
  | call k => exact ⟨h.1.grows hab, h.2.grows hab⟩

/-- A scope stands in one way only: by its depth it is the global one, kept or active, and it has
one parent. -/
theorem unique (ha : a.Regular) (h : r.Stands a id) (h' : r'.Stands a id) : r = r' := by
  have hglobal : ∀ p, ¬a.Under Scopes.global p := by
    rintro p ⟨scope, hs, hp⟩
    cases ha.global with
    | top hs' hp' =>
      rw [hs] at hs'
      cases hs'
      rw [hp] at hp'
      cases hp'
  cases r with
  | global =>
    cases r' with
    | global => rfl
    | captured s =>
      obtain rfl := h
      exact absurd h'.2 (hglobal s)
    | call k =>
      obtain rfl := h
      exact absurd h'.2 (hglobal k)
  | captured s =>
    cases r' with
    | global =>
      obtain rfl := h'
      exact absurd h.2 (hglobal s)
    | captured s' => rw [h.2.unique h'.2]
    | call k => exact absurd (h.2.kept h.1) (h'.2.active h'.1).not_kept
  | call k =>
    cases r' with
    | global =>
      obtain rfl := h'
      exact absurd h.2 (hglobal k)
    | captured s => exact absurd (h'.2.kept h'.1) (h.2.active h.1).not_kept
    | call k' => rw [h.2.unique h'.2]

end Role.Stands

/-- What an evaluation opens stands, when it ends, as its role says. -/
theorem Visit.Opens.stands {v : Visit} {r : Role} {id : ScopeId} (h : v.Opens r id)
    (hv : roleCoupling.Admits v) : r.Stands v.run.2.scopes id := by
  cases h with
  | @call v f args k hcalls =>
    obtain ⟨-, hf, -⟩ := roleCoupling_kept.calls hv hcalls
    have hkept : k.scopes.Kept f.scope := hf f rfl
    have hopen : (k.scopes.spawn f.scope).2.Grows v.run.2.scopes :=
      (Scopes.Grows.of_frame (f.enter_frame args k)).trans hcalls.grows
    exact ⟨hkept.grows ((Scopes.Grows.spawn _ _).trans hopen),
      (k.scopes.under_spawn f.scope).grows hopen⟩
  | @captured fuel n s i f hdefines hbody hscope =>
    have hactive : i.scopes.Active s := hv.usable
    have hopen : (i.scopes.spawn s).2.Grows (run ⟨fuel + 1, n, s, i⟩).2.scopes := by
      rw [run, evaluateNode_defines hdefines hbody hscope]
      exact .bind _ _ _ _
    rw [hscope]
    exact ⟨hactive.grows ((Scopes.Grows.spawn _ _).trans hopen),
      (i.scopes.under_spawn s).grows hopen⟩

/-! ## programs -/

namespace Interpreter

/-- The state after some programs, each with the depth to which it may go. -/
def after (i : Interpreter) (runs : List (Nat × Node)) : Interpreter :=
  runs.foldl (fun i r => (evaluate r.1 r.2 i).2) i

/-- The evaluation happens in the course of one of the programs. -/
def Visits (i : Interpreter) (runs : List (Nat × Node)) (v : Visit) : Prop :=
  ∃ pre fuel root post, runs = pre ++ (fuel, root) :: post ∧ root.kind = .root ∧
    Visit.Comes ⟨fuel, root, Scopes.global, i.after pre⟩ v

/-- The programs opened the scope for what the role says; the global one was there before. -/
inductive Opened (i : Interpreter) (runs : List (Nat × Node)) : Role → ScopeId → Prop
  | global : Opened i runs .global Scopes.global
  | visit {v : Visit} {r : Role} {id : ScopeId} : i.Visits runs v → v.Opens r id → Opened i runs r id

variable {i : Interpreter} {runs : List (Nat × Node)}

theorem after_append (i : Interpreter) (runs more : List (Nat × Node)) :
    i.after (runs ++ more) = (i.after runs).after more :=
  List.foldl_append

theorem reaches_after (runs : List (Nat × Node)) : ∀ i : Interpreter, i.Reaches (i.after runs) := by
  induction runs with
  | nil => intro i; exact .refl
  | cons r runs ih => intro i; exact .head ⟨r.1, .run r.2, trivial, rfl⟩ (ih _)

theorem regular_after (runs : List (Nat × Node)) : ∀ {i : Interpreter}, i.scopes.Regular →
    (i.after runs).scopes.Regular := by
  induction runs with
  | nil => intro i h; exact h
  | cons r runs ih =>
    intro i h
    have hrun : roleCoupling.Agrees _ (i, i) (evaluate r.1 r.2) (evaluate r.1 r.2) :=
      roleCoupling_kept.evaluate r.1 ⟨rfl, h⟩ (.inl trivial) ⟨0, h.global⟩ fun _ => trivial
    exact ih hrun.linked.2

theorem Visits.admits {v : Visit} (h : i.Visits runs v) (hi : i.scopes.Regular) :
    roleCoupling.Admits v := by
  obtain ⟨pre, fuel, root, post, rfl, hkind, hcomes⟩ := h
  have hpre := regular_after pre hi
  exact roleCoupling_kept.comes ⟨⟨rfl, hpre⟩, .inl trivial, ⟨0, hpre.global⟩⟩ hcomes

theorem Visits.grows {v : Visit} (h : i.Visits runs v) :
    v.run.2.scopes.Grows (i.after runs).scopes := by
  obtain ⟨pre, fuel, root, post, rfl, hkind, hcomes⟩ := h
  have hpost : (evaluate fuel root (i.after pre)).2.scopes.Grows
      (i.after (pre ++ (fuel, root) :: post)).scopes := by
    rw [after_append]
    exact (reaches_after post _).grows
  rw [snd_evaluate_of_root hkind] at hpost
  exact hcomes.grows.trans hpost

theorem Visits.append {v : Visit} (h : i.Visits runs v) (more : List (Nat × Node)) :
    i.Visits (runs ++ more) v := by
  obtain ⟨pre, fuel, root, post, rfl, hkind, hcomes⟩ := h
  exact ⟨pre, fuel, root, post ++ more, by simp, hkind, hcomes⟩

namespace Opened

variable {r : Role} {id : ScopeId}

theorem append (h : i.Opened runs r id) (more : List (Nat × Node)) :
    i.Opened (runs ++ more) r id := by
  cases h with
  | global => exact .global
  | visit hvisits hopens => exact .visit (hvisits.append more) hopens

theorem stands (h : i.Opened runs r id) (hi : i.scopes.Regular) :
    r.Stands (i.after runs).scopes id := by
  cases h with
  | global => rfl
  | visit hvisits hopens => exact (hopens.stands (hvisits.admits hi)).grows hvisits.grows

end Opened

/-- **Every scope was opened for something.** -/
theorem exists_opened (hi : i.scopes.size = 1) (runs : List (Nat × Node)) : ∀ {id : Nat},
    id < (i.after runs).scopes.size → ∃ r, i.Opened runs r id := by
  induction runs using List.reverseRecOn with
  | nil =>
    intro id hid
    obtain rfl : id = 0 := Nat.lt_one_iff.1 (hi ▸ hid)
    exact ⟨.global, .global⟩
  | append_singleton runs last ih =>
    intro id hid
    obtain ⟨fuel, root⟩ := last
    by_cases hold : id < (i.after runs).scopes.size
    · obtain ⟨r, hr⟩ := ih hold
      exact ⟨r, hr.append _⟩
    · -- the last program added the scope, so that it has forms
      rw [after_append] at hid
      change id < (evaluate fuel root (i.after runs)).2.scopes.size at hid
      by_cases hkind : root.kind = .root
      · rw [snd_evaluate_of_root hkind] at hid
        obtain ⟨v, r, hcomes, hopens⟩ := Visit.exists_opens fuel ⟨Nat.le_of_not_lt hold, hid⟩
        exact ⟨r, .visit ⟨runs, fuel, root, [], rfl, hkind, hcomes⟩ hopens⟩
      · rw [snd_evaluate_of_ne_root hkind] at hid
        exact absurd hid hold

section Roles

variable {id : ScopeId} (hi : i.scopes.Regular) (hsize : i.scopes.size = 1)
include hi hsize

theorem exists_opened_of_kept (h : (i.after runs).scopes.Kept id) :
    ∃ s, i.Opened runs (.captured s) id := by
  obtain ⟨d, hd⟩ := h
  obtain ⟨r, hr⟩ := exists_opened hsize runs hd.lt_size
  have hstands := hr.stands hi
  cases r with
  | captured s => exact ⟨s, hr⟩
  | global =>
    obtain rfl := hstands
    have := hd.unique (regular_after runs hi).global
    omega
  | call k => exact absurd ⟨d, hd⟩ (hstands.2.active hstands.1).not_kept

theorem exists_opened_of_active (h : (i.after runs).scopes.Active id) :
    id = Scopes.global ∨ ∃ k, i.Opened runs (.call k) id := by
  obtain ⟨d, hd⟩ := h
  obtain ⟨r, hr⟩ := exists_opened hsize runs hd.lt_size
  have hstands := hr.stands hi
  cases r with
  | global => exact .inl hstands
  | captured s => exact absurd (hstands.2.kept hstands.1) (Scopes.Active.not_kept ⟨d, hd⟩)
  | call k => exact .inr ⟨k, hr⟩

end Roles

end Interpreter

/-- **Scopes have fixed roles.** After any programs, however each of them ended, a scope of the
arena was opened for one thing: for programs, for a function to keep, or for a call. One that a
function keeps binds nothing and lies below the scope where the function was defined, which is the
global one or that of a call; the scope of a call lies below one that a function keeps; and every
function that is bound somewhere keeps such a scope. No evaluation, at whatever depth, happens in
a scope that a function keeps. So a name that a call does not bind itself is what it is where the
function was defined. -/
theorem scopes_have_fixed_roles (out : Sink) (runs : List (Nat × Node)) :
    let i := Interpreter.new .builtins out
    let a := (i.after runs).scopes
    (∀ id : Nat, (∃ r, i.Opened runs r id) ↔ id < a.size) ∧
    (∀ id r r', i.Opened runs r id → i.Opened runs r' id → r = r') ∧
    (∀ k s, i.Opened runs (.captured s) k → a.get? k = some ⟨some s, []⟩ ∧
      (s = Scopes.global ∨ ∃ k', i.Opened runs (.call k') s)) ∧
    (∀ c k, i.Opened runs (.call k) c → a.Under c k ∧ ∃ s, i.Opened runs (.captured s) k) ∧
    (∀ id scope name f, a.get? id = some scope →
      (name, .callable (.closure f)) ∈ scope.bindings → ∃ s, i.Opened runs (.captured s) f.scope) ∧
    (∀ v, i.Visits runs v → v.scope = Scopes.global ∨ ∃ k, i.Opened runs (.call k) v.scope) ∧
    (∀ c k s scope name, i.Opened runs (.call k) c → i.Opened runs (.captured s) k →
      a.get? c = some scope → scope.bindings.get? name = none → a.find c name = a.find s name) := by
  intro i a
  have hi : i.scopes.Regular := .builtins
  have ha : a.Regular := Interpreter.regular_after runs hi
  have hwf : a.WellFormed := (Interpreter.reaches_after runs i).wellFormed .builtins
  have hcaptured : ∀ {k s}, i.Opened runs (.captured s) k → a.get? k = some ⟨some s, []⟩ := by
    intro k s h
    obtain ⟨hactive, hunder⟩ := h.stands hi
    have hkept : a.Kept k := hunder.kept hactive
    obtain ⟨⟨parent, bindings⟩, hs, hp⟩ := hunder
    have hempty := ha.empty k _ hs hkept
    dsimp only at hp hempty
    rw [hs, hp, hempty]
  refine ⟨?_, ?_, ?_, ?_, ?_, ?_, ?_⟩
  · intro id
    refine ⟨?_, fun hid => Interpreter.exists_opened rfl runs hid⟩
    rintro ⟨r, hr⟩
    have hstands : r.Stands a id := hr.stands hi
    cases r with
    | global =>
      obtain rfl := hstands
      exact ha.global.lt_size
    | captured s =>
      obtain ⟨-, scope, hs, -⟩ := hstands
      exact Scopes.lt_size_of_get? hs
    | call k =>
      obtain ⟨-, scope, hs, -⟩ := hstands
      exact Scopes.lt_size_of_get? hs
  · intro id r r' h h'
    exact (h.stands hi).unique ha (h'.stands hi)
  · intro k s h
    exact ⟨hcaptured h, Interpreter.exists_opened_of_active hi rfl (h.stands hi).1⟩
  · intro c k h
    obtain ⟨hkept, hunder⟩ := h.stands hi
    exact ⟨hunder, Interpreter.exists_opened_of_kept hi rfl hkept⟩
  · intro id scope name f hs hmem
    exact Interpreter.exists_opened_of_kept hi rfl (ha.keeps id scope name _ hs hmem f rfl)
  · intro v hv
    have hactive : v.state.scopes.Active v.scope := (hv.admits hi).usable
    have hgrows := grows_guarantee.evaluateNode v.fuel v.node v.scope v.state
    exact Interpreter.exists_opened_of_active hi rfl (hactive.grows (hgrows.trans hv.grows))
  · intro c k s scope name hc hk hs hname
    obtain ⟨-, scope', hs', hp⟩ := hc.stands hi
    obtain rfl : scope = scope' := Option.some.inj (hs.symm.trans hs')
    calc a.find c name = a.find k name := Scopes.find_of_unbound hwf hs hp hname
      _ = a.find s name := Scopes.find_of_unbound hwf (hcaptured hk) rfl rfl

def nameLeaf (x : String) : Node := .leaf ⟨x, .identifier, ⟨1, 0⟩, ⟨0, 0⟩⟩

/-- A definition of a function that returns a variable from where it is defined. -/
def getDefinition : Node :=
  ⟨.define, none, [⟨.call, none, [nameLeaf "get"], ⟨0, 0⟩⟩, nameLeaf "x"], ⟨0, 0⟩⟩

/-- A function that returns such a function. -/
def keeper : Closure := ⟨"keep", ["x"], .body [getDefinition, nameLeaf "get"], 1⟩

def keepDefinition : Node :=
  ⟨.define, none, [⟨.call, none, [nameLeaf "keep", nameLeaf "x"], ⟨0, 0⟩⟩, getDefinition,
    nameLeaf "get"], ⟨0, 0⟩⟩

/-- A call of it with a text. -/
def keepCall : Node :=
  ⟨.call, none, [nameLeaf "keep", .leaf ⟨"a", .string, ⟨1, 0⟩, ⟨0, 0⟩⟩], ⟨0, 0⟩⟩

/-- A call of what that returns. -/
def getCall : Node := ⟨.call, none, [keepCall], ⟨0, 0⟩⟩

/-- Each of the functions is defined and called, which opens a scope below the last one. The last
call finds the variable of the first. -/
theorem scopes_have_fixed_roles_keep :
    let i := Interpreter.new .builtins .unlimited
    let runs := [(9, Node.program [keepDefinition, getCall])]
    i.Opened runs (.captured 0) 1 ∧ i.Opened runs (.call 1) 2 ∧
    i.Opened runs (.captured 2) 3 ∧ i.Opened runs (.call 3) 4 ∧
    (∀ id : Nat, (∃ r, i.Opened runs r id) ↔ id < 5) ∧
    (i.after runs).scopes.find 2 "x" = some (.string "a") ∧
    (i.after runs).scopes.find 4 "x" = (i.after runs).scopes.find 2 "x" := by
  intro i runs
  let j := (evaluateNode 8 keepDefinition 0 i).2
  have hvisits : ∀ {v}, Visit.Comes ⟨9, .program [keepDefinition, getCall], 0, i⟩ v →
      i.Visits runs v :=
    fun hcomes => ⟨[], 9, _, [], rfl, rfl, hcomes⟩
  have hfirst : Visit.Comes ⟨9, .program [keepDefinition, getCall], 0, i⟩
      ⟨8, keepDefinition, 0, i⟩ :=
    .single (@Visit.Next.form 8 _ [] _ _ _ _ _ _ (.inl rfl) rfl rfl)
  have hsecond : Visit.Comes ⟨9, .program [keepDefinition, getCall], 0, i⟩ ⟨8, getCall, 0, j⟩ :=
    .single (@Visit.Next.form 8 _ [keepDefinition] _ _ _ _ _ _ (.inl rfl) rfl rfl)
  have hhead : Visit.Comes ⟨9, .program [keepDefinition, getCall], 0, i⟩ ⟨7, keepCall, 0, j⟩ :=
    hsecond.tail (.head rfl rfl)
  have hkeep : Visit.Calls ⟨7, keepCall, 0, j⟩ keeper [.string "a"] j :=
    .mk rfl rfl rfl rfl rfl
  have hget : Visit.Calls ⟨8, getCall, 0, j⟩ ⟨"get", [], .body [nameLeaf "x"], 3⟩ []
      (evaluateNode 7 keepCall 0 j).2 :=
    .mk rfl rfl rfl rfl rfl
  have hinner : Visit.Next ⟨6, keeper.body, 2, keeper.enter [.string "a"] j⟩
      ⟨5, getDefinition, 2, keeper.enter [.string "a"] j⟩ :=
    @Visit.Next.form 5 _ [] _ _ _ _ _ _ (.inr rfl) rfl rfl
  have h1 : i.Opened runs (.captured 0) 1 := by
    refine .visit (hvisits hfirst) (.captured (f := keeper) ⟨rfl, _, _, rfl, rfl, rfl, rfl⟩ ?_ rfl)
    simp [keeper, Node.body]
  have h2 : i.Opened runs (.call 1) 2 := .visit (hvisits hhead) (.call hkeep)
  have h3 : i.Opened runs (.captured 2) 3 := by
    refine .visit (hvisits ((hhead.tail (.body hkeep)).tail hinner))
      (.captured (f := ⟨"get", [], .body [nameLeaf "x"], 3⟩) ⟨rfl, _, _, rfl, rfl, rfl, rfl⟩ ?_ rfl)
    simp [Node.body]
  have h4 : i.Opened runs (.call 3) 4 := .visit (hvisits hsecond) (.call hget)
  obtain ⟨hopened, -, -, -, -, -, hfind⟩ := scopes_have_fixed_roles .unlimited runs
  exact ⟨h1, h2, h3, h4, hopened, rfl, hfind 4 3 2 ⟨some 3, []⟩ "x" h4 h3 rfl rfl⟩

end SmallScheme
