import SmallScheme.Scope

/-!
Well-formed arenas: the global scope has no parent, every other scope has one that was opened
before it, and every function that is bound somewhere keeps a scope of the arena.

* `Scopes.Ranked` — the second of these, but for scopes that have no parent;
* `findWithin_congr`: in such an arena a look-up visits only scopes that were opened no later than
  the one it starts from, so that it has enough fuel and sees no other scope;
* `find_of_extends`, `find_of_parent`: hence what a scope sees stays the same as long as the scopes
  of the arena do, and a scope that is opened below it sees the same but for its own names.
-/

namespace SmallScheme

theorem Bindings.closure_notMem_builtins (name : String) (f : Closure) :
    (name, .callable (.closure f)) ∉ builtins := by
  intro hmem
  obtain ⟨p, -, hp⟩ := List.mem_map.1 hmem
  cases hp

namespace Scopes

theorem lt_size_of_get? {a : Scopes} {id : Nat} {scope : Scope} (h : a.get? id = some scope) :
    id < a.size :=
  (Array.getElem?_eq_some_iff.1 h).1

theorem exists_get?_of_lt {a : Scopes} {id : Nat} (h : id < a.size) :
    ∃ scope, a.get? id = some scope :=
  ⟨a.arena[id], Array.getElem?_eq_getElem h⟩

theorem get?_bind_self {a : Scopes} {s : ScopeId} {scope : Scope} (h : a.get? s = some scope)
    (name : String) (v : Value) : (a.bind s name v).get? s =
      some { scope with bindings := scope.bindings.set name v } := by
  rw [get?_bind, if_pos rfl, h, Option.map_some]

/-- Every parent was opened before the scopes below it. -/
def Ranked (a : Scopes) : Prop := ∀ ⦃id p : Nat⦄ ⦃scope : Scope⦄, a.get? id = some scope →
  scope.parent = some p → p < id

/-- **Well-formed arenas.** -/
structure WellFormed (a : Scopes) : Prop where
  global : ∃ scope, a.get? global = some scope ∧ scope.parent = none
  parent : ∀ (id : Nat) scope, a.get? id = some scope → id ≠ Scopes.global →
    ∃ p : Nat, scope.parent = some p ∧ p < id
  closure : ∀ id scope name f, a.get? id = some scope →
    (name, .callable (.closure f)) ∈ scope.bindings → f.scope < a.size

namespace WellFormed

theorem ranked {a : Scopes} (h : a.WellFormed) : a.Ranked := by
  intro id p scope hs hp
  by_cases hid : id = Scopes.global
  · obtain ⟨g, hg, hnone⟩ := h.global
    subst hid
    rw [hg] at hs
    cases hs
    rw [hnone] at hp
    cases hp
  · obtain ⟨q, hq, hlt⟩ := h.parent id scope hs hid
    rw [hq] at hp
    cases hp
    exact hlt

theorem ofGlobals {globals : Bindings}
    (h : ∀ name f, (name, .callable (.closure f)) ∉ globals) :
    (Scopes.ofGlobals globals).WellFormed := by
  have hget : ∀ {id : Nat} {scope}, (Scopes.ofGlobals globals).get? id = some scope →
      id = Scopes.global ∧ scope = ⟨none, globals⟩ := by
    intro id scope hs
    have hlt : id < 1 := lt_size_of_get? hs
    obtain rfl : id = 0 := by omega
    cases hs
    exact ⟨rfl, rfl⟩
  refine ⟨⟨_, rfl, rfl⟩, ?_, ?_⟩
  · intro id scope hs hid
    exact absurd (hget hs).1 hid
  · intro id scope name f hs hmem
    obtain ⟨-, rfl⟩ := hget hs
    exact absurd hmem (h name f)

theorem builtins : (Scopes.ofGlobals .builtins).WellFormed :=
  ofGlobals Bindings.closure_notMem_builtins

end WellFormed

/-! ## what a look-up sees -/

theorem findWithin_congr {a b : Scopes} (ha : a.Ranked) (name : String) (id : Nat) :
    (∀ k ≤ id, b.get? k = a.get? k) → ∀ {m n : Nat}, id < m → id < n →
      b.findWithin name m id = a.findWithin name n id := by
  induction id using Nat.strongRecOn with
  | _ id ih =>
    intro hsame m n hm hn
    obtain ⟨m, rfl⟩ : ∃ k, m = k + 1 := ⟨m - 1, by omega⟩
    obtain ⟨n, rfl⟩ : ∃ k, n = k + 1 := ⟨n - 1, by omega⟩
    rw [findWithin, findWithin, hsame id (Nat.le_refl id)]
    cases hs : a.get? id with
    | none => rfl
    | some scope =>
      simp only [Option.bind_some]
      cases Bindings.get? name scope.bindings with
      | some v => rfl
      | none =>
        cases hp : scope.parent with
        | none => rfl
        | some p =>
          have hlt := ha hs hp
          exact ih p hlt (fun k hk => hsame k (by omega)) (by omega) (by omega)

/-- The arena `b` holds the scopes of `a` as they are, and maybe more. -/
def Extends (b a : Scopes) : Prop := ∀ id : Nat, id < a.size → b.get? id = a.get? id

theorem Extends.size_le {a b : Scopes} (h : b.Extends a) : a.size ≤ b.size := by
  rcases Nat.eq_zero_or_pos a.size with h0 | hpos
  · omega
  · have hlast : a.size - 1 < a.size := by omega
    obtain ⟨scope, hs⟩ := exists_get?_of_lt hlast
    have hlt := lt_size_of_get? ((h _ hlast).trans hs)
    omega

theorem find_of_extends {a b : Scopes} (ha : a.WellFormed) (h : b.Extends a) {id : Nat}
    (hid : id < a.size) (name : String) : b.find id name = a.find id name := by
  have hle := h.size_le
  exact findWithin_congr ha.ranked name id (fun k hk => h k (by omega)) (by omega) hid

theorem find_of_parent {a b : Scopes} (ha : a.WellFormed) (h : b.Extends a) {id p : Nat}
    {scope : Scope} {name : String} (hs : b.get? id = some scope) (hp : scope.parent = some p)
    (hname : scope.bindings.get? name = none) (hlt : p < a.size) (hle : a.size ≤ id) :
    b.find id name = a.find p name := by
  have hid := lt_size_of_get? hs
  obtain ⟨n, hn⟩ : ∃ n, b.size = n + 1 := ⟨b.size - 1, by omega⟩
  rw [find, hn, findWithin, hs, Option.bind_some, hname, hp]
  exact findWithin_congr ha.ranked name p (fun k hk => h k (by omega)) (by omega) hlt

/-- A name that a scope does not bind is in it what it is in its parent. -/
theorem find_of_unbound {a : Scopes} (ha : a.WellFormed) {id p : Nat} {scope : Scope}
    {name : String} (hs : a.get? id = some scope) (hp : scope.parent = some p)
    (hname : scope.bindings.get? name = none) : a.find id name = a.find p name := by
  have hid := lt_size_of_get? hs
  have hlt := ha.ranked hs hp
  obtain ⟨n, hn⟩ : ∃ n, a.size = n + 1 := ⟨a.size - 1, by omega⟩
  have hfind : a.find id name = a.findWithin name n p := by
    rw [find, hn, findWithin, hs, Option.bind_some, hname, hp]
    rfl
  rw [hfind]
  exact findWithin_congr ha.ranked name p (fun _ _ => rfl) (by omega) (by omega)

end Scopes

end SmallScheme
