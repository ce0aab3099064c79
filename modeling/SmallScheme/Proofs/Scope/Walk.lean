import SmallScheme.Proofs.Scope.WellFormed

/-!
Ways up and what they find.

* `Scopes.Walk a name id path r` — a look-up of `name` from the scope `id` comes past the scopes of
  `path` and stops with the result `r`;
* `Ranked.exists_walk`, `Ranked.find_eq_of_walk`: where parents were opened before the scopes below
  them this is what `find` does, and each scope on the way was opened before the last;
* `Scopes.AllBound P a` — every value that is bound in the arena is `P`; then so is every value
  that is found, and a new scope or a new value that is `P` does no harm.
-/

namespace SmallScheme

/-! ## bindings -/

namespace Bindings

theorem mem_of_get? {b : Bindings} {name : String} {v : Value} (h : b.get? name = some v) :
    (name, v) ∈ b := by
  induction b with
  | nil => cases h
  | cons e rest ih =>
    obtain ⟨n, u⟩ := e
    rw [get?] at h
    split at h
    · next hn =>
      cases h
      subst hn
      exact List.mem_cons_self
    · exact List.mem_cons_of_mem _ (ih h)

theorem mem_of_mem_set {b : Bindings} {name : String} {v : Value} {e : String × Value}
    (h : e ∈ b.set name v) : e ∈ b ∨ e = (name, v) := by
  induction b with
  | nil => exact .inr (List.mem_singleton.1 h)
  | cons d rest ih =>
    obtain ⟨n, u⟩ := d
    rw [set] at h
    split at h
    · next hn =>
      subst hn
      rcases List.mem_cons.1 h with rfl | h
      · exact .inr rfl
      · exact .inl (List.mem_cons_of_mem _ h)
    · rcases List.mem_cons.1 h with rfl | h
      · exact .inl List.mem_cons_self
      · exact (ih h).imp_left (List.mem_cons_of_mem _)

end Bindings

namespace Scopes

/-! ## ways up -/

/-- A look-up of `name` from a scope comes past the scopes of a path, of which only the last may
bind the name, and stops there with the given result. -/
inductive Walk (a : Scopes) (name : String) : ScopeId → List ScopeId → Option Value → Prop
  | found {id : ScopeId} {scope : Scope} {v : Value} : a.get? id = some scope →
      scope.bindings.get? name = some v → Walk a name id [id] (some v)
  | missing {id : ScopeId} {scope : Scope} : a.get? id = some scope →
      scope.bindings.get? name = none → scope.parent = none → Walk a name id [id] none
  | up {id p : ScopeId} {scope : Scope} {path : List ScopeId} {r : Option Value} :
      a.get? id = some scope → scope.bindings.get? name = none → scope.parent = some p →
      Walk a name p path r → Walk a name id (id :: path) r

theorem Ranked.walk_findWithin {a : Scopes} (ha : a.Ranked) (name : String) :
    ∀ (fuel id : Nat), id < a.size → id < fuel →
      ∃ path : List Nat, a.Walk name id path (a.findWithin name fuel id) ∧
        path.Pairwise (fun p q => q < p) ∧ ∀ k ∈ path, k ≤ id := by
  intro fuel
  induction fuel with
  | zero => intro id _ h; omega
  | succ fuel ih =>
    intro id hid hfuel
    obtain ⟨scope, hs⟩ := exists_get?_of_lt hid
    rw [findWithin, hs, Option.bind_some]
    cases hget : scope.bindings.get? name with
    | some v => exact ⟨[id], .found hs hget, by simp, by simp⟩
    | none =>
      cases hp : scope.parent with
      | none => exact ⟨[id], .missing hs hget hp, by simp, by simp⟩
      | some p =>
        have hlt := ha hs hp
        obtain ⟨path, hwalk, hdown, hle⟩ := ih p (by omega) (by omega)
        refine ⟨id :: path, .up hs hget hp hwalk, List.pairwise_cons.2 ⟨?_, hdown⟩, ?_⟩
        · intro k hk
          have := hle k hk
          omega
        · intro k hk
          rcases List.mem_cons.1 hk with rfl | hk
          · exact Nat.le_refl k
          · have := hle k hk
            omega

theorem Ranked.exists_walk {a : Scopes} (ha : a.Ranked) {id : Nat} (hid : id < a.size)
    (name : String) : ∃ path : List Nat, a.Walk name id path (a.find id name) ∧
      path.Pairwise (fun p q => q < p) ∧ ∀ k ∈ path, k ≤ id :=
  ha.walk_findWithin name a.size id hid hid

theorem Walk.unique {a : Scopes} {name : String} {id : ScopeId} {path path' : List ScopeId}
    {r r' : Option Value} (h : a.Walk name id path r) (h' : a.Walk name id path' r') : r = r' := by
  induction h generalizing path' with
  | found hs hget => cases h' <;> simp_all
  | missing hs hget hp => cases h' <;> simp_all
  | up hs hget hp _ ih =>
    cases h' with
    | found hs' hget' => simp_all
    | missing hs' hget' hp' => simp_all
    | up hs' hget' hp' h' =>
      rw [hs] at hs'
      cases hs'
      rw [hp] at hp'
      cases hp'
      exact ih h'

theorem Ranked.find_eq_of_walk {a : Scopes} (ha : a.Ranked) {name : String} {id : Nat}
    {path : List ScopeId} {r : Option Value} (h : a.Walk name id path r) : a.find id name = r := by
  have hid : id < a.size := by
    cases h with
    | found hs _ => exact lt_size_of_get? hs
    | missing hs _ _ => exact lt_size_of_get? hs
    | up hs _ _ _ => exact lt_size_of_get? hs
  obtain ⟨path', hwalk, -⟩ := ha.exists_walk hid name
  exact hwalk.unique h

/-! ## what is bound -/

/-- Every value that is bound somewhere in the arena is `P`. -/
def AllBound (P : Value → Prop) (a : Scopes) : Prop :=
  ∀ id scope name v, a.get? id = some scope → (name, v) ∈ scope.bindings → P v

theorem exists_of_get?_bind {a : Scopes} {s id : ScopeId} {name : String} {v : Value}
    {scope : Scope} (h : (a.bind s name v).get? id = some scope) :
    ∃ before, a.get? id = some before ∧ scope.parent = before.parent ∧
      ∀ e ∈ scope.bindings, e ∈ before.bindings ∨ e = (name, v) := by
  rw [get?_bind] at h
  split at h
  · next hs =>
    subst hs
    obtain ⟨before, hb, rfl⟩ := Option.map_eq_some_iff.1 h
    exact ⟨before, hb, rfl, fun e he => Bindings.mem_of_mem_set he⟩
  · exact ⟨scope, h, rfl, fun e he => .inl he⟩

namespace AllBound

variable {P : Value → Prop} {a : Scopes}

theorem mono (h : a.AllBound P) {Q : Value → Prop} (hPQ : ∀ v, P v → Q v) : a.AllBound Q :=
  fun id scope name v hs hmem => hPQ v (h id scope name v hs hmem)

theorem bind (h : a.AllBound P) {v : Value} (hv : P v) (s : ScopeId) (name : String) :
    (a.bind s name v).AllBound P := by
  intro id scope x u hs hmem
  obtain ⟨before, hb, -, hold⟩ := exists_of_get?_bind hs
  rcases hold _ hmem with hmem | heq
  · exact h id before x u hb hmem
  · cases heq
    exact hv

theorem spawn (h : a.AllBound P) (p : ScopeId) : (a.spawn p).2.AllBound P := by
  intro id scope x u hs hmem
  rw [get?_spawn] at hs
  split at hs
  · cases hs
    cases hmem
  · exact h id scope x u hs hmem

theorem find (h : a.AllBound P) {id : ScopeId} {name : String} {v : Value}
    (hv : a.find id name = some v) : P v := by
  have hwithin : ∀ fuel id, a.findWithin name fuel id = some v → P v := by
    intro fuel
    induction fuel with
    | zero => intro id hv; cases hv
    | succ fuel ih =>
      intro id hv
      rw [findWithin] at hv
      obtain ⟨scope, hs, hv⟩ := Option.bind_eq_some_iff.1 hv
      split at hv
      · next u hu =>
        cases hv
        exact h id scope name v hs (Bindings.mem_of_get? hu)
      · obtain ⟨p, -, hv⟩ := Option.bind_eq_some_iff.1 hv
        exact ih p hv
  exact hwithin _ id hv

theorem ofGlobals {globals : Bindings} (h : ∀ name v, (name, v) ∈ globals → P v) :
    (Scopes.ofGlobals globals).AllBound P := by
  intro id scope name v hs hmem
  have hlt : id < 1 := lt_size_of_get? hs
  obtain rfl : id = (0 : Nat) := Nat.lt_one_iff.1 hlt
  cases hs
  exact h name v hmem

theorem builtins (h : ∀ p, P (.callable (.primitive p))) :
    (Scopes.ofGlobals .builtins).AllBound P := by
  refine ofGlobals fun name v hmem => ?_
  obtain ⟨p, -, hp⟩ := List.mem_map.1 hmem
  cases hp
  exact h p

end AllBound

end Scopes

end SmallScheme
