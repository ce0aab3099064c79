import SmallScheme.Proofs.Scope.Walk

/-!
What a binding does to look-ups. A name that is bound in a scope is seen from that scope and from
those below it, up to where another one of the same name is nearer.

* `Scopes.Built` — the arenas that new scopes and bindings lead to; `Built.ranked`: their parents
  were opened before the scopes below them;
* `Scopes.Chain a t path` — the scopes on the way up from `t`;
* `Scopes.Unshadowed a t name s` — `s` is one of them, and none that is nearer to `t` binds the
  name;
* `Unshadowed.walk_bind`, `Walk.bind_of_hidden`: a look-up after a binding, where it comes to the
  binding and where it does not;
* `shadowing_decides_lookups`: hence what each binding and each new scope changes.
-/

namespace SmallScheme

namespace Scopes

/-! ## arenas that are built up -/

/-- The arenas that come from one with only a global scope, whatever that binds, when scopes are
opened below those that are there and names are bound in those that are there. -/
inductive Built : Scopes → Prop
  | new (globals : Bindings) : Built (.ofGlobals globals)
  | spawn {a : Scopes} {p : Nat} : Built a → p < a.size → Built (a.spawn p).2
  | bind {a : Scopes} {s : Nat} (name : String) (v : Value) : Built a → s < a.size →
      Built (a.bind s name v)

namespace Ranked

variable {a : Scopes}

theorem ofGlobals (globals : Bindings) : (Scopes.ofGlobals globals).Ranked := by
  intro id p scope hs hp
  have hid : id < 1 := lt_size_of_get? hs
  obtain rfl : id = 0 := by omega
  cases hs
  cases hp

theorem bind (h : a.Ranked) (s : ScopeId) (name : String) (v : Value) :
    (a.bind s name v).Ranked := by
  intro id p scope hs hp
  obtain ⟨before, hb, hparent, -⟩ := exists_of_get?_bind hs
  exact h hb (hparent ▸ hp)

theorem spawn (h : a.Ranked) {p : Nat} (hp : p < a.size) : (a.spawn p).2.Ranked := by
  intro id q scope hs hq
  rw [get?_spawn] at hs
  split at hs
  · next hid =>
    cases hs
    cases hq
    rw [hid]
    exact hp
  · exact h hs hq

end Ranked

theorem Built.ranked {a : Scopes} (h : a.Built) : a.Ranked := by
  induction h with
  | new globals => exact .ofGlobals globals
  | spawn _ hp ih => exact ih.spawn hp
  | bind name v _ _ ih => exact ih.bind _ name v

/-! ## ways up -/

/-- The scopes from a scope up to one without a parent. -/
inductive Chain (a : Scopes) : ScopeId → List ScopeId → Prop
  | top {id : ScopeId} {scope : Scope} : a.get? id = some scope → scope.parent = none →
      Chain a id [id]
  | up {id p : ScopeId} {scope : Scope} {path : List ScopeId} : a.get? id = some scope →
      scope.parent = some p → Chain a p path → Chain a id (id :: path)

/-- What a scope itself binds a name to. -/
def own? (a : Scopes) (id : ScopeId) (name : String) : Option Value :=
  (a.get? id).bind fun scope => scope.bindings.get? name

/-- The scope `s` is on the way up from `t`, and no scope on it that is nearer to `t` binds the
name. -/
def Unshadowed (a : Scopes) (t : ScopeId) (name : String) (s : ScopeId) : Prop :=
  ∃ nearer farther, a.Chain t (nearer ++ s :: farther) ∧ ∀ k ∈ nearer, a.own? k name = none

section

variable {a : Scopes} {name : String}

theorem own?_of_get? {id : ScopeId} {scope : Scope} (h : a.get? id = some scope) (name : String) :
    a.own? id name = scope.bindings.get? name := by
  rw [own?, h, Option.bind_some]

theorem Chain.head_eq {id k : ScopeId} {path : List ScopeId} (h : a.Chain id (k :: path)) :
    k = id := by
  cases h with
  | top _ _ => rfl
  | up _ _ _ => rfl

theorem Chain.exists_get? {id : ScopeId} {path : List ScopeId} (h : a.Chain id path) :
    ∃ scope, a.get? id = some scope := by
  cases h with
  | top hs _ => exact ⟨_, hs⟩
  | up hs _ _ => exact ⟨_, hs⟩

theorem Chain.exists_parent {id k : ScopeId} {path : List ScopeId} (h : a.Chain id (k :: path))
    (hne : path ≠ []) :
    ∃ scope p, a.get? id = some scope ∧ scope.parent = some p ∧ a.Chain p path := by
  cases h with
  | top _ _ => exact absurd rfl hne
  | up hs hp h => exact ⟨_, _, hs, hp, h⟩

theorem Ranked.exists_chain (ha : a.Ranked) (id : Nat) : id < a.size →
    ∃ path, a.Chain id (id :: path) := by
  induction id using Nat.strongRecOn with
  | _ id ih =>
    intro hid
    obtain ⟨scope, hs⟩ := exists_get?_of_lt hid
    cases hp : scope.parent with
    | none => exact ⟨[], .top hs hp⟩
    | some p =>
      have hlt := ha hs hp
      obtain ⟨path, hpath⟩ := ih p hlt (Nat.lt_trans hlt hid)
      exact ⟨p :: path, .up hs hp hpath⟩

theorem Ranked.unshadowed_self (ha : a.Ranked) {s : Nat} (hs : s < a.size) (name : String) :
    a.Unshadowed s name s := by
  obtain ⟨path, hpath⟩ := ha.exists_chain s hs
  exact ⟨[], path, hpath, by rintro k ⟨⟩⟩

theorem Unshadowed.up {id p s : ScopeId} {scope : Scope} (h : a.Unshadowed p name s)
    (hid : a.get? id = some scope) (hp : scope.parent = some p)
    (hname : scope.bindings.get? name = none) : a.Unshadowed id name s := by
  obtain ⟨nearer, farther, hchain, hnearer⟩ := h
  refine ⟨id :: nearer, farther, .up hid hp hchain, fun k hk => ?_⟩
  rcases List.mem_cons.1 hk with rfl | hk
  · rw [own?_of_get? hid, hname]
  · exact hnearer k hk

/-! ## look-ups after a binding -/

theorem walk_bind_self {s : ScopeId} {scope : Scope} (h : a.get? s = some scope) (name : String)
    (v : Value) : (a.bind s name v).Walk name s [s] (some v) := by
  refine .found (get?_bind_self h name v) ?_
  rw [Bindings.get?_set, if_pos rfl]

/-- Other names of the scope, and other scopes, stay as they are. -/
theorem exists_get?_bind_of_other {s id : ScopeId} {scope : Scope} {name other : String}
    (hid : a.get? id = some scope) (h : ¬(other = name ∧ id = s)) (v : Value) :
    ∃ after, (a.bind s name v).get? id = some after ∧ after.parent = scope.parent ∧
      after.bindings.get? other = scope.bindings.get? other := by
  by_cases hs : s = id
  · subst hs
    refine ⟨_, get?_bind_self hid name v, rfl, ?_⟩
    rw [Bindings.get?_set, if_neg fun hname => h ⟨hname.symm, rfl⟩]
  · exact ⟨scope, by rw [get?_bind, if_neg hs, hid], rfl, rfl⟩

/-- A look-up comes to the new binding where nothing nearer is in its way. -/
theorem Unshadowed.walk_bind {t s : ScopeId} (h : a.Unshadowed t name s) (v : Value) :
    ∃ path, (a.bind s name v).Walk name t path (some v) := by
  obtain ⟨nearer, farther, hchain, hnearer⟩ := h
  induction nearer generalizing t with
  | nil =>
    obtain rfl := hchain.head_eq
    obtain ⟨scope, hs⟩ := hchain.exists_get?
    exact ⟨[s], walk_bind_self hs name v⟩
  | cons k nearer ih =>
    obtain rfl := hchain.head_eq
    obtain ⟨scope, p, hid, hp, hchain⟩ := hchain.exists_parent (by simp)
    have hk := hnearer k List.mem_cons_self
    rw [own?_of_get? hid] at hk
    by_cases hs : k = s
    · subst hs
      exact ⟨[k], walk_bind_self hid name v⟩
    · obtain ⟨path, hwalk⟩ := ih hchain fun j hj => hnearer j (List.mem_cons_of_mem _ hj)
      have hother : ¬(name = name ∧ k = s) := fun h => hs h.2
      obtain ⟨after, hafter, hparent, hget⟩ := exists_get?_bind_of_other hid hother v
      exact ⟨k :: path, .up hafter (hget.trans hk) (hparent.trans hp) hwalk⟩

/-- A look-up of another name, or one that something nearer is in the way of, goes as before. -/
theorem Walk.bind_of_hidden (ha : a.Ranked) {s t : ScopeId} {other : String} {path : List ScopeId}
    {r : Option Value} (h : a.Walk other t path r) (v : Value)
    (hhidden : ¬(other = name ∧ a.Unshadowed t name s)) :
    (a.bind s name v).Walk other t path r := by
  -- the walk passes no scope that binds the name, so it never comes to `s` if that is the name
  have hother : ∀ {id scope}, a.get? id = some scope → ¬(other = name ∧ a.Unshadowed id name s) →
      ¬(other = name ∧ id = s) := by
    rintro id scope hid hhidden ⟨hname, rfl⟩
    exact hhidden ⟨hname, ha.unshadowed_self (lt_size_of_get? hid) name⟩
  induction h with
  | found hid hget =>
    obtain ⟨after, hafter, -, hsame⟩ := exists_get?_bind_of_other hid (hother hid hhidden) v
    exact .found hafter (hsame.trans hget)
  | missing hid hget hp =>
    obtain ⟨after, hafter, hparent, hsame⟩ := exists_get?_bind_of_other hid (hother hid hhidden) v
    exact .missing hafter (hsame.trans hget) (hparent.trans hp)
  | up hid hget hp _ ih =>
    obtain ⟨after, hafter, hparent, hsame⟩ := exists_get?_bind_of_other hid (hother hid hhidden) v
    refine .up hafter (hsame.trans hget) (hparent.trans hp) (ih ?_)
    rintro ⟨rfl, hseen⟩
    exact hhidden ⟨rfl, hseen.up hid hp hget⟩

/-! ## look-ups after a new scope -/

theorem Walk.spawn {t : ScopeId} {path : List ScopeId} {r : Option Value}
    (h : a.Walk name t path r) (p : ScopeId) : (a.spawn p).2.Walk name t path r := by
  have hget : ∀ {id : Nat} {scope}, a.get? id = some scope →
      (a.spawn p).2.get? id = some scope := by
    intro id scope hid
    have hlt := lt_size_of_get? hid
    rw [get?_spawn, if_neg (Nat.ne_of_lt hlt), hid]
  induction h with
  | found hid hname => exact .found (hget hid) hname
  | missing hid hname hp => exact .missing (hget hid) hname hp
  | up hid hname hp _ ih => exact .up (hget hid) hname hp ih

end

end Scopes

/-- **Shadowing decides what a binding changes.** In an arena that was built up from a global scope
every look-up ends, at the first scope on the way up that binds the name or at the top. After a
binding, the look-ups of its name that come to its scope before any other that binds it find the new
value, and all others find what they did. A new scope changes no look-up and sees what its parent
sees. -/
theorem shadowing_decides_lookups {a : Scopes} (h : a.Built) :
    (∀ t < a.size, ∀ name, ∃ path, a.Walk name t path (a.find t name)) ∧
    (∀ s < a.size, ∀ name v, ∀ t < a.size, ∀ other,
      (other = name ∧ a.Unshadowed t name s → (a.bind s name v).find t other = some v) ∧
      (¬(other = name ∧ a.Unshadowed t name s) →
        (a.bind s name v).find t other = a.find t other)) ∧
    ∀ p < a.size,
      (∀ t < a.size, ∀ name, (a.spawn p).2.find t name = a.find t name) ∧
      ∀ name, (a.spawn p).2.find (a.spawn p).1 name = a.find p name := by
  have ha := h.ranked
  refine ⟨?_, ?_, ?_⟩
  · intro t ht name
    obtain ⟨path, hwalk, -⟩ := ha.exists_walk ht name
    exact ⟨path, hwalk⟩
  · intro s _ name v t ht other
    have hbound := ha.bind s name v
    refine ⟨?_, fun hhidden => ?_⟩
    · rintro ⟨rfl, hseen⟩
      obtain ⟨path, hwalk⟩ := hseen.walk_bind v
      exact hbound.find_eq_of_walk hwalk
    · obtain ⟨path, hwalk, -⟩ := ha.exists_walk ht other
      exact hbound.find_eq_of_walk (hwalk.bind_of_hidden ha v hhidden)
  · intro p hp
    have hopened := ha.spawn hp
    refine ⟨fun t ht name => ?_, fun name => ?_⟩
    · obtain ⟨path, hwalk, -⟩ := ha.exists_walk ht name
      exact hopened.find_eq_of_walk (hwalk.spawn p)
    · obtain ⟨path, hwalk, -⟩ := ha.exists_walk hp name
      have hnew : (a.spawn p).2.get? a.size = some ⟨some p, []⟩ := by
        rw [Scopes.get?_spawn, if_pos rfl]
      exact hopened.find_eq_of_walk (.up hnew rfl rfl (hwalk.spawn p))

/-- A global `x` and two scopes, one below the other, of which the lower has an `x` of its own. -/
def nestedScopes : Scopes :=
  (((Scopes.ofGlobals [("x", .string "global")]).spawn 0).2.spawn 1).2.bind 2 "x" (.string "own")

/-- Another global `x` is seen from the middle scope, and not from the lower one. A scope that is
opened below that one sees what it sees. -/
theorem shadowing_decides_lookups_nested :
    nestedScopes.Built ∧ nestedScopes.Unshadowed 1 "x" 0 ∧ ¬nestedScopes.Unshadowed 2 "x" 0 ∧
    (nestedScopes.bind 0 "x" (.string "other")).find 1 "x" = some (.string "other") ∧
    (nestedScopes.bind 0 "x" (.string "other")).find 2 "x" = nestedScopes.find 2 "x" ∧
    (nestedScopes.spawn 2).2.find 3 "x" = nestedScopes.find 2 "x" ∧
    nestedScopes.find 2 "x" = some (.string "own") := by
  have hbuilt : nestedScopes.Built :=
    .bind "x" _ (.spawn (.spawn (.new _) (by decide)) (by decide)) (by decide)
  have hseen : nestedScopes.Unshadowed 1 "x" 0 := by
    refine ⟨[1], [], .up rfl rfl (.top rfl rfl), fun k hk => ?_⟩
    obtain rfl := List.mem_singleton.1 hk
    rfl
  have hhidden : ¬nestedScopes.Unshadowed 2 "x" 0 := by
    rintro ⟨nearer, farther, hchain, hnearer⟩
    cases nearer with
    | nil => cases hchain.head_eq
    | cons k nearer =>
      obtain rfl := hchain.head_eq
      cases hnearer 2 List.mem_cons_self
  obtain ⟨-, hbind, hspawn⟩ := shadowing_decides_lookups hbuilt
  exact ⟨hbuilt, hseen, hhidden, (hbind 0 (by decide) "x" _ 1 (by decide) "x").1 ⟨rfl, hseen⟩,
    (hbind 0 (by decide) "x" _ 2 (by decide) "x").2 fun h => hhidden h.2,
    (hspawn 2 (by decide)).2 "x", rfl⟩

end SmallScheme
