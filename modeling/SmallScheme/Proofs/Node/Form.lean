import SmallScheme.Proofs.Node.Builder
import SmallScheme.Proofs.Place.Erasure

/-!
Trees as tokens.

* `Node.flatten` — the tokens of a tree in order, with the parentheses that the tree does not keep;
* `Node.collect f` — what `f` finds at the nodes of a tree, in preorder;
* `Node.stored` — the tokens that the nodes of a tree keep, in preorder, and `kept ts`, the tokens
  of a stream that a tree of it keeps;
* `Node.unplaced` — the tree without the places of its nodes;
* `Form`, `Node.IsProgram` — the trees of forms and of programs.
-/

namespace SmallScheme

/-! ## tokens by their part in a tree -/

namespace Token

def opening : Token := ⟨"(", .paren, ⟨0, 0⟩, ⟨0, 0⟩⟩

def closing : Token := ⟨")", .paren, ⟨0, 0⟩, ⟨0, 0⟩⟩

theorem erase_of_isOpen {t : Token} (h : t.isOpen) : t.erase = opening := by
  obtain ⟨hkind, htext⟩ := isOpen_iff.1 h
  rw [erase, hkind, htext]
  rfl

theorem erase_of_isClose {t : Token} (h : t.isClose) : t.erase = closing := by
  obtain ⟨hkind, htext⟩ := isClose_iff.1 h
  rw [erase, hkind, htext]
  rfl

end Token

/-- The tokens without closing parentheses and without the opening ones right before the keyword
`define`. -/
def kept : List Token → List Token
  | [] => []
  | t :: ts =>
    if t.isClose || (t.isOpen && ts.head?.any fun u => u.isIdentifier "define") then kept ts
    else t :: kept ts

theorem kept_of_isClose {t : Token} (h : t.isClose) (ts : List Token) :
    kept (t :: ts) = kept ts := by
  simp [kept, h]

theorem kept_of_isAtom {t : Token} (h : t.IsAtom) (ts : List Token) :
    kept (t :: ts) = t :: kept ts := by
  simp [kept, h.not_isOpen, h.not_isClose]

theorem kept_of_keyword {t u : Token} (ht : t.isOpen) (hu : u.isIdentifier "define")
    (ts : List Token) : kept (t :: u :: ts) = kept (u :: ts) := by
  simp [kept, ht, hu]

theorem kept_of_isOpen {t u : Token} (ht : t.isOpen) (hu : ¬u.isIdentifier "define")
    (ts : List Token) : kept (t :: u :: ts) = t :: kept (u :: ts) := by
  have hclose : t.isClose = false := by simp [Token.isClose, (Token.isOpen_iff.1 ht).2]
  rw [kept, hclose]
  simp [hu]

/-! ## trees as tokens -/

namespace Node

mutual

/-- The tokens of a tree in order. -/
def flatten : Node → List Token
  | ⟨kind, token, children, _⟩ =>
    match kind with
    | .root | .function => flattenAll children
    | .call => token.toList ++ flattenAll children ++ [Token.closing]
    | .define => Token.opening :: (token.toList ++ flattenAll children ++ [Token.closing])
    | .literal | .variable => token.toList

def flattenAll : List Node → List Token
  | [] => []
  | n :: ns => flatten n ++ flattenAll ns

end

theorem flattenAll_eq_flatMap (ns : List Node) : flattenAll ns = ns.flatMap flatten := by
  induction ns with
  | nil => rfl
  | cons n ns ih => rw [flattenAll, ih, List.flatMap_cons]

theorem flatten_leaf (t : Token) : (leaf t).flatten = [t] := by
  unfold leaf ofToken
  split <;> rfl

theorem flatten_call (t : Token) (children : List Node) (span : Span) :
    flatten ⟨.call, some t, children, span⟩ =
      t :: (children.flatMap flatten ++ [Token.closing]) := by
  rw [flatten, flattenAll_eq_flatMap]
  rfl

theorem flatten_define (t : Token) (children : List Node) (span : Span) :
    flatten ⟨.define, some t, children, span⟩ =
      Token.opening :: t :: (children.flatMap flatten ++ [Token.closing]) := by
  rw [flatten, flattenAll_eq_flatMap]
  rfl

theorem flatten_root {n : Node} (h : n.kind = .root) : n.flatten = n.children.flatMap flatten := by
  obtain ⟨kind, token, children, span⟩ := n
  cases h
  rw [flatten, flattenAll_eq_flatMap]

/-! ## what the nodes of a tree have -/

/-- What `f` finds at the nodes of a tree, in preorder. -/
def collect {α : Type} (f : Node → Option α) (n : Node) : List α :=
  (n.preorder 0).filterMap fun p => f p.2

mutual

theorem collect_preorder {α : Type} (f : Node → Option α) : ∀ (n : Node) (depth : Nat),
    ((n.preorder depth).filterMap fun p => f p.2) = n.collect f
  | ⟨kind, token, children, span⟩, depth => by
    rw [collect, preorder, preorder, List.filterMap_cons, List.filterMap_cons,
      collect_preorderAll f children (depth + 1), collect_preorderAll f children (0 + 1)]

theorem collect_preorderAll {α : Type} (f : Node → Option α) : ∀ (ns : List Node) (depth : Nat),
    ((preorderAll depth ns).filterMap fun p => f p.2) = ns.flatMap (collect f)
  | [], _ => rfl
  | n :: ns, depth => by
    rw [preorderAll, List.filterMap_append, collect_preorder f n depth,
      collect_preorderAll f ns depth, List.flatMap_cons]

end

theorem collect_eq {α : Type} (f : Node → Option α) (n : Node) :
    n.collect f = (f n).toList ++ n.children.flatMap (collect f) := by
  obtain ⟨kind, token, children, span⟩ := n
  rw [collect, preorder, List.filterMap_cons, collect_preorderAll]
  cases f ⟨kind, token, children, span⟩ <;> rfl

/-- The tokens that the nodes of a tree keep, in preorder. -/
def stored (n : Node) : List Token := n.collect token

theorem stored_mk (kind : NodeKind) (token : Option Token) (children : List Node) (span : Span) :
    stored ⟨kind, token, children, span⟩ = token.toList ++ children.flatMap stored :=
  collect_eq Node.token _

theorem stored_leaf (t : Token) : (leaf t).stored = [t] := by
  rw [leaf, ofToken, stored_mk]
  rfl

/-! ## trees without the places of nodes -/

mutual

/-- The tree without the places of its nodes; tokens keep theirs. -/
def unplaced : Node → Node
  | ⟨kind, token, children, _⟩ => ⟨kind, token, unplacedAll children, ⟨0, 0⟩⟩

def unplacedAll : List Node → List Node
  | [] => []
  | n :: ns => unplaced n :: unplacedAll ns

end

theorem unplacedAll_eq_map (ns : List Node) : unplacedAll ns = ns.map unplaced := by
  induction ns with
  | nil => rfl
  | cons n ns ih => rw [unplacedAll, ih, List.map_cons]

theorem unplaced_mk (kind : NodeKind) (token : Option Token) (children : List Node) (span : Span) :
    unplaced ⟨kind, token, children, span⟩ =
      ⟨kind, token, children.map unplaced, ⟨0, 0⟩⟩ := by
  rw [unplaced, unplacedAll_eq_map]

end Node

/-! ## forms -/

/-- The tree is a form: a token by itself, a call, which keeps its opening parenthesis and has
something in it that does not start with the keyword `define`, or a definition, which keeps the
keyword. -/
inductive Form : Node → Prop
  | leaf {t : Token} : t.IsAtom → Form (Node.leaf t)
  | call {t : Token} {children : List Node} {span : Span} : t.isOpen → children ≠ [] →
      (∀ n, children.head? = some n → n.identifier ≠ some "define") →
      (∀ n ∈ children, Form n) → Form ⟨.call, some t, children, span⟩
  | define {t : Token} {children : List Node} {span : Span} : t.isIdentifier "define" →
      (∀ n ∈ children, Form n) → Form ⟨.define, some t, children, span⟩

/-- The tree is a program: a root above forms. -/
structure Node.IsProgram (n : Node) : Prop where
  kind : n.kind = .root
  token : n.token = none
  forms : ∀ c ∈ n.children, Form c

theorem Node.identifier_leaf {t : Token} {name : String} :
    (Node.leaf t).identifier = some name ↔ t.isIdentifier name := by
  rw [Token.isIdentifier_iff, leaf, ofToken, identifier]
  by_cases h : t.kind = .identifier <;> simp [h]

end SmallScheme
