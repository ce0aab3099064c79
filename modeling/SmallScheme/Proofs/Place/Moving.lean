import SmallScheme.Proofs.Token.Reading

/-!
Syntax further on in a source. `moved bytes` puts every span of a token or of a tree `bytes` bytes
further on, and disregards lines and columns. Two trees are the same but for the place where they
start if the one, moved, is the other moved by nothing.

Moving changes neither what a tree is made of (`Node.erase_moved`) nor how the spans of its parts
are put together (`Span.merge_shift`).
-/

namespace SmallScheme

theorem Span.merge_shift (bytes : Nat) (a b : Span) :
    (a.shift bytes).merge (b.shift bytes) = (a.merge b).shift bytes := by
  simp only [Span.merge, Span.shift, Nat.add_min_add_right, Nat.add_max_add_right]

/-- The token further on in a source, its line and column disregarded. -/
def Token.moved (bytes : Nat) (t : Token) : Token := ⟨t.text, t.kind, ⟨0, 0⟩, t.span.shift bytes⟩

theorem Token.erase_moved (bytes : Nat) (t : Token) : (t.moved bytes).erase = t.erase := rfl

namespace Node

mutual

/-- The tree further on in a source, lines and columns disregarded. -/
def moved (bytes : Nat) : Node → Node
  | ⟨kind, token, children, span⟩ =>
    ⟨kind, token.map (Token.moved bytes), movedAll bytes children, span.shift bytes⟩

def movedAll (bytes : Nat) : List Node → List Node
  | [] => []
  | n :: ns => moved bytes n :: movedAll bytes ns

end

variable (bytes : Nat)

theorem movedAll_eq_map (ns : List Node) : movedAll bytes ns = ns.map (moved bytes) := by
  induction ns with
  | nil => rfl
  | cons n ns ih => rw [movedAll, ih, List.map_cons]

theorem moved_mk (kind : NodeKind) (token : Option Token) (children : List Node) (span : Span) :
    moved bytes ⟨kind, token, children, span⟩ =
      ⟨kind, token.map (Token.moved bytes), children.map (moved bytes), span.shift bytes⟩ := by
  rw [moved, movedAll_eq_map]

theorem moved_leaf (t : Token) : (leaf t).moved bytes = leaf (t.moved bytes) := by
  rw [leaf, leaf, ofToken, ofToken, moved_mk]
  rfl

theorem identifier_moved (n : Node) : (n.moved bytes).identifier = n.identifier := by
  obtain ⟨kind, token, children, span⟩ := n
  rw [moved_mk]
  simp only [identifier, Option.map_map]
  rfl

mutual

theorem erase_moved : ∀ n : Node, (n.moved bytes).erase = n.erase
  | ⟨kind, token, children, span⟩ => by
    rw [moved, erase, erase, eraseAll_movedAll children, Option.map_map]
    rfl

theorem eraseAll_movedAll : ∀ ns : List Node, eraseAll (movedAll bytes ns) = eraseAll ns
  | [] => rfl
  | n :: ns => by rw [movedAll, eraseAll, eraseAll, erase_moved n, eraseAll_movedAll ns]

end

end Node

end SmallScheme
