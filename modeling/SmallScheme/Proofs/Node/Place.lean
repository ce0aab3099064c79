import SmallScheme.Proofs.Node.Grammar
import SmallScheme.Proofs.Place.Layout
import SmallScheme.Proofs.Token.Lossless
import SmallScheme.Proofs.Token.Segment

/-!
Where the nodes of a program stand in its source, and where the errors of the parser do.

* `Span.Ordered place xs` — the places of some elements follow each other, as those of the tokens of
  a source do (`ordered_of_lex`);
* `Node.StandsAlone src n` — the part of the source that the node marks is a program of one form,
  the node itself, moved to the start; `Node.StandsIn src n`, the node itself up to places;
* `standsAlone_of_within`, `standsIn_of_within`: so it is for every node of the tree of a source;
* `marks_of_parse_error`: an error of the parser marks a part of the source.
-/

namespace SmallScheme

/-! ## places in order -/

/-- The places of the elements follow each other, and none of them is empty. -/
structure Span.Ordered {α : Type} (place : α → Span) (xs : List α) : Prop where
  pairwise : xs.Pairwise fun a b => (place a).stop ≤ (place b).start
  nonempty : ∀ x ∈ xs, (place x).start < (place x).stop

namespace Span.Ordered

variable {α : Type} {place : α → Span} {xs ys : List α} {first last : α}

theorem sublist (h : Ordered place xs) (hsub : ys.Sublist xs) : Ordered place ys :=
  ⟨h.pairwise.sublist hsub, fun y hy => h.nonempty y (hsub.subset hy)⟩

theorem segment {pre seg post : List α} (h : Ordered place (pre ++ seg ++ post)) :
    Ordered place seg :=
  h.sublist ((List.sublist_append_right pre seg).trans (List.sublist_append_left _ post))

/-- All stand between the start of the first and the end of the last. -/
theorem bounds (h : Ordered place xs) (hfirst : xs.head? = some first)
    (hlast : xs.getLast? = some last) :
    ∀ x ∈ xs, (place first).start ≤ (place x).start ∧ (place x).stop ≤ (place last).stop := by
  intro x hx
  have hwide := h.nonempty x hx
  constructor
  · obtain ⟨rest, rfl⟩ := List.head?_eq_some_iff.1 hfirst
    rcases List.mem_cons.1 hx with rfl | hx
    · exact Nat.le_refl _
    · have hafter := (List.pairwise_cons.1 h.pairwise).1 x hx
      have hfirst := h.nonempty first List.mem_cons_self
      omega
  · obtain ⟨rest, rfl⟩ := List.getLast?_eq_some_iff.1 hlast
    rcases List.mem_append.1 hx with hx | hx
    · have hbefore := (List.pairwise_append.1 h.pairwise).2.2 x hx last (by simp)
      have hlast := h.nonempty last (by simp)
      omega
    · obtain rfl := List.mem_singleton.1 hx
      exact Nat.le_refl _

theorem merge_eq (h : Ordered place xs) (hfirst : xs.head? = some first)
    (hlast : xs.getLast? = some last) :
    (place first).merge (place last) = ⟨(place first).start, (place last).stop⟩ := by
  have hbounds := h.bounds hfirst hlast
  have hstart := (hbounds last (List.mem_of_getLast? hlast)).1
  have hstop := (hbounds first (List.mem_of_head? hfirst)).2
  rw [merge, Nat.min_eq_left hstart, Nat.max_eq_right hstop]

end Span.Ordered

theorem ordered_of_lex {src : String} {ts : List Token} (h : lex src = .ok ts) :
    Span.Ordered Token.span ts := by
  have hspells := spells_of_lex h
  exact ⟨hspells.pairwise.imp And.right, fun t ht => (hspells.start_bounds t ht).2⟩

theorem Yields.span_of_ordered {n : Node} {ts : List Token} (h : Yields [n] ts)
    (hordered : Span.Ordered Token.span ts) :
    ∃ first last, ts.head? = some first ∧ ts.getLast? = some last ∧
      n.span = ⟨first.span.start, last.span.stop⟩ := by
  obtain ⟨first, last, hfirst, hlast, hspan⟩ := h.span_eq
  exact ⟨first, last, hfirst, hlast, hspan.trans (hordered.merge_eq hfirst hlast)⟩

/-! ## nodes -/

/-- The part of the source that the node marks is read as this form by itself, up to places. -/
def Node.StandsIn (src : String) (n : Node) : Prop :=
  ∃ text ts root form, slice? src n.span = some text ∧ lex text = .ok ts ∧ parse ts = .ok root ∧
    root.children = [form] ∧ form.erase = n.erase

/-- The part of the source that the node marks is read as this form by itself, which starts there
at the start. -/
def Node.StandsAlone (src : String) (n : Node) : Prop :=
  ∃ text ts form, slice? src n.span = some text ∧ lex text = .ok ts ∧
    parse ts = .ok (Node.program [form]) ∧ form.moved n.span.start = n.moved 0

theorem Yields.closes {ns : List Node} {ts : List Token} (h : Yields ns ts) :
    ∀ {depth : Nat} {us : List Token}, Closes depth us → Closes depth (ts ++ us) := by
  have hopened : ∀ {o : Token} {depth : Nat} {us : List Token}, o.isOpen →
      Closes (depth + 1) us → Closes depth (o :: us) := by
    intro o depth us hopen hus
    have hclose : ¬o.isClose := by
      intro hclose
      rw [Token.isOpen_eq_false_of_isClose hclose] at hopen
      cases hopen
    exact .cons (fun h => absurd h hclose) (by rwa [Token.depthAfter, if_pos hopen])
  have hclosed : ∀ {c : Token} {depth : Nat} {us : List Token}, c.isClose →
      Closes depth us → Closes (depth + 1) (c :: us) := by
    intro c depth us hclose hus
    have hopen := Token.isOpen_eq_false_of_isClose hclose
    refine .cons (fun _ => Nat.succ_ne_zero _) ?_
    rwa [Token.depthAfter, if_neg (by simp [hopen]), if_pos hclose, Nat.add_sub_cancel]
  have hatoms : ∀ {t : Token} {depth : Nat} {us : List Token}, t.IsAtom →
      Closes depth us → Closes depth (t :: us) := by
    intro t depth us hatom hus
    refine .cons (fun h => by simp [hatom.not_isClose] at h) ?_
    rwa [Token.depthAfter, if_neg (by simp [hatom.not_isOpen]),
      if_neg (by simp [hatom.not_isClose])]
  induction h with
  | nil => exact fun hus => hus
  | leaf hatom _ ih => exact fun hus => hatoms hatom (ih hus)
  | call hopen hclose _ _ _ _ ihc ih =>
    intro depth us hus
    rw [List.cons_append, List.append_assoc, List.cons_append]
    exact hopened hopen (ihc (hclosed hclose (ih hus)))
  | define hopen hkeyword hclose _ _ ihc ih =>
    intro depth us hus
    rw [List.cons_append, List.cons_append, List.append_assoc, List.cons_append]
    exact hopened hopen
      (hatoms (Token.isAtom_of_isIdentifier hkeyword) (ihc (hclosed hclose (ih hus))))

theorem Yields.balanced {ns : List Node} {ts : List Token} (h : Yields ns ts) : Balanced ts := by
  have hnil : Closes 0 [] := by decide
  have hcloses := h.closes hnil
  rwa [List.append_nil] at hcloses

theorem Yields.moved {ns : List Node} {ts : List Token} (h : Yields ns ts) (bytes : Nat) :
    Yields (ns.map (Node.moved bytes)) (ts.map (Token.moved bytes)) := by
  induction h with
  | nil => exact .nil
  | leaf hatom _ ih =>
    rw [List.map_cons, List.map_cons, Node.moved_leaf]
    exact .leaf ⟨hatom.not_isOpen, hatom.not_isClose, hatom.not_quote⟩ ih
  | @call o c _ _ _ _ hopen hclose hne hfirst _ _ ihc ih =>
    have hopen : (o.moved bytes).isOpen := hopen
    have hclose : (c.moved bytes).isClose := hclose
    rw [List.map_cons, List.map_cons, List.map_append, List.map_cons, Node.moved_mk,
      ← Span.merge_shift]
    refine .call hopen hclose (by simpa using hne) (fun m hm => ?_) ihc ih
    rw [List.head?_map] at hm
    obtain ⟨n, hn, rfl⟩ := Option.map_eq_some_iff.1 hm
    rw [Node.identifier_moved]
    exact hfirst n hn
  | @define o k c _ _ _ _ hopen hkeyword hclose _ _ ihc ih =>
    have hopen : (o.moved bytes).isOpen := hopen
    have hkeyword : (k.moved bytes).isIdentifier "define" := hkeyword
    have hclose : (c.moved bytes).isClose := hclose
    rw [List.map_cons, List.map_cons, List.map_cons, List.map_append, List.map_cons, Node.moved_mk,
      ← Span.merge_shift]
    exact .define hopen hkeyword hclose ihc ih

/-- **A node is read alone from its place.** -/
theorem standsAlone_of_within {src : String} {ts : List Token} {root n : Node}
    (hlex : lex src = .ok ts) (hparse : parse ts = .ok root) (hn : Node.Within root.children n) :
    n.StandsAlone src := by
  obtain ⟨ns, hyields, rfl⟩ := parse_eq_ok_iff_yields.1 hparse
  obtain ⟨pre, seg, post, rfl, hseg⟩ := hyields.exists_segment hn
  obtain ⟨first, last, hfirst, hlast, hspan⟩ := hseg.span_of_ordered (ordered_of_lex hlex).segment
  obtain ⟨text, us, hslice, hus, hmoved⟩ :=
    lex_segment hlex hseg.balanced hseg.not_quote hfirst hlast
  -- the tokens of the part are those of the node up to places, so that they have a tree
  have herase : seg.map Token.erase = us.map Token.erase := by
    have hmap := congrArg (List.map Token.erase) hmoved
    simp only [List.map_map, Function.comp_def, Token.erase_moved] at hmap
    exact hmap.symm
  have hprogram : parse seg = .ok (Node.program [n]) := parse_eq_ok_iff_yields.2 ⟨[n], hseg, rfl⟩
  rcases parse_alike herase with ⟨e, e', he, -, -⟩ | ⟨-, root, -, hroot, -⟩
  · rw [hprogram] at he
    cases he
  · obtain ⟨forms, hforms, rfl⟩ := parse_eq_ok_iff_yields.1 hroot
    -- moved to the place of the node, it has the tokens of the node, and so is the node
    have hsame := (hforms.moved first.span.start).unique (hmoved ▸ hseg.moved 0)
    obtain ⟨form, rfl, hform⟩ := List.map_eq_singleton_iff.1 hsame
    refine ⟨text, us, form, ?_, hus, hroot, ?_⟩
    · rw [hspan]
      exact hslice
    · rw [hspan]
      exact hform

theorem Node.StandsAlone.standsIn {src : String} {n : Node} (h : n.StandsAlone src) :
    n.StandsIn src := by
  obtain ⟨text, ts, form, hslice, hlex, hparse, hform⟩ := h
  refine ⟨text, ts, _, form, hslice, hlex, hparse, rfl, ?_⟩
  rw [← form.erase_moved n.span.start, hform, n.erase_moved]

/-- **The place of a node is its piece of source.** -/
theorem standsIn_of_within {src : String} {ts : List Token} {root n : Node}
    (hlex : lex src = .ok ts) (hparse : parse ts = .ok root) (hn : Node.Within root.children n) :
    n.StandsIn src :=
  (standsAlone_of_within hlex hparse hn).standsIn

theorem Node.StandsIn.marks {src : String} {n : Node} (h : n.StandsIn src) : n.span.Marks src := by
  obtain ⟨text, -, -, -, hslice, -⟩ := h
  exact ⟨text, hslice⟩

/-! ## errors of the parser -/

namespace Builder

theorem exists_of_takeAll_error {ts : List Token} {e : ParseError} : ∀ {b : Builder},
    b.takeAll ts = .error e → ∃ pre t post c, ts = pre ++ t :: post ∧ b.takeAll pre = .ok c ∧
      c.step t = .error e := by
  induction ts with
  | nil => intro b h; cases h
  | cons t ts ih =>
    intro b h
    rw [takeAll_cons] at h
    cases hstep : b.step t with
    | error e' =>
      rw [hstep] at h
      cases h
      exact ⟨[], t, ts, b, rfl, rfl, hstep⟩
    | ok c =>
      rw [hstep] at h
      obtain ⟨pre, u, post, d, rfl, hpre, hu⟩ := ih h
      refine ⟨t :: pre, u, post, d, rfl, ?_, hu⟩
      rw [takeAll_cons, hstep]
      exact hpre

theorem span_of_step_error {b : Builder} {t : Token} {e : ParseError} (h : b.step t = .error e) :
    e.span = t.span ∨ ∃ f stack, b.stack = f :: stack ∧ e.span = f.start.merge t.span := by
  unfold step at h
  split at h
  · unfold close at h
    split at h
    · cases h
      exact .inl rfl
    · next f stack hstack =>
      split at h
      · cases h
        exact .inr ⟨f, stack, hstack, rfl⟩
      · cases h
  · split at h
    · cases h
      exact .inl rfl
    · split at h <;> cases h

/-- An open form starts where one of the tokens stands that were taken. -/
theorem Holds.exists_start {f : OpenForm} {stack : List OpenForm} {forms : List Node}
    {ts : List Token} (h : Holds (f :: stack) forms ts) : ∃ t ∈ ts, f.start = t.span := by
  cases h with
  | inner _ hstart _ _ =>
    rcases hstart with ⟨-, rfl, -, hspan⟩ | ⟨-, o, rfl, -, -, hspan⟩
    · exact ⟨f.token, by simp, hspan⟩
    · exact ⟨o, by simp, hspan⟩

end Builder

/-- **An error of the parser marks a part of the source.** -/
theorem marks_of_parse_error {src : String} {ts : List Token} {e : ParseError}
    (hlex : lex src = .ok ts) (hparse : parse ts = .error e) : e.span.Marks src := by
  have hmarks : ∀ t ∈ ts, t.span.Marks src := fun t ht => ⟨t.literal, slice?_of_lex hlex t ht⟩
  rw [parse_eq] at hparse
  cases htake : Builder.empty.takeAll ts with
  | ok b =>
    -- the lexer has counted the parentheses, so that no form is open at the end
    have hlen := Builder.length_stack_takeAll ts htake
    have hstack : b.stack = [] :=
      List.eq_nil_of_length_eq_zero (hlen.trans (depth_of_lex hlex))
    rw [htake, Except.bind, Builder.finish, hstack] at hparse
    cases hparse
  | error e' =>
    rw [htake] at hparse
    cases hparse
    obtain ⟨pre, t, post, c, rfl, hpre, hstep⟩ := Builder.exists_of_takeAll_error htake
    have ht := hmarks t (by simp)
    rcases Builder.span_of_step_error hstep with hspan | ⟨f, stack, hstack, hspan⟩
    · rw [hspan]
      exact ht
    · have hholds := Builder.holds_takeAll pre hpre (.outermost .nil)
      rw [hstack, List.nil_append] at hholds
      obtain ⟨o, ho, hstart⟩ := hholds.exists_start
      rw [hspan, hstart]
      exact (hmarks o (by simp [ho])).merge ht

end SmallScheme
