import SmallScheme.Proofs.Node.Place

/-!
The spans of a tree. Every node but the root stands exactly at its piece of the source, the parts of
a node stand inside of it one after the other, and the root reaches from its first form to its last.

* `Yields.ordered`: forms follow each other as their tokens do;
* `Node.Nests`, `Yields.nests`: a form has room for its parts;
* `Node.Fills`, `spans_fill_source`: so it is in the tree of every source, where each node but the
  root can be read alone.
-/

namespace SmallScheme

/-! ## forms in order -/

namespace Yields

variable {ns : List Node} {ts : List Token} {n : Node}

/-- A form starts with a token and ends with one, and all its tokens stand between. -/
theorem span_bounds (h : Yields [n] ts) (hordered : Span.Ordered Token.span ts) :
    (∃ t ∈ ts, n.span.start = t.span.start) ∧ (∃ t ∈ ts, n.span.stop = t.span.stop) ∧
      ∀ t ∈ ts, n.span.start ≤ t.span.start ∧ t.span.stop ≤ n.span.stop := by
  obtain ⟨first, last, hfirst, hlast, hspan⟩ := h.span_of_ordered hordered
  rw [hspan]
  exact ⟨⟨first, List.mem_of_head? hfirst, rfl⟩, ⟨last, List.mem_of_getLast? hlast, rfl⟩,
    hordered.bounds hfirst hlast⟩

theorem nonempty_span (h : Yields [n] ts) (hordered : Span.Ordered Token.span ts) :
    n.span.start < n.span.stop := by
  obtain ⟨⟨t, ht, hstart⟩, -, hbounds⟩ := h.span_bounds hordered
  have hwide := hordered.nonempty t ht
  have hstop := (hbounds t ht).2
  omega

/-- One of some forms starts and ends with tokens of theirs. -/
theorem span_of_mem (h : Yields ns ts) (hordered : Span.Ordered Token.span ts) (hn : n ∈ ns) :
    (∃ t ∈ ts, n.span.start = t.span.start) ∧ (∃ t ∈ ts, n.span.stop = t.span.stop) ∧
      n.span.start < n.span.stop := by
  obtain ⟨pre, seg, post, rfl, hseg⟩ := h.exists_of_mem hn
  have hmem : ∀ t ∈ seg, t ∈ pre ++ seg ++ post := fun t ht => by simp [ht]
  obtain ⟨⟨t, ht, hstart⟩, ⟨u, hu, hstop⟩, -⟩ := hseg.span_bounds hordered.segment
  exact ⟨⟨t, hmem t ht, hstart⟩, ⟨u, hmem u hu, hstop⟩, hseg.nonempty_span hordered.segment⟩

theorem ordered (h : Yields ns ts) (hordered : Span.Ordered Token.span ts) :
    Span.Ordered Node.span ns := by
  refine ⟨?_, fun n hn => (h.span_of_mem hordered hn).2.2⟩
  induction ns generalizing ts with
  | nil => exact .nil
  | cons n ns ih =>
    obtain ⟨seg, rest, rfl, hseg, hrest⟩ := h.split
    have hbefore := hordered.sublist (List.sublist_append_left seg rest)
    have hafter := hordered.sublist (List.sublist_append_right seg rest)
    refine .cons (fun m hm => ?_) (ih hrest hafter)
    -- the last token of the form stands before the first of every later one
    obtain ⟨-, ⟨t, ht, hstop⟩, -⟩ := hseg.span_bounds hbefore
    obtain ⟨⟨u, hu, hstart⟩, -, -⟩ := hrest.span_of_mem hafter hm
    rw [hstop, hstart]
    exact (List.pairwise_append.1 hordered.pairwise).2.2 t ht u hu

end Yields

/-! ## parts of a node -/

/-- The parts of the node stand inside of it, one after the other. -/
structure Node.Nests (n : Node) : Prop where
  inside : ∀ m ∈ n.children, n.span.start ≤ m.span.start ∧ m.span.stop ≤ n.span.stop
  disjoint : n.children.Pairwise fun a b => a.span.stop ≤ b.span.start

theorem Yields.nests {n : Node} {ts : List Token} (h : Yields [n] ts)
    (hordered : Span.Ordered Token.span ts) : n.Nests := by
  obtain ⟨-, -, hbounds⟩ := h.span_bounds hordered
  obtain ⟨pre, inner, post, rfl, hchildren⟩ := h.exists_children
  refine ⟨fun m hm => ?_, (hchildren.ordered hordered.segment).pairwise⟩
  obtain ⟨⟨t, ht, hstart⟩, ⟨u, hu, hstop⟩, -⟩ := hchildren.span_of_mem hordered.segment hm
  rw [hstart, hstop]
  exact ⟨(hbounds t (by simp [ht])).1, (hbounds u (by simp [hu])).2⟩

namespace Node

/-- From the start of the first of some nodes to the end of the last, if there are any. -/
def extent (ns : List Node) : Span :=
  ⟨ns.head?.elim 0 fun n => n.span.start, ns.getLast?.elim 0 fun n => n.span.stop⟩

variable {ns : List Node}

theorem extent_of_ne_nil (hne : ns ≠ []) :
    extent ns = ⟨(ns.head hne).span.start, (ns.getLast hne).span.stop⟩ := by
  rw [extent, List.head?_eq_some_head hne, List.getLast?_eq_some_getLast hne]
  rfl

theorem spanOf_of_ordered (hordered : Span.Ordered Node.span ns) : spanOf ns = extent ns := by
  by_cases hne : ns = []
  · rw [hne]
    rfl
  · have hfirst := List.head?_eq_some_head hne
    have hlast := List.getLast?_eq_some_getLast hne
    rw [extent_of_ne_nil hne, spanOf, hfirst, hlast]
    exact hordered.merge_eq hfirst hlast

theorem nests_program (hordered : Span.Ordered Node.span ns) : (program ns).Nests := by
  refine ⟨fun m hm => ?_, hordered.pairwise⟩
  have hne : ns ≠ [] := List.ne_nil_of_mem hm
  rw [program, spanOf_of_ordered hordered, extent_of_ne_nil hne]
  exact hordered.bounds (List.head?_eq_some_head hne) (List.getLast?_eq_some_getLast hne) m hm

/-! ## trees of sources -/

/-- The node stands exactly at its piece of the source: there is something there, it starts and ends
between characters, it can be read alone, and it has room for the parts. -/
structure Fills (src : String) (n : Node) : Prop extends Nests n where
  nonempty : n.span.start < n.span.stop
  marks : n.span.Marks src
  alone : n.StandsAlone src

end Node

/-- **The spans of a tree are the pieces of its source.** The root reaches from its first form to
its last. -/
theorem spans_fill_source {src : String} {ts : List Token} {root : Node} (hlex : lex src = .ok ts)
    (hparse : parse ts = .ok root) :
    root.span = Node.extent root.children ∧ root.Nests ∧
      ∀ n, Node.Within root.children n → n.Fills src := by
  have hordered := ordered_of_lex hlex
  obtain ⟨ns, hyields, rfl⟩ := parse_eq_ok_iff_yields.1 hparse
  have hforms := hyields.ordered hordered
  refine ⟨Node.spanOf_of_ordered hforms, Node.nests_program hforms, fun n hn => ?_⟩
  have halone := standsAlone_of_within hlex hparse hn
  obtain ⟨pre, seg, post, rfl, hseg⟩ := hyields.exists_segment hn
  exact
    { toNests := hseg.nests hordered.segment
      nonempty := hseg.nonempty_span hordered.segment
      marks := halone.standsIn.marks
      alone := halone }

/-- A call in a definition, with characters of more than one byte before it and in it. -/
theorem spans_fill_source_call :
    ∃ ts root n, lex "é\n(define f (- \"ö\" 1));é" = .ok ts ∧ parse ts = .ok root ∧
      root.span = ⟨0, 24⟩ ∧ Node.Within root.children n ∧ n.span = ⟨13, 23⟩ ∧
      n.children.map Node.span = [⟨14, 15⟩, ⟨16, 20⟩, ⟨21, 22⟩] ∧
      n.Fills "é\n(define f (- \"ö\" 1));é" := by
  have hlex : lex "é\n(define f (- \"ö\" 1));é" = .ok
      [⟨"é", .identifier, ⟨1, 0⟩, ⟨0, 2⟩⟩, ⟨"(", .paren, ⟨2, 0⟩, ⟨3, 4⟩⟩,
        ⟨"define", .identifier, ⟨2, 1⟩, ⟨4, 10⟩⟩, ⟨"f", .identifier, ⟨2, 8⟩, ⟨11, 12⟩⟩,
        ⟨"(", .paren, ⟨2, 10⟩, ⟨13, 14⟩⟩, ⟨"-", .identifier, ⟨2, 11⟩, ⟨14, 15⟩⟩,
        ⟨"ö", .string, ⟨2, 13⟩, ⟨16, 20⟩⟩, ⟨"1", .integer, ⟨2, 17⟩, ⟨21, 22⟩⟩,
        ⟨")", .paren, ⟨2, 18⟩, ⟨22, 23⟩⟩, ⟨")", .paren, ⟨2, 19⟩, ⟨23, 24⟩⟩] :=
    lex_eq_of_within 12 rfl
  obtain ⟨hspan, -, hfills⟩ := spans_fill_source hlex (parse_eq_of_run rfl)
  refine ⟨_, _, ⟨.call, some ⟨"(", .paren, ⟨2, 10⟩, ⟨13, 14⟩⟩,
    [.leaf ⟨"-", .identifier, ⟨2, 11⟩, ⟨14, 15⟩⟩, .leaf ⟨"ö", .string, ⟨2, 13⟩, ⟨16, 20⟩⟩,
      .leaf ⟨"1", .integer, ⟨2, 17⟩, ⟨21, 22⟩⟩], ⟨13, 23⟩⟩,
    hlex, parse_eq_of_run rfl, hspan, ?within, rfl, rfl, hfills _ ?within⟩
  -- it is the second part of the second form
  exact .child (.top (.tail _ (.head _))) (.tail _ (.head _))

end SmallScheme
