import SmallScheme.Proofs.Node.Flattening

/-!
The grammar of programs, with places.

* `Yields ns ts` — the tokens `ts` are those of the forms `ns`, one after the other;
* `parse_eq_ok_iff_yields`: the parser accepts exactly the tokens of forms, and gives these forms;
* `Node.Within ns n` — the node `n` is one of the trees `ns` or somewhere inside of them;
* `Yields.exists_segment`: the tokens of such a node stand together, and are a program by
  themselves.
-/

namespace SmallScheme

/-! ## forms and their tokens -/

/-- The tokens are those of the forms, one form after the other. A form in parentheses stands from
the first to the second. -/
inductive Yields : List Node → List Token → Prop
  | nil : Yields [] []
  | leaf {t : Token} {ns : List Node} {ts : List Token} : t.IsAtom → Yields ns ts →
      Yields (Node.leaf t :: ns) (t :: ts)
  | call {o c : Token} {children ns : List Node} {ts us : List Token} : o.isOpen → c.isClose →
      children ≠ [] → (∀ n, children.head? = some n → n.identifier ≠ some "define") →
      Yields children ts → Yields ns us →
      Yields (⟨.call, some o, children, o.span.merge c.span⟩ :: ns) (o :: (ts ++ c :: us))
  | define {o k c : Token} {children ns : List Node} {ts us : List Token} : o.isOpen →
      k.isIdentifier "define" → c.isClose → Yields children ts → Yields ns us →
      Yields (⟨.define, some k, children, o.span.merge c.span⟩ :: ns) (o :: k :: (ts ++ c :: us))

namespace Yields

variable {ns ms : List Node} {ts us : List Token} {n : Node}

theorem append (h : Yields ns ts) (h' : Yields ms us) : Yields (ns ++ ms) (ts ++ us) := by
  induction h with
  | nil => exact h'
  | leaf hatom _ ih => exact .leaf hatom ih
  | call hopen hclose hne hfirst hchildren _ _ ih =>
    rw [List.cons_append, List.cons_append, List.append_assoc, List.cons_append]
    exact .call hopen hclose hne hfirst hchildren ih
  | define hopen hkeyword hclose hchildren _ _ ih =>
    rw [List.cons_append, List.cons_append, List.cons_append, List.append_assoc, List.cons_append]
    exact .define hopen hkeyword hclose hchildren ih

theorem eq_nil (h : Yields [] ts) : ts = [] := by
  cases h
  rfl

theorem split (h : Yields (n :: ns) ts) :
    ∃ seg rest, ts = seg ++ rest ∧ Yields [n] seg ∧ Yields ns rest := by
  cases h with
  | @leaf t _ ts hatom hrest => exact ⟨[t], ts, rfl, .leaf hatom .nil, hrest⟩
  | @call o c _ _ ts us hopen hclose hne hfirst hchildren hrest =>
    exact ⟨o :: (ts ++ [c]), us, by simp, .call hopen hclose hne hfirst hchildren .nil, hrest⟩
  | @define o k c _ _ ts us hopen hkeyword hclose hchildren hrest =>
    exact ⟨o :: k :: (ts ++ [c]), us, by simp, .define hopen hkeyword hclose hchildren .nil, hrest⟩

/-- The tokens of one of the forms stand together. -/
theorem exists_of_mem (h : Yields ns ts) (hn : n ∈ ns) :
    ∃ pre seg post, ts = pre ++ seg ++ post ∧ Yields [n] seg := by
  induction ns generalizing ts with
  | nil => cases hn
  | cons m ns ih =>
    obtain ⟨seg, rest, rfl, hm, hrest⟩ := h.split
    rcases List.mem_cons.1 hn with rfl | hn
    · exact ⟨[], seg, rest, rfl, hm⟩
    · obtain ⟨pre, seg', post, rfl, hseg⟩ := ih hrest hn
      exact ⟨seg ++ pre, seg', post, by simp, hseg⟩

/-- So do the tokens of the parts of a form. -/
theorem exists_children (h : Yields [n] ts) :
    ∃ pre inner post, ts = pre ++ inner ++ post ∧ Yields n.children inner := by
  cases h with
  | @leaf t _ us _ _ => exact ⟨t :: us, [], [], by simp, .nil⟩
  | @call o c _ _ inner us _ _ _ _ hchildren _ =>
    exact ⟨[o], inner, c :: us, by simp, hchildren⟩
  | @define o k c _ _ inner us _ _ _ hchildren _ =>
    exact ⟨[o, k], inner, c :: us, by simp, hchildren⟩

theorem exists_of_child {m : Node} (h : Yields [n] ts) (hm : m ∈ n.children) :
    ∃ pre seg post, ts = pre ++ seg ++ post ∧ Yields [m] seg := by
  obtain ⟨pre, inner, post, rfl, hchildren⟩ := h.exists_children
  obtain ⟨pre', seg, post', rfl, hseg⟩ := hchildren.exists_of_mem hm
  exact ⟨pre ++ pre', seg, post' ++ post, by simp, hseg⟩

/-- A form stands from its first token to its last. -/
theorem span_eq (h : Yields [n] ts) :
    ∃ first last, ts.head? = some first ∧ ts.getLast? = some last ∧
      n.span = first.span.merge last.span := by
  cases h with
  | @leaf t _ _ _ hrest =>
    refine ⟨t, t, rfl, by rw [hrest.eq_nil]; rfl, ?_⟩
    rw [Node.leaf, Node.ofToken, Span.merge, Nat.min_self, Nat.max_self]
  | @call o c _ _ _ _ _ _ _ _ _ hrest =>
    exact ⟨o, c, rfl, by rw [hrest.eq_nil, ← List.cons_append, List.getLast?_concat], rfl⟩
  | @define o k c _ _ _ _ _ _ _ _ hrest =>
    refine ⟨o, c, rfl, ?_, rfl⟩
    rw [hrest.eq_nil, ← List.cons_append, ← List.cons_append, List.getLast?_concat]

theorem not_quote (h : Yields ns ts) : ∀ t ∈ ts, t.kind ≠ .quote := by
  have hparen : ∀ t : Token, t.kind = .paren → t.kind ≠ .quote := by
    intro t ht
    rw [ht]
    decide
  induction h with
  | nil => intro t ht; cases ht
  | leaf hatom _ ih =>
    intro t ht
    rcases List.mem_cons.1 ht with rfl | ht
    · exact hatom.not_quote
    · exact ih t ht
  | call hopen hclose _ _ _ _ ihc ih =>
    intro t ht
    simp only [List.mem_cons, List.mem_append] at ht
    rcases ht with rfl | ht | rfl | ht
    · exact hparen t (Token.isOpen_iff.1 hopen).1
    · exact ihc t ht
    · exact hparen t (Token.isClose_iff.1 hclose).1
    · exact ih t ht
  | define hopen hkeyword hclose _ _ ihc ih =>
    intro t ht
    simp only [List.mem_cons, List.mem_append] at ht
    rcases ht with rfl | rfl | ht | rfl | ht
    · exact hparen t (Token.isOpen_iff.1 hopen).1
    · exact (Token.isAtom_of_isIdentifier hkeyword).not_quote
    · exact ihc t ht
    · exact hparen t (Token.isClose_iff.1 hclose).1
    · exact ih t ht

end Yields

/-! ## the parser accepts only tokens of forms -/

/-- The tokens are those that the form has started with. -/
def OpenForm.StartsWith (f : OpenForm) (ts : List Token) : Prop :=
  (f.kind = .call ∧ ts = [f.token] ∧ f.token.isOpen ∧ f.start = f.token.span) ∨
  (f.kind = .define ∧ ∃ o : Token, ts = [o, f.token] ∧ o.isOpen ∧ f.token.isIdentifier "define" ∧
    f.start = o.span)

theorem OpenForm.StartsWith.close {f : OpenForm} {hs us : List Token} {forms : List Node}
    {t : Token} (h : f.StartsWith hs) (hclose : t.isClose) (hne : f.kind = .call → forms ≠ [])
    (hfirst : f.kind = .call → ∀ n, forms.getLast? = some n → n.identifier ≠ some "define")
    (hforms : Yields forms.reverse us) : Yields [f.close forms t] (hs ++ us ++ [t]) := by
  obtain ⟨kind, token, start, before⟩ := f
  rcases h with ⟨hkind, rfl, hopen, hstart⟩ | ⟨hkind, o, rfl, hopen, hkeyword, hstart⟩
  · obtain rfl : kind = .call := hkind
    obtain rfl : start = token.span := hstart
    refine .call hopen hclose (by simpa using hne rfl) (fun n hn => ?_) hforms .nil
    rw [List.head?_reverse] at hn
    exact hfirst rfl n hn
  · obtain rfl : kind = .define := hkind
    obtain rfl : start = o.span := hstart
    exact .define hopen hkeyword hclose hforms .nil

namespace Builder

/-- The tokens taken so far are those of the open forms and of the forms that are read. -/
inductive Holds : List OpenForm → List Node → List Token → Prop
  | outermost {forms : List Node} {ts : List Token} : Yields forms.reverse ts → Holds [] forms ts
  | inner {f : OpenForm} {stack : List OpenForm} {forms : List Node} {ts hs us : List Token} :
      Holds stack f.before ts → f.StartsWith hs → Yields forms.reverse us →
      (f.kind = .call → ∀ n, forms.getLast? = some n → n.identifier ≠ some "define") →
      Holds (f :: stack) forms (ts ++ hs ++ us)

theorem Holds.push {stack : List OpenForm} {forms : List Node} {ts seg : List Token} {n : Node}
    {e : Nat} (h : Holds stack forms ts) (hn : Yields [n] seg)
    (hfresh : n.identifier = some "define" → fresh? ⟨stack, forms, e⟩ = none) :
    Holds stack (n :: forms) (ts ++ seg) := by
  cases h with
  | outermost hforms =>
    refine .outermost ?_
    rw [List.reverse_cons]
    exact hforms.append hn
  | @inner f _ _ _ hs us hstack hstart hforms hfirst =>
    rw [List.append_assoc]
    refine .inner hstack hstart ?_ fun hkind m hm => ?_
    · rw [List.reverse_cons]
      exact hforms.append hn
    · cases forms with
      | nil =>
        cases hm
        intro hdefine
        have hnone := hfresh hdefine
        rw [fresh?_of_call hkind] at hnone
        cases hnone
      | cons k ks =>
        rw [List.getLast?_cons_cons] at hm
        exact hfirst hkind m hm

theorem Takes.holds {b b' : Builder} {t : Token} {ts : List Token} (h : Takes b t b')
    (hb : Holds b.stack b.forms ts) : Holds b'.stack b'.forms (ts ++ [t]) := by
  cases h with
  | @close f stack forms e t hclose hne =>
    cases hb with
    | @inner _ _ _ ts hs us hstack hstart hforms hfirst =>
      have hform := hstart.close hclose hne hfirst hforms
      have hidentifier : (f.close forms t).identifier = none := by
        rcases hstart with ⟨hkind, -⟩ | ⟨hkind, -⟩ <;>
          simp [OpenForm.close, Node.identifier, hkind]
      have hpush := hstack.push (e := e) hform fun hdefine => by
        rw [hidentifier] at hdefine
        cases hdefine
      simpa only [List.append_assoc] using hpush
  | @opening stack forms e t hopen =>
    have hinner : Holds (.ofOpen t forms :: stack) [] (ts ++ [t] ++ []) :=
      .inner hb (.inl ⟨rfl, rfl, hopen, rfl⟩) .nil (by rintro - n ⟨⟩)
    rwa [List.append_nil] at hinner
  | @keyword f stack e t hkeyword hkind =>
    cases hb with
    | @inner _ _ _ ts hs us hstack hstart hforms hfirst =>
      rcases hstart with ⟨-, rfl, hopen, hspan⟩ | ⟨hdefine, -⟩
      · obtain rfl := hforms.eq_nil
        have hinner : Holds (f.toDefine t :: stack) [] (ts ++ [f.token, t] ++ []) :=
          .inner hstack (.inr ⟨rfl, f.token, rfl, hopen, hkeyword, hspan⟩) .nil (by rintro - n ⟨⟩)
        simpa using hinner
      · rw [hkind] at hdefine
        cases hdefine
  | leaf hatom hfresh =>
    exact hb.push (.leaf hatom .nil) fun hdefine => hfresh (Node.identifier_leaf.1 hdefine)

theorem holds_takeAll (us : List Token) : ∀ {b b' : Builder} {ts : List Token},
    b.takeAll us = .ok b' → Holds b.stack b.forms ts → Holds b'.stack b'.forms (ts ++ us) := by
  induction us with
  | nil =>
    rintro b b' ts ⟨⟩ hb
    rwa [List.append_nil]
  | cons t us ih =>
    intro b b' ts h hb
    obtain ⟨c, hstep, hrest⟩ := takeAll_cons_eq_ok h
    have hafter := ih hrest ((takes_of_step hstep).holds hb)
    rwa [List.append_assoc] at hafter

/-! ## the tokens of forms are taken as the forms -/

/-- What is inside of a form and the parenthesis that closes it. -/
theorem takeAll_inside {stack : List OpenForm} {f : OpenForm} {children : List Node}
    {ts us : List Token} {c : Token} {start e : Nat}
    (hinside : takeAll ⟨f :: stack, [], start⟩ ts = .ok ⟨f :: stack, children.reverse, e⟩)
    (hclose : c.isClose) (hne : f.kind = .call → children.reverse ≠ []) :
    takeAll ⟨f :: stack, [], start⟩ (ts ++ c :: us) =
      takeAll ⟨stack, ⟨f.kind, some f.token, children, f.start.merge c.span⟩ :: f.before,
        c.span.stop⟩ us := by
  rw [takeAll_append, hinside, Except.bind, takeAll_cons, step_of_takes (.close hclose hne),
    Except.bind, OpenForm.close, List.reverse_reverse]

theorem takeAll_of_yields {ns : List Node} {ts : List Token} (h : Yields ns ts) : ∀ b : Builder,
    (∀ n, ns.head? = some n → n.identifier = some "define" → b.fresh? = none) →
    ∃ e, b.takeAll ts = .ok ⟨b.stack, ns.reverse ++ b.forms, e⟩ := by
  -- only the keyword right after an opening parenthesis is not taken as a leaf, so that a leaf
  -- asks for what comes before it, and what comes after a form is never in such a place
  induction h with
  | nil => exact fun b _ => ⟨b.lastEnd, rfl⟩
  | @leaf t ns ts hatom _ ih =>
    intro b hfirst
    have htakes : Takes b t ⟨b.stack, Node.leaf t :: b.forms, t.span.stop⟩ :=
      .leaf hatom fun hdefine => hfirst _ rfl (Node.identifier_leaf.2 hdefine)
    obtain ⟨e, hrest⟩ := ih ⟨b.stack, Node.leaf t :: b.forms, t.span.stop⟩
      fun _ _ _ => fresh?_cons b.stack _ b.forms _
    refine ⟨e, ?_⟩
    rw [takeAll_cons, step_of_takes htakes, Except.bind, hrest, List.reverse_cons,
      List.append_assoc]
    rfl
  | @call o c children ns ts us hopen hclose hne hfirst _ _ ihc ih =>
    intro b _
    obtain ⟨e, hinside⟩ := ihc ⟨.ofOpen o b.forms :: b.stack, [], o.span.stop⟩
      fun n hn hdefine => absurd hdefine (hfirst n hn)
    rw [List.append_nil] at hinside
    obtain ⟨e', hrest⟩ := ih ⟨b.stack, _ :: b.forms, c.span.stop⟩
      fun _ _ _ => fresh?_cons b.stack _ b.forms _
    refine ⟨e', ?_⟩
    rw [takeAll_cons, step_of_takes (.opening hopen), Except.bind,
      takeAll_inside hinside hclose (fun _ => by simpa using hne), List.reverse_cons,
      List.append_assoc]
    exact hrest
  | @define o k c children ns ts us hopen hkeyword hclose _ _ ihc ih =>
    intro b _
    obtain ⟨e, hinside⟩ := ihc ⟨(OpenForm.ofOpen o b.forms).toDefine k :: b.stack, [], k.span.stop⟩
      fun n hn hdefine => fresh?_of_define rfl b.stack _
    rw [List.append_nil] at hinside
    obtain ⟨e', hrest⟩ := ih ⟨b.stack, _ :: b.forms, c.span.stop⟩
      fun _ _ _ => fresh?_cons b.stack _ b.forms _
    refine ⟨e', ?_⟩
    rw [takeAll_cons, step_of_takes (.opening hopen), Except.bind, takeAll_cons,
      step_of_takes (.keyword hkeyword rfl), Except.bind,
      takeAll_inside hinside hclose (by rintro ⟨⟩), List.reverse_cons, List.append_assoc]
    exact hrest

end Builder

/-- **The parser accepts exactly the tokens of forms.** -/
theorem parse_eq_ok_iff_yields {ts : List Token} {root : Node} :
    parse ts = .ok root ↔ ∃ ns, Yields ns ts ∧ root = Node.program ns := by
  rw [parse_eq_ok_iff]
  constructor
  · rintro ⟨b, htake, hstack, rfl⟩
    have hholds := Builder.holds_takeAll ts htake (.outermost .nil)
    rw [hstack] at hholds
    cases hholds with
    | outermost hforms => exact ⟨_, hforms, rfl⟩
  · rintro ⟨ns, hyields, rfl⟩
    obtain ⟨e, htake⟩ := Builder.takeAll_of_yields hyields Builder.empty fun _ _ _ => rfl
    refine ⟨_, htake, rfl, ?_⟩
    simp [Builder.empty]

/-- The tokens tell the forms. -/
theorem Yields.unique {ns ms : List Node} {ts : List Token} (h : Yields ns ts)
    (h' : Yields ms ts) : ns = ms := by
  have hns : parse ts = .ok (Node.program ns) := parse_eq_ok_iff_yields.2 ⟨ns, h, rfl⟩
  have hms : parse ts = .ok (Node.program ms) := parse_eq_ok_iff_yields.2 ⟨ms, h', rfl⟩
  exact congrArg Node.children (Except.ok.inj (hns.symm.trans hms))

/-! ## parts of trees -/

/-- The node is one of the trees or somewhere inside of them. -/
inductive Node.Within (ns : List Node) : Node → Prop
  | top {n : Node} : n ∈ ns → Within ns n
  | child {m n : Node} : Within ns m → n ∈ m.children → Within ns n

theorem Yields.exists_segment {ns : List Node} {ts : List Token} (h : Yields ns ts) {n : Node}
    (hn : Node.Within ns n) : ∃ pre seg post, ts = pre ++ seg ++ post ∧ Yields [n] seg := by
  induction hn with
  | top hmem => exact h.exists_of_mem hmem
  | child _ hmem ih =>
    obtain ⟨pre, seg, post, rfl, hm⟩ := ih
    obtain ⟨pre', seg', post', rfl, hn⟩ := hm.exists_of_child hmem
    exact ⟨pre ++ pre', seg', post' ++ post, by simp, hn⟩

end SmallScheme
