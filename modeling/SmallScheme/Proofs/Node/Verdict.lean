import SmallScheme.Proofs.Node.Place

/-!
The verdict of the parser, read off the tokens. The parser keeps a stack of open forms, but what it
refuses can be told from a token, the one before it and the number of open parentheses.

* `Offence pre t e` — the token `t` cannot stand after the tokens `pre`, for which the error is `e`;
* `Builder.step_eq_error_iff`: the builder refuses a token exactly if it offends;
* `Clean ts` — the tokens have no quote mark and no empty pair of parentheses;
* `parse_verdict_of_lex`: the tokens of a source are a program exactly if they are clean, since the
  lexer has counted the parentheses, and otherwise the first that offends is reported.
-/

namespace SmallScheme

/-! ## offences -/

/-- The number of parentheses that are open after some tokens. -/
def openAfter (ts : List Token) : Nat := ts.foldl (fun depth t => t.depthAfter depth) 0

/-- The token cannot stand after the tokens `pre`. -/
inductive Offence (pre : List Token) (t : Token) : ParseError → Prop
  | free : t.isClose → openAfter pre = 0 → Offence pre t ⟨.freeClose, t.span⟩
  | empty {o : Token} : t.isClose → pre.getLast? = some o → o.isOpen →
      Offence pre t ⟨.emptyForm, o.span.merge t.span⟩
  | quote : t.kind = .quote → Offence pre t ⟨.unsupportedQuote, t.span⟩

def Inoffensive (ts : List Token) : Prop :=
  ∀ pre t post, ts = pre ++ t :: post → ∀ e, ¬Offence pre t e

theorem Yields.not_isOpen_of_getLast {ns : List Node} {ts : List Token} (h : Yields ns ts) :
    ∀ t, ts.getLast? = some t → t.isOpen = false := by
  have hcons : ∀ {c : Token} {us : List Token}, c.isOpen = false →
      (∀ t, us.getLast? = some t → t.isOpen = false) →
      ∀ t, (c :: us).getLast? = some t → t.isOpen = false := by
    intro c us hc hus t ht
    cases us with
    | nil =>
      cases ht
      exact hc
    | cons u us =>
      rw [List.getLast?_cons_cons] at ht
      exact hus t ht
  induction h with
  | nil => intro t ht; cases ht
  | leaf hatom _ ih => exact hcons hatom.not_isOpen ih
  | @call o c _ _ ts us _ hclose _ _ _ _ _ ih =>
    -- what counts is the closing parenthesis and what follows it
    intro t ht
    rw [← List.cons_append, List.getLast?_append_of_ne_nil _ (List.cons_ne_nil c us)] at ht
    exact hcons (Token.isOpen_eq_false_of_isClose hclose) ih t ht
  | @define o k c _ _ ts us _ _ hclose _ _ _ ih =>
    intro t ht
    rw [← List.cons_append, ← List.cons_append,
      List.getLast?_append_of_ne_nil _ (List.cons_ne_nil c us)] at ht
    exact hcons (Token.isOpen_eq_false_of_isClose hclose) ih t ht

namespace Builder

/-- Nothing is read of the innermost form but its opening parenthesis exactly if this was the last
token, and then the form starts where the token stands. -/
theorem Holds.start_fresh? {b : Builder} {ts : List Token} (h : Holds b.stack b.forms ts) :
    b.fresh?.map OpenForm.start = (ts.getLast?.filter Token.isOpen).map Token.span := by
  have hnone : ∀ {us : List Token}, (∀ t, us.getLast? = some t → t.isOpen = false) →
      (us.getLast?.filter Token.isOpen).map Token.span = none := by
    intro us hus
    cases hlast : us.getLast? with
    | none => rfl
    | some t => simp [Option.filter, hus t hlast]
  obtain ⟨stack, forms, e⟩ := b
  cases h with
  | outermost hforms => exact (hnone hforms.not_isOpen_of_getLast).symm
  | @inner f stack _ ts hs us hstack hstart hforms hfirst =>
    cases forms with
    | cons n ns =>
      -- the last form that was read does not end with an opening parenthesis
      have hne : us ≠ [] := by
        rintro rfl
        generalize hms : (n :: ns).reverse = ms at hforms
        cases hforms
        simp at hms
      rw [fresh?_cons, List.getLast?_append_of_ne_nil _ hne, hnone hforms.not_isOpen_of_getLast]
      rfl
    | nil =>
      obtain rfl := hforms.eq_nil
      rw [List.append_nil]
      rcases hstart with ⟨hkind, rfl, hopen, hspan⟩ | ⟨hkind, o, rfl, hopen, hkeyword, hspan⟩
      · rw [fresh?_of_call hkind, List.getLast?_concat]
        simp [Option.filter, hopen, hspan]
      · have hlast : (ts ++ [o, f.token]).getLast? = some f.token := by simp
        have hatom := Token.isAtom_of_isIdentifier hkeyword
        rw [fresh?_of_define hkind, hlast]
        simp [Option.filter, hatom.not_isOpen]

/-- **A token is refused exactly if it offends.** -/
theorem step_eq_error_iff {pre : List Token} {b : Builder} {t : Token} {e : ParseError}
    (hb : empty.takeAll pre = .ok b) : b.step t = .error e ↔ Offence pre t e := by
  have hholds := holds_takeAll pre hb (.outermost .nil)
  rw [List.nil_append] at hholds
  have hfresh := hholds.start_fresh?
  have hdepth : b.stack.length = openAfter pre := length_stack_takeAll pre hb
  constructor
  · intro h
    unfold step at h
    split at h
    · next hclose =>
      obtain ⟨stack, forms, last⟩ := b
      cases stack with
      | nil =>
        cases h
        exact .free hclose hdepth.symm
      | cons f stack =>
        rw [close_cons] at h
        split at h
        · next hsome =>
          obtain ⟨g, hg⟩ := Option.isSome_iff_exists.1 hsome
          obtain ⟨stack', hb', -⟩ := fresh?_eq_some hg
          cases hb'
          rw [hg] at hfresh
          obtain ⟨o, ho, hspan⟩ := Option.map_eq_some_iff.1 hfresh.symm
          obtain ⟨hlast, hopen⟩ := Option.filter_eq_some_iff.1 ho
          cases h
          rw [← hspan]
          exact .empty hclose hlast hopen
        · cases h
    · split at h
      · next hquote =>
        cases h
        exact .quote hquote
      · split at h <;> cases h
  · intro h
    cases h with
    | free hclose hzero =>
      have hstack : b.stack = [] := List.eq_nil_of_length_eq_zero (hdepth.trans hzero)
      rw [step, if_pos hclose, close, hstack]
    | @empty o hclose hlast hopen =>
      have hfilter : pre.getLast?.filter Token.isOpen = some o :=
        Option.filter_eq_some_iff.2 ⟨hlast, hopen⟩
      rw [hfilter] at hfresh
      obtain ⟨f, hf, hstart⟩ := Option.map_eq_some_iff.1 hfresh
      obtain ⟨stack, hb', hkind⟩ := fresh?_eq_some hf
      rw [step, if_pos hclose, hb', close_cons, fresh?_of_call hkind,
        Option.isSome_some, if_pos rfl, hstart]
    | quote hquote =>
      have hclose : t.isClose = false := by simp [Token.isClose, hquote]
      rw [step, if_neg (by simp [hclose]), if_pos hquote]

theorem exists_takeAll_of_append {us vs : List Token} {b c : Builder}
    (h : b.takeAll (us ++ vs) = .ok c) : ∃ d, b.takeAll us = .ok d ∧ d.takeAll vs = .ok c := by
  rw [takeAll_append] at h
  cases hus : b.takeAll us with
  | error e => rw [hus] at h; cases h
  | ok d => rw [hus] at h; exact ⟨d, rfl, h⟩

theorem inoffensive_of_takeAll {ts : List Token} {b : Builder} (h : empty.takeAll ts = .ok b) :
    Inoffensive ts := by
  rintro pre t post rfl e hoffence
  obtain ⟨c, hpre, hrest⟩ := exists_takeAll_of_append h
  obtain ⟨d, hstep, -⟩ := takeAll_cons_eq_ok hrest
  rw [(step_eq_error_iff hpre).2 hoffence] at hstep
  cases hstep

theorem exists_offence_of_takeAll {ts : List Token} {e : ParseError}
    (h : empty.takeAll ts = .error e) :
    ∃ pre t post, ts = pre ++ t :: post ∧ Inoffensive pre ∧ Offence pre t e := by
  obtain ⟨pre, t, post, c, rfl, hpre, hstep⟩ := exists_of_takeAll_error h
  exact ⟨pre, t, post, rfl, inoffensive_of_takeAll hpre, (step_eq_error_iff hpre).1 hstep⟩

end Builder

/-! ## tokens of a source -/

/-- The tokens have no quote mark and no pair of parentheses with nothing in it. -/
structure Clean (ts : List Token) : Prop where
  quote : ∀ t ∈ ts, t.kind ≠ .quote
  empty : ∀ pre o c post, ts = pre ++ o :: c :: post → o.isOpen → ¬c.isClose

theorem Inoffensive.clean {ts : List Token} (h : Inoffensive ts) : Clean ts := by
  constructor
  · intro t ht hquote
    obtain ⟨pre, post, rfl⟩ := List.append_of_mem ht
    exact h pre t post rfl _ (.quote hquote)
  · rintro pre o c post rfl hopen hclose
    have hlast : (pre ++ [o]).getLast? = some o := List.getLast?_concat
    exact h (pre ++ [o]) c post (by simp) _ (.empty hclose hlast hopen)

theorem Clean.not_offence {pre post : List Token} {t : Token} {e : ParseError}
    (h : Clean (pre ++ t :: post)) (he : Offence pre t e) : e.kind = .freeClose := by
  cases he with
  | free => rfl
  | @empty o hclose hlast hopen =>
    obtain ⟨init, rfl⟩ := List.getLast?_eq_some_iff.1 hlast
    exact absurd hclose (h.empty init o t post (by simp) hopen)
  | quote hquote => exact absurd hquote (h.quote t (by simp))

theorem Closes.of_append {us vs : List Token} : ∀ {depth : Nat}, Closes depth (us ++ vs) →
    Closes (us.foldl (fun depth t => t.depthAfter depth) depth) vs := by
  induction us with
  | nil => exact fun h => h
  | cons t us ih => exact fun h => ih h.tail

/-- The lexer lets no closing parenthesis through without an opening one. -/
theorem Offence.kind_ne_free {src : String} {pre post : List Token} {t : Token} {e : ParseError}
    (h : Offence pre t e) (hlex : lex src = .ok (pre ++ t :: post)) : e.kind ≠ .freeClose := by
  cases h with
  | free hclose hzero =>
    have hcloses : Closes (openAfter pre) (t :: post) := (balanced_of_lex hlex).of_append
    exact absurd hzero (hcloses.depth_ne_zero hclose)
  | empty | quote => simp

theorem mem_gapsBefore {o c : Token} {post : List Token} (pre : List Token) : ∀ n,
    ⟨o.span.stop, c.span.start⟩ ∈ gapsBefore n (pre ++ o :: c :: post) := by
  induction pre with
  | nil => intro n; simp [gapsBefore]
  | cons t pre ih => intro n; exact List.mem_cons_of_mem _ (ih t.span.stop)

/-- The part of the source from one token to the next. -/
theorem slice?_pair_of_lex {src : String} {pre post : List Token} {o c : Token}
    (h : lex src = .ok (pre ++ o :: c :: post)) :
    ∃ gap, slice? src (o.span.merge c.span) = some (o.literal ++ gap ++ c.literal) ∧
      Filler false gap.toList := by
  have hspells := spells_of_lex h
  have hsrc : src.toList = [] ++ src.toList := rfl
  obtain ⟨gap, hgap, hfiller⟩ := hspells.slice?_gap hsrc rfl _ (mem_gapsBefore pre 0)
  have hmerge : o.span.merge c.span = ⟨o.span.start, c.span.stop⟩ := by
    have hordered := (List.pairwise_append.1 hspells.pairwise).2.1
    have hbetween := ((List.pairwise_cons.1 hordered).1 c (by simp)).2
    have ho := (hspells.start_bounds o (by simp)).2
    have hc := (hspells.start_bounds c (by simp)).2
    simp only [Span.merge, Span.mk.injEq]
    omega
  refine ⟨gap, ?_, hfiller⟩
  rw [hmerge]
  exact slice?_append (slice?_append (slice?_of_lex h o (by simp)) hgap)
    (slice?_of_lex h c (by simp))

/-- The place of an offence in the source. -/
theorem Offence.slice {src : String} {pre post : List Token} {t : Token} {e : ParseError}
    (h : Offence pre t e) (hlex : lex src = .ok (pre ++ t :: post)) :
    (e = ⟨.unsupportedQuote, t.span⟩ ∧ t.kind = .quote ∧ slice? src e.span = some "'") ∨
    (∃ o, e = ⟨.emptyForm, o.span.merge t.span⟩ ∧ pre.getLast? = some o ∧ o.isOpen ∧ t.isClose ∧
      ∃ gap, slice? src e.span = some ("(" ++ gap ++ ")") ∧ Filler false gap.toList) := by
  have hfree := h.kind_ne_free hlex
  cases h with
  | free => exact absurd rfl hfree
  | @empty o hclose hlast hopen =>
    obtain ⟨init, rfl⟩ := List.getLast?_eq_some_iff.1 hlast
    rw [List.append_assoc] at hlex
    obtain ⟨gap, hslice, hfiller⟩ := slice?_pair_of_lex hlex
    obtain ⟨hkind, htext⟩ := Token.isOpen_iff.1 hopen
    obtain ⟨hkind', htext'⟩ := Token.isClose_iff.1 hclose
    have ho : o.literal = "(" := by simp [Token.literal, hkind, htext]
    have ht : t.literal = ")" := by simp [Token.literal, hkind', htext']
    rw [ho, ht] at hslice
    exact .inr ⟨o, rfl, hlast, hopen, hclose, gap, hslice, hfiller⟩
  | quote hquote =>
    have hshape := (spells_of_lex hlex).shape t (by simp)
    have hslice := slice?_of_lex hlex t (by simp)
    have htext : t.text = "'" := by
      rw [hquote] at hshape
      exact String.toList_injective hshape
    have ht : t.literal = "'" := by simp [Token.literal, hquote, htext]
    rw [ht] at hslice
    exact .inl ⟨rfl, hquote, hslice⟩

/-- **The parser agrees with the lexer.** The tokens of a source are a program exactly if they have
no quote mark and no empty pair of parentheses. Otherwise the error is the first of these that
offends, an empty pair at its closing parenthesis, and its place in the source is the quote mark, or
the pair with nothing but blanks and comments in it. So parentheses are never at fault. -/
theorem parse_verdict_of_lex {src : String} {ts : List Token} (h : lex src = .ok ts) :
    ((∃ root, parse ts = .ok root) ↔ Clean ts) ∧
    ∀ e, parse ts = .error e → e.kind ≠ .freeClose ∧ e.kind ≠ .missingClose ∧
      ∃ pre t post, ts = pre ++ t :: post ∧ Clean pre ∧
        ((e = ⟨.unsupportedQuote, t.span⟩ ∧ t.kind = .quote ∧ slice? src e.span = some "'") ∨
        (∃ o, e = ⟨.emptyForm, o.span.merge t.span⟩ ∧ pre.getLast? = some o ∧ o.isOpen ∧
          t.isClose ∧ ∃ gap, slice? src e.span = some ("(" ++ gap ++ ")") ∧
            Filler false gap.toList)) := by
  rw [parse_eq]
  cases htake : Builder.empty.takeAll ts with
  | ok b =>
    have hlen := Builder.length_stack_takeAll ts htake
    have hstack : b.stack = [] := List.eq_nil_of_length_eq_zero (hlen.trans (depth_of_lex h))
    have hfinish : (Except.ok b).bind Builder.finish = .ok (Node.program b.forms.reverse) := by
      rw [Except.bind, Builder.finish, hstack]
    rw [hfinish]
    refine ⟨⟨fun _ => (Builder.inoffensive_of_takeAll htake).clean, fun _ => ⟨_, rfl⟩⟩, ?_⟩
    rintro e ⟨⟩
  | error e =>
    obtain ⟨pre, t, post, rfl, hpre, hoffence⟩ := Builder.exists_offence_of_takeAll htake
    have hfree := hoffence.kind_ne_free h
    refine ⟨⟨?_, fun hclean => absurd (hclean.not_offence hoffence) hfree⟩, ?_⟩
    · rintro ⟨root, hroot⟩
      cases hroot
    · rintro _ ⟨⟩
      have hslice := hoffence.slice h
      refine ⟨hfree, ?_, pre, t, post, rfl, hpre.clean, hslice⟩
      rcases hslice with ⟨rfl, -⟩ | ⟨o, rfl, -⟩
      · simp
      · simp

/-- An empty pair, with a comment in it, before a quote mark. -/
theorem parse_verdict_of_lex_comment :
    ∃ ts, lex "(é (;)\n) 'x)" = .ok ts ∧ parse ts = .error ⟨.emptyForm, ⟨4, 9⟩⟩ ∧ ¬Clean ts ∧
      ∃ gap, slice? "(é (;)\n) 'x)" ⟨4, 9⟩ = some ("(" ++ gap ++ ")") ∧
        Filler false gap.toList := by
  have hlex : lex "(é (;)\n) 'x)" = .ok
      [⟨"(", .paren, ⟨1, 0⟩, ⟨0, 1⟩⟩, ⟨"é", .identifier, ⟨1, 1⟩, ⟨1, 3⟩⟩,
        ⟨"(", .paren, ⟨1, 3⟩, ⟨4, 5⟩⟩, ⟨")", .paren, ⟨2, 0⟩, ⟨8, 9⟩⟩,
        ⟨"'", .quote, ⟨2, 2⟩, ⟨10, 11⟩⟩, ⟨"x", .identifier, ⟨2, 3⟩, ⟨11, 12⟩⟩,
        ⟨")", .paren, ⟨2, 4⟩, ⟨12, 13⟩⟩] :=
    lex_eq_of_within 9 rfl
  obtain ⟨hiff, herror⟩ := parse_verdict_of_lex hlex
  refine ⟨_, hlex, parse_eq_of_run rfl, ?_, ?_⟩
  · intro hclean
    obtain ⟨root, hroot⟩ := hiff.2 hclean
    rw [parse_eq_of_run rfl] at hroot
    cases hroot
  · obtain ⟨-, -, pre, t, post, -, -, ⟨he, -⟩ | ⟨o, -, -, -, -, hgap⟩⟩ :=
      herror ⟨.emptyForm, ⟨4, 9⟩⟩ (parse_eq_of_run rfl)
    · cases he
    · exact hgap

end SmallScheme
