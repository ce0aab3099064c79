import SmallScheme.Proofs.Node.Flattening

/-!
The verdict of the parser on any tokens, by one pass over them that builds nothing.

* `Scan` — the open parentheses and the token before, which is all that a verdict needs;
  `Scan.step` takes one token, and `scan` all of them;
* `Tracks b s` — the builder and the scan have taken the same tokens;
* `Tracks.step`, `Tracks.takeAll`: they refuse the same tokens for the same reasons, and stay
  together otherwise;
* `parse_verdict_eq_scan`: so the descent of the parser, which gives what the builder gives, and the
  scan have the same verdict.
-/

namespace SmallScheme

/-! ## the scan -/

/-- A scan over tokens. -/
structure Scan where
  /-- The parentheses that are open, the innermost first. -/
  stack : List Token
  /-- The token before. -/
  last : Option Token

namespace Scan

def empty : Scan := ⟨[], none⟩

def lastEnd (s : Scan) : Nat := s.last.elim 0 fun t => t.span.stop

/-- Takes one token. A closing parenthesis needs an open one, and not right before it; a quote mark
is refused. -/
def step (s : Scan) (t : Token) : Except ParseError Scan :=
  if t.isClose then
    match s.stack with
    | [] => .error ⟨.freeClose, t.span⟩
    | _ :: stack =>
      match s.last.filter Token.isOpen with
      | some o => .error ⟨.emptyForm, o.span.merge t.span⟩
      | none => .ok ⟨stack, some t⟩
  else if t.kind = .quote then .error ⟨.unsupportedQuote, t.span⟩
  else .ok ⟨if t.isOpen then t :: s.stack else s.stack, some t⟩

/-- The verdict at the end: no parenthesis may be open. -/
def finish (s : Scan) : Except ParseError Unit :=
  match s.stack with
  | [] => .ok ()
  | o :: _ => .error ⟨.missingClose, ⟨o.span.start, max o.span.stop s.lastEnd⟩⟩

end Scan

/-- The verdict on some tokens: the error of the first that is refused, or the one at the end. -/
def scan (ts : List Token) : Except ParseError Unit :=
  (ts.foldlM Scan.step Scan.empty).bind Scan.finish

/-! ## the builder and the scan -/

/-- The builder and the scan have taken the same tokens. -/
structure Tracks (b : Builder) (s : Scan) : Prop where
  /-- The open forms start with the open parentheses. -/
  stack : b.stack.map OpenForm.start = s.stack.map Token.span
  last : b.lastEnd = s.lastEnd
  /-- Nothing is read of the innermost form if its parenthesis is the token before. -/
  fresh : b.fresh?.map OpenForm.start = (s.last.filter Token.isOpen).map Token.span

namespace Tracks

variable {b : Builder} {s : Scan} {t : Token}

theorem empty : Tracks Builder.empty Scan.empty := ⟨rfl, rfl, rfl⟩

/-- After a token that opens no form, something is read of the innermost one. -/
theorem of_not_open {b' : Builder} {stack : List Token} (hopen : t.isOpen = false)
    (hstack : b'.stack.map OpenForm.start = stack.map Token.span) (hlast : b'.lastEnd = t.span.stop)
    (hfresh : b'.fresh? = none) : Tracks b' ⟨stack, some t⟩ := by
  refine ⟨hstack, hlast, ?_⟩
  rw [hfresh]
  simp [Option.filter, hopen]

theorem close (h : Tracks b s) (hclose : t.isClose) :
    (∃ e, b.step t = .error e ∧ s.step t = .error e) ∨
    ∃ b' s', b.step t = .ok b' ∧ s.step t = .ok s' ∧ Tracks b' s' := by
  obtain ⟨bs, forms, e⟩ := b
  obtain ⟨ss, last⟩ := s
  have hstack := h.stack
  have hfresh := h.fresh
  simp only [Builder.step, Scan.step, if_pos hclose]
  cases bs with
  | nil =>
    obtain rfl : ss = [] := List.map_eq_nil_iff.1 hstack.symm
    exact .inl ⟨_, rfl, rfl⟩
  | cons f bs =>
    obtain ⟨o, ss, rfl, hstart, hrest⟩ := List.map_eq_cons_iff.1 hstack.symm
    rw [Builder.close_cons]
    cases hb : Builder.fresh? ⟨f :: bs, forms, e⟩ with
    | some g =>
      -- the form that is read up to its parenthesis is the innermost one
      obtain ⟨_, hg, -⟩ := Builder.fresh?_eq_some hb
      cases hg
      rw [hb] at hfresh
      obtain ⟨o', ho', hspan⟩ := Option.map_eq_some_iff.1 hfresh.symm
      refine .inl ⟨⟨.emptyForm, f.start.merge t.span⟩, rfl, ?_⟩
      simp only [ho', hspan]
    | none =>
      rw [hb] at hfresh
      have hnone : last.filter Token.isOpen = none := Option.map_eq_none_iff.1 hfresh.symm
      refine .inr ⟨_, ⟨ss, some t⟩, rfl, ?_, ?_⟩
      · simp only [hnone]
      · exact of_not_open (Token.isOpen_eq_false_of_isClose hclose) hrest.symm rfl
          (Builder.fresh?_cons _ _ _ _)

/-- **One token.** The builder and the scan refuse it for the same reason, or both take it. -/
theorem step (h : Tracks b s) (t : Token) :
    (∃ e, b.step t = .error e ∧ s.step t = .error e) ∨
    ∃ b' s', b.step t = .ok b' ∧ s.step t = .ok s' ∧ Tracks b' s' := by
  by_cases hclose : t.isClose
  · exact h.close hclose
  simp only [Builder.step, Scan.step, if_neg hclose]
  by_cases hquote : t.kind = .quote
  · simp only [if_pos hquote]
    exact .inl ⟨_, rfl, rfl⟩
  simp only [if_neg hquote]
  refine .inr ?_
  by_cases hopen : t.isOpen
  · simp only [if_pos hopen]
    refine ⟨_, _, rfl, rfl, ?_, rfl, ?_⟩
    · simp only [List.map_cons, h.stack]
      rfl
    · rw [Builder.fresh?_of_call rfl]
      simp [Option.filter, hopen, OpenForm.ofOpen]
  · simp only [if_neg hopen]
    refine ⟨_, _, rfl, rfl, ?_⟩
    have hfalse : t.isOpen = false := by simpa using hopen
    generalize hb' : b.leaf t = b'
    have htakes : Builder.Takes b t b' := hb' ▸ b.takes_leaf ⟨hfalse, by simpa using hclose, hquote⟩
    cases htakes with
    | close hc _ => exact absurd hc hclose
    | opening ho => exact absurd ho hopen
    | @keyword f stack e _ hkeyword hkind =>
      exact of_not_open hfalse h.stack rfl (Builder.fresh?_of_define rfl _ _)
    | leaf hatom hfresh => exact of_not_open hfalse h.stack rfl (Builder.fresh?_cons _ _ _ _)

theorem takeAll (ts : List Token) : ∀ {b : Builder} {s : Scan}, Tracks b s →
    (∃ e, b.takeAll ts = .error e ∧ ts.foldlM Scan.step s = .error e) ∨
    ∃ b' s', b.takeAll ts = .ok b' ∧ ts.foldlM Scan.step s = .ok s' ∧ Tracks b' s' := by
  induction ts with
  | nil => exact fun h => .inr ⟨_, _, rfl, rfl, h⟩
  | cons t ts ih =>
    intro b s h
    have hcons : (t :: ts).foldlM Scan.step s =
        (s.step t).bind fun s' => ts.foldlM Scan.step s' := rfl
    rw [Builder.takeAll_cons, hcons]
    rcases h.step t with ⟨e, hb, hs⟩ | ⟨b', s', hb, hs, h'⟩
    · rw [hb, hs]
      exact .inl ⟨e, rfl, rfl⟩
    · rw [hb, hs]
      exact ih h'

theorem finish (h : Tracks b s) : b.finish.map (fun _ => ()) = s.finish := by
  have hstack := h.stack
  rw [Builder.finish, Scan.finish]
  cases hb : b.stack with
  | nil =>
    rw [hb] at hstack
    rw [List.map_eq_nil_iff.1 hstack.symm]
    rfl
  | cons f stack =>
    rw [hb] at hstack
    obtain ⟨o, ss, hs, hstart, -⟩ := List.map_eq_cons_iff.1 hstack.symm
    rw [hs, h.last]
    simp only [Except.map, hstart, Nat.max_comm]

end Tracks

/-- **The parser and the scan agree.** On any tokens the parser succeeds exactly if the scan does,
and otherwise fails with the same error at the same place. -/
theorem parse_verdict_eq_scan (ts : List Token) : (parse ts).map (fun _ => ()) = scan ts := by
  rw [parse_eq, scan]
  rcases Tracks.empty.takeAll ts with ⟨e, hb, hs⟩ | ⟨b, s, hb, hs, h⟩
  · rw [hb, hs]
    rfl
  · rw [hb, hs]
    exact h.finish

end SmallScheme
