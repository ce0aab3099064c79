import SmallScheme.Proofs.Node.Descent
import SmallScheme.Proofs.Place.Erasure
import SmallScheme.Proofs.Token.Reader

/-!
The parser as a fold over tokens, and what follows for parts of a token stream.

* `parse_eq`: the program is what the steps of the builder leave, finished;
* `length_stack_step`: the builder has as many open forms as the lexer counts parentheses;
* `parse_erase`: the parser does not look at places;
* `parse_append`: a stream that parses, cut where no form is open, gives two streams that parse,
  and the forms of the whole are those of the two parts up to places.
-/

namespace SmallScheme

namespace Builder

/-- Takes all tokens, up to the first that is refused. -/
def takeAll (b : Builder) (ts : List Token) : Except ParseError Builder := ts.foldlM step b

theorem takeAll_cons (b : Builder) (t : Token) (ts : List Token) :
    b.takeAll (t :: ts) = (b.step t).bind fun b' => b'.takeAll ts := rfl

theorem takeAll_cons_eq_ok {b b' : Builder} {t : Token} {ts : List Token}
    (h : b.takeAll (t :: ts) = .ok b') : ∃ c, b.step t = .ok c ∧ c.takeAll ts = .ok b' := by
  rw [takeAll_cons] at h
  cases hstep : b.step t with
  | error e => rw [hstep] at h; cases h
  | ok c => rw [hstep] at h; exact ⟨c, rfl, h⟩

theorem takeAll_append (b : Builder) (ts us : List Token) :
    b.takeAll (ts ++ us) = (b.takeAll ts).bind fun b' => b'.takeAll us :=
  List.foldlM_append

theorem run_fst (ts : List Token) : ∀ b : Builder, (b.run ts).1 = (b.takeAll ts).bind finish := by
  induction ts with
  | nil => intro b; rfl
  | cons t ts ih =>
    intro b
    rw [run, takeAll_cons]
    cases b.step t with
    | ok b' => exact ih b'
    | error e => rfl

end Builder

theorem parse_eq (ts : List Token) : parse ts = (Builder.empty.takeAll ts).bind Builder.finish :=
  parse_eq_of_run (Builder.run_fst ts Builder.empty)

theorem parse_eq_ok_iff {ts : List Token} {root : Node} :
    parse ts = .ok root ↔ ∃ b, Builder.empty.takeAll ts = .ok b ∧ b.stack = [] ∧
      root = Node.program b.forms.reverse := by
  rw [parse_eq]
  cases Builder.empty.takeAll ts with
  | error e => simp [Except.bind]
  | ok b =>
    simp only [Except.bind, Except.ok.injEq, exists_eq_left']
    unfold Builder.finish
    cases b.stack with
    | nil => simp [eq_comm]
    | cons f stack => simp

/-! ## open forms -/

namespace Builder

theorem length_stack_step {b b' : Builder} {t : Token} (h : b.step t = .ok b') :
    b'.stack.length = t.depthAfter b.stack.length := by
  unfold Token.depthAfter
  unfold step at h
  split at h
  · next hclose =>
    -- a closing parenthesis is no opening one, and needs an open form
    have hopen := Token.isOpen_eq_false_of_isClose hclose
    unfold close at h
    split at h
    · cases h
    · next hstack =>
      split at h
      · cases h
      · cases h
        simp [hstack, hopen, hclose]
  · next hclose =>
    split at h
    · cases h
    · split at h
      · next hopen => cases h; simp [hopen]
      · next hopen =>
        cases h
        simp only [hopen, hclose, Bool.false_eq_true, if_false]
        unfold leaf fresh?
        cases hs : b.stack with
        | nil => simp
        | cons f stack =>
          repeat' split
          all_goals simp_all

theorem length_stack_takeAll (ts : List Token) : ∀ {b b' : Builder}, b.takeAll ts = .ok b' →
    b'.stack.length = ts.foldl (fun depth t => t.depthAfter depth) b.stack.length := by
  induction ts with
  | nil => rintro b b' ⟨⟩; rfl
  | cons t ts ih =>
    intro b b' h
    obtain ⟨c, hstep, hrest⟩ := takeAll_cons_eq_ok h
    rw [ih hrest, List.foldl_cons, length_stack_step hstep]

end Builder

/-! ## places -/

def ParseError.erase (e : ParseError) : ParseError := ⟨e.kind, ⟨0, 0⟩⟩

def OpenForm.erase (f : OpenForm) : OpenForm :=
  ⟨f.kind, f.token.erase, ⟨0, 0⟩, f.before.map Node.erase⟩

namespace Builder

def erase (b : Builder) : Builder := ⟨b.stack.map OpenForm.erase, b.forms.map Node.erase, 0⟩

theorem fresh?_erase (b : Builder) : b.erase.fresh? = b.fresh?.map OpenForm.erase := by
  obtain ⟨stack, forms, lastEnd⟩ := b
  cases stack with
  | nil => rfl
  | cons f stack =>
    cases forms with
    | nil => by_cases h : f.kind = .call <;> simp [fresh?, erase, OpenForm.erase, h]
    | cons n ns => rfl

theorem close_erase (b : Builder) (t : Token) :
    b.erase.close t.erase = ((b.close t).map erase).mapError ParseError.erase := by
  have hfresh := b.fresh?_erase
  obtain ⟨stack, forms, lastEnd⟩ := b
  cases stack with
  | nil => rfl
  | cons f stack =>
    simp only [close, hfresh, Option.isSome_map]
    simp only [erase, List.map_cons]
    split
    · rfl
    · simp [Except.map, erase, OpenForm.erase, OpenForm.close, Node.erase_mk,
        Token.erase, Span.merge]

theorem leaf_erase (b : Builder) (t : Token) : b.erase.leaf t.erase = (b.leaf t).erase := by
  unfold leaf
  rw [fresh?_erase]
  cases b.fresh? with
  | none => simp [erase, Node.erase_leaf, Token.erase]
  | some f =>
    simp only [Option.map_some, Token.isIdentifier_erase]
    by_cases h : t.isIdentifier "define"
    · simp [h, erase, OpenForm.toDefine, OpenForm.erase, Token.erase]
    · simp [h, erase, Node.erase_leaf, Token.erase]

theorem step_erase (b : Builder) (t : Token) :
    b.erase.step t.erase = ((b.step t).map erase).mapError ParseError.erase := by
  have hkind : t.erase.kind = t.kind := rfl
  rw [step, step, Token.isClose_erase, Token.isOpen_erase, hkind]
  by_cases hclose : t.isClose
  · rw [if_pos hclose, if_pos hclose, close_erase]
  rw [if_neg hclose, if_neg hclose]
  by_cases hquote : t.kind = .quote
  · rw [if_pos hquote, if_pos hquote]
    rfl
  rw [if_neg hquote, if_neg hquote]
  by_cases hopen : t.isOpen
  · rw [if_pos hopen, if_pos hopen]
    rfl
  · rw [if_neg hopen, if_neg hopen, leaf_erase]
    rfl

theorem takeAll_erase (ts : List Token) : ∀ b : Builder,
    b.erase.takeAll (ts.map Token.erase) =
      ((b.takeAll ts).map erase).mapError ParseError.erase := by
  induction ts with
  | nil => intro b; rfl
  | cons t ts ih =>
    intro b
    rw [List.map_cons, takeAll_cons, takeAll_cons, step_erase]
    cases b.step t with
    | error e => rfl
    | ok c => exact ih c

theorem takeAll_of_erase {b d : Builder} {ts : List Token}
    (h : b.erase.takeAll (ts.map Token.erase) = .ok d) :
    ∃ c, b.takeAll ts = .ok c ∧ c.erase = d := by
  rw [takeAll_erase] at h
  cases hc : b.takeAll ts with
  | error e => rw [hc] at h; cases h
  | ok c => rw [hc] at h; exact ⟨c, rfl, Except.ok.inj h⟩

theorem finish_erase (b : Builder) :
    b.erase.finish = (b.finish.map Node.erase).mapError ParseError.erase := by
  obtain ⟨stack, forms, lastEnd⟩ := b
  cases stack with
  | nil =>
    simp only [finish, erase, List.map_nil, ← List.map_reverse, Except.map, mapError_ok]
    rw [Node.erase_program]
  | cons f stack =>
    simp [finish, erase, OpenForm.erase, Except.map, ParseError.erase]

end Builder

/-- **The parser does not look at places.** -/
theorem parse_erase (ts : List Token) :
    parse (ts.map Token.erase) = ((parse ts).map Node.erase).mapError ParseError.erase := by
  have h := Builder.takeAll_erase ts Builder.empty
  rw [show Builder.empty.erase = Builder.empty from rfl] at h
  rw [parse_eq, parse_eq, h]
  cases Builder.empty.takeAll ts with
  | error e => rfl
  | ok b => exact b.finish_erase

/-! ## forms before those that are built -/

namespace Builder

/-- The open form, with more forms before it if it is the outermost one. -/
def formAfter (done : List Node) (outermost : Bool) (f : OpenForm) : OpenForm :=
  { f with before := f.before ++ if outermost then done else [] }

def stackAfter (done : List Node) : List OpenForm → List OpenForm
  | [] => []
  | f :: stack => formAfter done stack.isEmpty f :: stackAfter done stack

/-- The builder, with more forms before all that it has; the last one stands first. -/
def after (done : List Node) (b : Builder) : Builder :=
  ⟨stackAfter done b.stack, b.forms ++ if b.stack.isEmpty then done else [], b.lastEnd⟩

variable (done : List Node)

theorem fresh?_after (b : Builder) :
    (b.after done).fresh? = b.fresh?.map (formAfter done b.stack.tail.isEmpty) := by
  obtain ⟨stack, forms, lastEnd⟩ := b
  rcases stack with _ | ⟨f, stack⟩
  · rfl
  · cases forms with
    | nil => by_cases h : f.kind = .call <;> simp [fresh?, after, stackAfter, formAfter, h]
    | cons n ns => rfl

theorem close_after (b : Builder) (t : Token) :
    (b.after done).close t = (b.close t).map (after done) := by
  have hfresh := b.fresh?_after done
  obtain ⟨stack, forms, lastEnd⟩ := b
  rcases stack with _ | ⟨f, stack⟩
  · rfl
  · simp only [after, stackAfter, List.isEmpty_cons, Bool.false_eq_true, if_false,
      List.append_nil] at hfresh ⊢
    simp only [close, hfresh, Option.isSome_map]
    split <;> rfl

theorem leaf_after (b : Builder) (t : Token) : (b.after done).leaf t = (b.leaf t).after done := by
  rw [leaf, leaf, fresh?_after]
  obtain ⟨stack, forms, lastEnd⟩ := b
  rcases stack with _ | ⟨f, stack⟩
  · rfl
  · cases hf : fresh? ⟨f :: stack, forms, lastEnd⟩ with
    | none => rfl
    | some g =>
      by_cases h : t.isIdentifier "define"
      · simp [h, after, stackAfter, formAfter, OpenForm.toDefine]
      · simp [h, after, stackAfter]

theorem step_after (b : Builder) (t : Token) :
    (b.after done).step t = (b.step t).map (after done) := by
  rw [step, step]
  by_cases hclose : t.isClose
  · rw [if_pos hclose, if_pos hclose, close_after]
  rw [if_neg hclose, if_neg hclose]
  by_cases hquote : t.kind = .quote
  · rw [if_pos hquote, if_pos hquote]
    rfl
  rw [if_neg hquote, if_neg hquote]
  by_cases hopen : t.isOpen
  · rw [if_pos hopen, if_pos hopen]
    simp [Except.map, after, stackAfter, formAfter, OpenForm.ofOpen]
  · rw [if_neg hopen, if_neg hopen, leaf_after]
    rfl

theorem takeAll_after (ts : List Token) : ∀ b : Builder,
    (b.after done).takeAll ts = (b.takeAll ts).map (after done) := by
  induction ts with
  | nil => intro b; rfl
  | cons t ts ih =>
    intro b
    rw [takeAll_cons, takeAll_cons, step_after]
    cases b.step t with
    | error e => rfl
    | ok c => exact ih c

end Builder

/-- **Parsing in two parts.** -/
theorem parse_append {ts us : List Token} {root : Node} (h : parse (ts ++ us) = .ok root)
    (hdepth : ts.foldl (fun depth t => t.depthAfter depth) 0 = 0) :
    ∃ first second, parse ts = .ok first ∧ parse us = .ok second ∧
      root.erase.children = first.erase.children ++ second.erase.children := by
  obtain ⟨b, hb, hstack, rfl⟩ := parse_eq_ok_iff.1 h
  rw [Builder.takeAll_append] at hb
  cases hfirst : Builder.empty.takeAll ts with
  | error e => rw [hfirst] at hb; cases hb
  | ok c =>
    replace hb : c.takeAll us = .ok b := by rw [hfirst] at hb; exact hb
    have hnil : c.stack = [] := by
      have hlen := Builder.length_stack_takeAll ts hfirst
      exact List.eq_nil_of_length_eq_zero (hlen.trans hdepth)
    -- between the two parts no form is open: without places, the builder is an empty one that
    -- comes after the forms of the first part
    have hafter : c.erase = Builder.empty.after (c.forms.map Node.erase) := by
      simp [Builder.erase, Builder.after, Builder.empty, Builder.stackAfter, hnil]
    have hsecond := Builder.takeAll_erase us c
    rw [hb, hafter, Builder.takeAll_after] at hsecond
    cases hd : Builder.empty.takeAll (us.map Token.erase) with
    | error e => rw [hd] at hsecond; cases hsecond
    | ok d =>
      rw [hd] at hsecond
      have hbd : d.after (c.forms.map Node.erase) = b.erase := Except.ok.inj hsecond
      obtain ⟨e, he, rfl⟩ := Builder.takeAll_of_erase (b := Builder.empty) hd
      have hestack : e.stack = [] := by
        have hlen := congrArg (fun b => b.stack.length) hbd
        cases hes : e.stack with
        | nil => rfl
        | cons f stack =>
          simp [Builder.after, Builder.erase, Builder.stackAfter, hes, hstack] at hlen
      have hforms := congrArg Builder.forms hbd
      simp only [Builder.after, Builder.erase, hestack, List.map_nil, List.isEmpty_nil,
        if_true] at hforms
      refine ⟨_, _, parse_eq_ok_iff.2 ⟨c, hfirst, hnil, rfl⟩,
        parse_eq_ok_iff.2 ⟨e, he, hestack, rfl⟩, ?_⟩
      simp only [Node.children_erase, Node.program, List.map_reverse]
      rw [← hforms, List.reverse_append]

end SmallScheme
