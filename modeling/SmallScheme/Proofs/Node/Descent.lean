import SmallScheme.Proofs.Node.Builder

/-!
The descent of the parser and the stack of the builder. The parser reads a form by calling itself,
and finds its errors at all depths of these calls; the builder keeps the same forms on its stack.

* `Parsed.andThen` — what becomes of a part of a parse if the builder goes on after it;
* `Parser.forms_stop`: where the forms of a level end;
* `Parser.run_form`, `Parser.runsForms`: where the descent reads a form or the forms of a level, the
  builder goes through the same tokens to the same end, by induction on the tokens that are left;
* `Parser.program_eq_run`: so both give the same program or the same error, and leave the same
  tokens.
-/

namespace SmallScheme

namespace Parsed

variable {m n : Nat} {α β : Type}

section Bind

variable {r : Parsed m α} (h : m ≤ n) (f : α → (p : Parser) → p.left.length ≤ m → Parsed n β)

theorem bind_of_ok {a : α} (hr : r.result = .ok a) : r.bind h f = f a r.parser r.length_le := by
  rw [bind]
  split
  · next heq => cases hr.symm.trans heq
  · next heq => cases hr.symm.trans heq; rfl

theorem bind_of_error {e : ParseError} (hr : r.result = .error e) :
    r.bind h f = ⟨.error e, r.parser, Nat.le_trans r.length_le h⟩ := by
  rw [bind]
  split
  · next heq => cases hr.symm.trans heq; rfl
  · next heq => cases hr.symm.trans heq

end Bind

/-- What follows a part of a parse: its error with the tokens that are left, or what `k` makes of
its result. -/
def andThen (r : Parsed n α) (k : α → Parser → Except ParseError Node × List Token) :
    Except ParseError Node × List Token :=
  match r.result with
  | .error e => (.error e, r.parser.left)
  | .ok a => k a r.parser

end Parsed

namespace Parser

variable {p : Parser} {n : Nat} {t : Token} {before : List Node}

theorem lastEnd_start (lastEnd : Nat) (ts : List Token) : (start lastEnd ts).lastEnd = lastEnd := by
  cases ts <;> rfl

theorem lastEnd_advance (h : p.current = some t) : p.advance.lastEnd = t.span.stop := by
  rw [advance, lastEnd_start, h]
  rfl

theorem lastEnd_advance_of_end (h : p.current = none) : p.advance.lastEnd = p.lastEnd := by
  rw [advance, lastEnd_start, h]
  rfl

/-! ### one level -/

section Level

variable (h : p.left.length ≤ n)

theorem forms_of_end (hcurrent : p.current = none) : p.forms h before = ⟨.ok before, p, h⟩ := by
  rw [forms]
  split
  · rfl
  · next hsome => simp [hcurrent] at hsome

theorem forms_of_current (hcurrent : p.current = some t) :
    p.forms h before =
      if t.isClose then ⟨.ok before, p, h⟩
      else if t.kind = .quote then ⟨.error ⟨.unsupportedQuote, t.span⟩, p, h⟩
      else if t.isOpen then
        (p.advance.form (Nat.le_refl _) t).bind (Nat.le_trans p.length_advance_le h)
          fun node q hq => q.forms (Nat.le_trans hq (Nat.le_trans p.length_advance_le h))
            (node :: before)
      else p.advance.forms (Nat.le_trans p.length_advance_le h) (Node.leaf t :: before) := by
  rw [forms]
  split
  · next hnone => simp [hcurrent] at hnone
  · next hsome =>
    cases hcurrent.symm.trans hsome
    rfl

theorem form_of_end {opening : Token} (hcurrent : p.current = none) :
    p.form h opening = ⟨.error ⟨.missingClose, opening.span⟩, p, h⟩ := by
  rw [form]
  split
  · rfl
  · next hsome => simp [hcurrent] at hsome

theorem form_of_current {opening head : Token} (hcurrent : p.current = some head) :
    p.form h opening =
      if head.isIdentifier "define" then
        (p.advance.forms (Nat.le_refl _) []).bind (Nat.le_trans p.length_advance_le h)
          fun children q hq => q.close (Nat.le_trans hq (Nat.le_trans p.length_advance_le h))
            .define head opening children
      else if head.isClose then ⟨.error ⟨.emptyForm, opening.span.merge head.span⟩, p, h⟩
      else (p.forms (Nat.le_refl _) []).bind h
        fun children q hq => q.close (Nat.le_trans hq h) .call opening opening children := by
  rw [form]
  split
  · next hnone => simp [hcurrent] at hnone
  · next hsome =>
    cases hcurrent.symm.trans hsome
    rfl

end Level

/-- The descent ends a level at a closing parenthesis or at the end, and has read something if it
was not there before. -/
theorem forms_stop (m : Nat) : ∀ {p : Parser} {n : Nat} (h : p.left.length ≤ n)
    {before fs : List Node}, p.left.length ≤ m → (p.forms h before).result = .ok fs →
      (∀ t, (p.forms h before).parser.current = some t → t.isClose) ∧
      before.length ≤ fs.length ∧
      ∀ t, p.current = some t → t.isClose = false → before.length < fs.length := by
  induction m using Nat.strongRecOn with
  | _ m ih =>
    intro p n h before fs hm hok
    cases hcurrent : p.current with
    | none =>
      rw [forms_of_end h hcurrent] at hok ⊢
      cases hok
      simp [hcurrent]
    | some t =>
      have hlt := length_advance_lt hcurrent
      rw [forms_of_current h hcurrent] at hok ⊢
      by_cases hclose : t.isClose
      · rw [if_pos hclose] at hok ⊢
        cases hok
        simp [hcurrent, hclose]
      rw [if_neg hclose] at hok ⊢
      by_cases hquote : t.kind = .quote
      · rw [if_pos hquote] at hok
        cases hok
      rw [if_neg hquote] at hok ⊢
      by_cases hopen : t.isOpen
      · rw [if_pos hopen] at hok ⊢
        cases hform : (p.advance.form (Nat.le_refl _) t).result with
        | error e =>
          rw [Parsed.bind_of_error _ _ hform] at hok
          cases hok
        | ok node =>
          have hle := (p.advance.form (Nat.le_refl _) t).length_le
          rw [Parsed.bind_of_ok _ _ hform] at hok ⊢
          obtain ⟨hstop, hlength, -⟩ := ih (m - 1) (by omega) _ (by omega) hok
          rw [List.length_cons] at hlength
          exact ⟨hstop, by omega, fun _ _ _ => by omega⟩
      · rw [if_neg hopen] at hok ⊢
        obtain ⟨hstop, hlength, -⟩ := ih (m - 1) (by omega) _ (by omega) hok
        rw [List.length_cons] at hlength
        exact ⟨hstop, by omega, fun _ _ _ => by omega⟩

/-! ### the same tokens -/

section Run

variable {b b' : Builder}

theorem run_of_takes (hcurrent : p.current = some t) (h : Builder.Takes b t b') :
    b.run p.left = b'.run p.advance.left := by
  rw [left_of_current hcurrent, Builder.run, Builder.step_of_takes h]

theorem run_of_error {e : ParseError} (hcurrent : p.current = some t) (h : b.step t = .error e) :
    b.run p.left = (.error e, p.left) := by
  rw [left_of_current hcurrent, Builder.run, h]

end Run

/-- The end of a form. -/
theorem run_close {f : OpenForm} {opening : Token} {children : List Node}
    (hstart : f.start = opening.span) (h : p.left.length ≤ n) (stack : List OpenForm)
    (hstop : ∀ t, p.current = some t → t.isClose)
    (hchildren : f.kind = .call → children ≠ []) :
    Builder.run ⟨f :: stack, children, p.lastEnd⟩ p.left =
      (p.close h f.kind f.token opening children).andThen fun node q =>
        Builder.run ⟨stack, node :: f.before, q.lastEnd⟩ q.left := by
  unfold close
  cases hcurrent : p.current with
  | none =>
    have hleft : p.advance.left = [] := by
      rw [advance, left_start, p.tokens_eq_nil hcurrent]
    rw [left_of_end hcurrent]
    simp only [Option.filter, Parsed.andThen, lastEnd_advance_of_end hcurrent, hleft, ← hstart]
    rfl
  | some t =>
    have hclose := hstop t hcurrent
    rw [run_of_takes hcurrent (.close hclose hchildren)]
    simp only [Option.filter, hclose, if_true, Parsed.andThen, lastEnd_advance hcurrent,
      OpenForm.close, hstart]

/-- The builder takes the forms of a level as the descent does. If nothing is read of the innermost
form but its parenthesis, then it must go on with a form, for the descent looks for its end and its
keyword before. -/
def RunsForms (p : Parser) : Prop :=
  ∀ (n : Nat) (h : p.left.length ≤ n) (stack : List OpenForm) (before : List Node),
    ((Builder.fresh? ⟨stack, before, p.lastEnd⟩).isSome →
      ∃ t, p.current = some t ∧ t.isClose = false ∧ t.isIdentifier "define" = false) →
    Builder.run ⟨stack, before, p.lastEnd⟩ p.left =
      (p.forms h before).andThen fun fs q => Builder.run ⟨stack, fs, q.lastEnd⟩ q.left

/-- The body of a form and its end. -/
theorem RunsForms.close (hforms : p.RunsForms) {f : OpenForm} {opening : Token}
    (hstart : f.start = opening.span) {m : Nat} (h : p.left.length ≤ m) (hm : m ≤ n)
    (stack : List OpenForm)
    (hhead : f.kind = .call →
      ∃ t, p.current = some t ∧ t.isClose = false ∧ t.isIdentifier "define" = false) :
    Builder.run ⟨f :: stack, [], p.lastEnd⟩ p.left =
      ((p.forms h []).bind hm fun children q hq =>
        q.close (Nat.le_trans hq hm) f.kind f.token opening children).andThen fun node q =>
          Builder.run ⟨stack, node :: f.before, q.lastEnd⟩ q.left := by
  have hrun := hforms m h (f :: stack) [] fun hfresh => by
    obtain ⟨g, hg⟩ := Option.isSome_iff_exists.1 hfresh
    obtain ⟨_, heq, hkind⟩ := Builder.fresh?_eq_some hg
    cases heq
    exact hhead hkind
  rw [hrun, Parsed.andThen]
  cases hresult : (p.forms h []).result with
  | error e => rw [Parsed.bind_of_error _ _ hresult, Parsed.andThen]
  | ok children =>
    rw [Parsed.bind_of_ok _ _ hresult]
    obtain ⟨hstop, -, hmore⟩ := forms_stop _ h (Nat.le_refl _) hresult
    refine run_close hstart _ stack hstop fun hkind => ?_
    obtain ⟨t, hcurrent, hclose, -⟩ := hhead hkind
    exact List.ne_nil_of_length_pos (hmore t hcurrent hclose)

/-- **A form.** The builder takes it as the descent does, if it does so with all forms inside. -/
theorem run_form (hforms : ∀ q : Parser, q.left.length ≤ p.left.length → q.RunsForms)
    {opening : Token} (hlast : p.lastEnd = opening.span.stop) (h : p.left.length ≤ n)
    (stack : List OpenForm) (before : List Node) :
    Builder.run ⟨.ofOpen opening before :: stack, [], p.lastEnd⟩ p.left =
      (p.form h opening).andThen fun node q =>
        Builder.run ⟨stack, node :: before, q.lastEnd⟩ q.left := by
  cases hcurrent : p.current with
  | none =>
    rw [form_of_end h hcurrent, left_of_end hcurrent, Parsed.andThen, left_of_end hcurrent, hlast]
    simp only [Builder.run, Builder.finish, OpenForm.ofOpen, Nat.max_self]
  | some head =>
    rw [form_of_current h hcurrent]
    by_cases hdefine : head.isIdentifier "define"
    · rw [if_pos hdefine, run_of_takes hcurrent (.keyword hdefine rfl), ← lastEnd_advance hcurrent]
      exact (hforms _ p.length_advance_le).close
        (f := (OpenForm.ofOpen opening before).toDefine head) rfl _ _ stack (by rintro ⟨⟩)
    rw [if_neg hdefine]
    by_cases hclose : head.isClose
    · rw [if_pos hclose, Parsed.andThen]
      refine run_of_error hcurrent ?_
      rw [Builder.step, if_pos hclose, Builder.close_cons, Builder.fresh?_of_call rfl]
      rfl
    · rw [if_neg hclose]
      refine (hforms _ (Nat.le_refl _)).close (f := OpenForm.ofOpen opening before) rfl _ _ stack ?_
      exact fun _ => ⟨head, hcurrent, by simpa using hclose, by simpa using hdefine⟩

/-- **The forms of a level.** The builder takes them as the descent does. -/
theorem runsForms (p : Parser) : p.RunsForms := by
  induction hm : p.left.length using Nat.strongRecOn generalizing p with
  | _ m ih =>
    intro n h stack before hfresh
    cases hcurrent : p.current with
    | none => rw [forms_of_end h hcurrent, Parsed.andThen]
    | some t =>
      have hlt := length_advance_lt hcurrent
      have hlast := lastEnd_advance hcurrent
      rw [forms_of_current h hcurrent]
      by_cases hclose : t.isClose
      · rw [if_pos hclose, Parsed.andThen]
      rw [if_neg hclose]
      by_cases hquote : t.kind = .quote
      · rw [if_pos hquote, Parsed.andThen]
        refine run_of_error hcurrent ?_
        rw [Builder.step, if_neg hclose, if_pos hquote]
      rw [if_neg hquote]
      by_cases hopen : t.isOpen
      · have hform := run_form (p := p.advance) (fun q hq => ih q.left.length (by omega) q rfl)
          hlast (Nat.le_refl _) stack before
        rw [if_pos hopen, run_of_takes hcurrent (.opening hopen), ← hlast, hform, Parsed.andThen]
        cases hresult : (p.advance.form (Nat.le_refl _) t).result with
        | error e => rw [Parsed.bind_of_error _ _ hresult, Parsed.andThen]
        | ok node =>
          have hle := (p.advance.form (Nat.le_refl _) t).length_le
          rw [Parsed.bind_of_ok _ _ hresult]
          refine ih _ (by omega) _ rfl _ _ stack (node :: before) fun hsome => ?_
          rw [Builder.fresh?_cons] at hsome
          cases hsome
      · have hatom : t.IsAtom := ⟨by simpa using hopen, by simpa using hclose, hquote⟩
        have htakes : Builder.Takes ⟨stack, before, p.lastEnd⟩ t
            ⟨stack, Node.leaf t :: before, t.span.stop⟩ := by
          refine .leaf hatom fun hdefine => ?_
          cases hf : Builder.fresh? ⟨stack, before, p.lastEnd⟩ with
          | none => rfl
          | some f =>
            obtain ⟨t', ht', -, hother⟩ := hfresh (Option.isSome_of_eq_some hf)
            cases hcurrent.symm.trans ht'
            rw [hdefine] at hother
            cases hother
        rw [if_neg hopen, run_of_takes hcurrent htakes, ← hlast]
        refine ih _ (by omega) _ rfl _ _ stack (Node.leaf t :: before) fun hsome => ?_
        rw [Builder.fresh?_cons] at hsome
        cases hsome

/-- **The descent and the builder agree** on the program or the error, and on the tokens that are
left. -/
theorem program_eq_run (p : Parser) :
    (p.program.1, p.program.2.left) = Builder.run ⟨[], [], p.lastEnd⟩ p.left := by
  have hrun := p.runsForms _ (Nat.le_refl _) [] [] (by rintro ⟨⟩)
  rw [hrun, Parsed.andThen]
  unfold program
  dsimp only
  cases hresult : (p.forms (Nat.le_refl _) []).result with
  | error e => rfl
  | ok fs =>
    obtain ⟨hstop, -⟩ := forms_stop _ (Nat.le_refl _) (Nat.le_refl _) hresult
    cases hcurrent : (p.forms (Nat.le_refl _) []).parser.current with
    | none =>
      rw [left_of_end hcurrent]
      rfl
    | some t =>
      refine (run_of_error hcurrent ?_).symm
      rw [Builder.step, if_pos (hstop t hcurrent)]
      rfl

end Parser

theorem parseAhead_eq_run (ts : List Token) : parseAhead ts = Builder.empty.run ts := by
  have hrun := (Parser.ofTokens ts).program_eq_run
  rw [Parser.ofTokens, Parser.left_start, Parser.lastEnd_start] at hrun
  exact hrun

theorem parse_eq_of_run {ts : List Token} {r : Except ParseError Node}
    (h : (Builder.empty.run ts).1 = r) : parse ts = r := by
  rw [parse, parseAhead_eq_run, h]

end SmallScheme
