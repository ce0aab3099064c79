import SmallScheme.Proofs.Place.Erasure
import SmallScheme.Proofs.Token.Refinement

/-!
Runs of the lexer.

* `Reader.next_eq_token`, `Reader.next_eq_end`: what one call does when it gives a token, and when
  it finds the end;
* `Reader.Reads l ts l'` — the lexer gives the tokens `ts` one after another and is then in the
  state `l'`; `Reader.tokens_of_reads` and `exists_reads_of_lex` relate this to all tokens ahead;
* `Reader.tokensWithin` — all tokens of a short text, by plain recursion;
* `Reader.tokens_shift`: a lexer that starts further on in a source, at the start of a line, gives
  the same tokens further on.
-/

namespace SmallScheme

namespace Reader

theorem ofString_eq (src : String) : ofString src = ⟨⟨0, ⟨1, 0⟩⟩, src.toList, 0⟩ := by
  simp [ofString, ofChars]

/-! ## one call -/

/-- The token that a call gives, where the lexeme ahead was read as `r`. -/
def tokenOf (start : Mark) (r : Reading) (kind : TokenKind) (text : List Char) : Token :=
  ⟨String.ofList text, kind, start.position, ⟨start.offset, (start.after r.consumed).offset⟩⟩

theorem next_eq_token {l l' : Reader} {t : Token} (h : l.next = (.ok (some t), l')) :
    ∃ c cs kind text, dropTrivia false l.rest = c :: cs ∧
      (read l.depth c cs).verdict = .ok (kind, text) ∧
      t = tokenOf (l.mark.after (trivia false l.rest)) (read l.depth c cs) kind text ∧
      l' = ⟨(l.mark.after (trivia false l.rest)).after (read l.depth c cs).consumed,
        (read l.depth c cs).rest, t.depthAfter l.depth⟩ := by
  unfold next at h
  dsimp only at h
  split at h
  · split at h <;> simp at h
  · next c cs hahead =>
    split at h
    · next kind text hok =>
      simp only [Prod.mk.injEq, Except.ok.injEq, Option.some.injEq] at h
      obtain ⟨rfl, rfl⟩ := h
      exact ⟨c, cs, kind, text, hahead, hok, rfl, rfl⟩
    · simp at h

theorem next_eq_end {l l' : Reader} (h : l.next = (.ok none, l')) :
    dropTrivia false l.rest = [] ∧ l.depth = 0 := by
  unfold next at h
  dsimp only at h
  split at h
  · next hahead =>
    split at h
    · next hdepth => exact ⟨hahead, hdepth⟩
    · simp at h
  · split at h <;> simp at h

theorem next_of_end {l : Reader} (h : dropTrivia false l.rest = []) :
    l.next.1 = if l.depth = 0 then .ok none
      else .error (LexErrorKind.missingClose.locate (l.mark.after (trivia false l.rest))
        (l.mark.after (trivia false l.rest)) []) := by
  unfold next
  rw [h]

/-! ## all tokens -/

theorem tokens_of_end {l : Reader} (h : dropTrivia false l.rest = []) :
    l.tokens = if l.depth = 0 then .ok []
      else .error (LexErrorKind.missingClose.locate (l.mark.after (trivia false l.rest))
        (l.mark.after (trivia false l.rest)) []) := by
  have hnext := next_of_end h
  rw [tokens_eq]
  rcases hn : l.next with ⟨r, l'⟩
  rw [hn] at hnext
  by_cases hdepth : l.depth = 0
  · rw [if_pos hdepth] at hnext ⊢
    cases hnext
    rfl
  · rw [if_neg hdepth] at hnext ⊢
    cases hnext
    rfl

/-- Reading the tokens `ts` one after another leads from `l` to `l'`. -/
inductive Reads : Reader → List Token → Reader → Prop
  | done (l : Reader) : Reads l [] l
  | token {l l' l'' : Reader} {t : Token} {ts : List Token} :
      l.next = (.ok (some t), l') → Reads l' ts l'' → Reads l (t :: ts) l''

theorem tokens_of_reads {l l' : Reader} {ts : List Token} (h : Reads l ts l') :
    l.tokens = l'.tokens.map (ts ++ ·) := by
  induction h with
  | done l => cases l.tokens <;> rfl
  | @token l l' l'' t ts hnext _ ih =>
    have htail : l.tokens = l'.tokens.map (t :: ·) := by rw [tokens_eq, hnext]
    rw [htail, ih]
    cases l''.tokens <;> rfl

theorem exists_reads {ts : List Token} : ∀ {l : Reader}, l.tokens = .ok ts →
    ∃ l', Reads l ts l' ∧ dropTrivia false l'.rest = [] ∧ l'.depth = 0 := by
  induction ts with
  | nil =>
    intro l h
    rw [tokens_eq] at h
    split at h
    · cases h
    · next hnext => exact ⟨l, .done l, next_eq_end hnext⟩
    · next l' _ => cases ht : l'.tokens <;> rw [ht] at h <;> cases h
  | cons t ts ih =>
    intro l h
    rw [tokens_eq] at h
    split at h
    · cases h
    · cases h
    · next t' l' hnext =>
      cases ht : l'.tokens with
      | error e => rw [ht] at h; cases h
      | ok us =>
        rw [ht] at h
        obtain ⟨rfl, rfl⟩ := List.cons.inj (Except.ok.inj h)
        obtain ⟨l'', hreads, hend⟩ := ih ht
        exact ⟨l'', .token hnext hreads, hend⟩

theorem depth_of_reads {l l' : Reader} {ts : List Token} (h : Reads l ts l') :
    l'.depth = ts.foldl (fun depth t => t.depthAfter depth) l.depth := by
  induction h with
  | done l => rfl
  | token hnext _ ih =>
    obtain ⟨c, cs, kind, text, -, -, -, rfl⟩ := next_eq_token hnext
    rw [ih, List.foldl_cons]

theorem mark_of_reads {l l' : Reader} {ts : List Token} (h : Reads l ts l') :
    l'.mark.after l'.rest = l.mark.after l.rest := by
  induction h with
  | done l => rfl
  | @token l _ _ _ _ hnext _ ih =>
    obtain ⟨c, cs, kind, text, hahead, -, -, rfl⟩ := next_eq_token hnext
    rw [ih, ← Mark.after_append, ← Mark.after_append, consumed_append_rest_read, ← hahead,
      trivia_append_dropTrivia]

end Reader

/-! ## bounded runs -/

/-- All tokens ahead, if there are fewer than `fuel`. -/
def Reader.tokensWithin : Nat → Reader → Option (Except LexError (List Token))
  | 0, _ => none
  | fuel + 1, l =>
    match l.next with
    | (.error e, _) => some (.error e)
    | (.ok none, _) => some (.ok [])
    | (.ok (some t), l') => (tokensWithin fuel l').map fun r => r.map (t :: ·)

theorem Reader.tokens_eq_of_within {fuel : Nat} : ∀ {r : Except LexError (List Token)} {l : Reader},
    l.tokensWithin fuel = some r → l.tokens = r := by
  induction fuel with
  | zero => intro r l h; cases h
  | succ fuel ih =>
    intro r l h
    rw [tokensWithin] at h
    rw [tokens_eq]
    rcases hn : l.next with ⟨e | _ | t, l'⟩
    · rw [hn] at h
      exact Option.some.inj h
    · rw [hn] at h
      exact Option.some.inj h
    · rw [hn] at h
      obtain ⟨r', hr', rfl⟩ := Option.map_eq_some_iff.1 h
      dsimp only
      rw [ih hr']

theorem lex_eq_of_within (fuel : Nat) {src : String} {r : Except LexError (List Token)}
    (h : (Reader.ofString src).tokensWithin fuel = some r) : lex src = r :=
  (lex_eq src).trans (Reader.tokens_eq_of_within h)

/-! ## a source that is lexed -/

theorem exists_reads_of_lex {src : String} {ts : List Token} (h : lex src = .ok ts) :
    ∃ l, Reader.Reads (.ofString src) ts l ∧ dropTrivia false l.rest = [] ∧ l.depth = 0 :=
  Reader.exists_reads ((lex_eq src).symm.trans h)

theorem depth_of_lex {src : String} {ts : List Token} (h : lex src = .ok ts) :
    ts.foldl (fun depth t => t.depthAfter depth) 0 = 0 := by
  obtain ⟨l, hreads, -, hdepth⟩ := exists_reads_of_lex h
  have hfold := Reader.depth_of_reads hreads
  rw [Reader.ofString_eq] at hfold
  exact hfold.symm.trans hdepth

/-! ## further on in a source -/

/-- The place `bytes` and whole `lines` further on. -/
def Mark.shift (bytes lines : Nat) (m : Mark) : Mark :=
  ⟨m.offset + bytes, ⟨m.position.line + lines, m.position.column⟩⟩

def Span.shift (bytes : Nat) (s : Span) : Span := ⟨s.start + bytes, s.stop + bytes⟩

def Token.shift (bytes lines : Nat) (t : Token) : Token :=
  ⟨t.text, t.kind, ⟨t.position.line + lines, t.position.column⟩, t.span.shift bytes⟩

theorem Token.erase_shift (bytes lines : Nat) (t : Token) :
    (t.shift bytes lines).erase = t.erase := rfl

def LexError.shift (bytes lines : Nat) (e : LexError) : LexError :=
  ⟨e.kind, e.span.shift bytes, ⟨e.position.line + lines, e.position.column⟩⟩

def Reader.shift (bytes lines : Nat) (l : Reader) : Reader :=
  ⟨l.mark.shift bytes lines, l.rest, l.depth⟩

section Shift

variable (bytes lines : Nat)

theorem Mark.step_shift (m : Mark) (c : Char) :
    (m.shift bytes lines).step c = (m.step c).shift bytes lines := by
  unfold step shift
  split
  · simp only [Mark.mk.injEq, Position.mk.injEq, and_true]
    omega
  · simp only [Mark.mk.injEq, and_true]
    omega

theorem Mark.after_shift (m : Mark) (text : List Char) :
    (m.shift bytes lines).after text = (m.after text).shift bytes lines := by
  induction text generalizing m with
  | nil => rfl
  | cons c cs ih => rw [after_cons, after_cons, step_shift, ih]

theorem Mark.pastNext_shift (m : Mark) (text : List Char) :
    (m.shift bytes lines).pastNext text = m.pastNext text + bytes := by
  cases text with
  | nil => rfl
  | cons c cs => simp only [pastNext, shift]; omega

theorem LexErrorKind.locate_shift (kind : LexErrorKind) (start here : Mark) (rest : List Char) :
    kind.locate (start.shift bytes lines) (here.shift bytes lines) rest =
      (kind.locate start here rest).shift bytes lines := by
  cases kind <;> simp only [locate, Mark.pastNext_shift] <;> rfl

theorem Reader.next_shift (l : Reader) :
    (l.shift bytes lines).next =
      ((l.next.1.map (Option.map (Token.shift bytes lines))).mapError
        (LexError.shift bytes lines), l.next.2.shift bytes lines) := by
  unfold next
  simp only [shift, Mark.after_shift]
  cases dropTrivia false l.rest with
  | nil =>
    simp only [LexErrorKind.locate_shift]
    split <;> rfl
  | cons c cs =>
    simp only [LexErrorKind.locate_shift]
    split <;> rfl

theorem Reader.tokens_shift (l : Reader) :
    (l.shift bytes lines).tokens =
      (l.tokens.map (List.map (Token.shift bytes lines))).mapError
        (LexError.shift bytes lines) := by
  induction hn : l.rest.length using Nat.strongRecOn generalizing l with
  | _ n ih =>
    rw [tokens_eq, tokens_eq l, next_shift]
    rcases hnext : l.next with ⟨e | _ | t, l'⟩
    · rfl
    · rfl
    · have hlt := length_rest_lt_of_next hnext
      have htail := ih l'.rest.length (by omega) l' rfl
      simp only [Except.map, mapError_ok, Option.map_some, htail]
      cases l'.tokens <;> rfl

end Shift

end SmallScheme
