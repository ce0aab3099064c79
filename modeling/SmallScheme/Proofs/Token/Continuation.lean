import Mathlib.Logic.ExistsUnique
import SmallScheme.Proofs.Token.Lines

/-!
What can come after a text of whole lines.

* `read_error_lasts`: within whole lines no lexeme is refused because the text ends;
* `lex_append_cases`: a text of whole lines leaves the lexer in a state from which it goes on with
  whatever follows, or it fails with an error that nothing after it changes;
* `Reader.tokens_closers`: closing parentheses complete a text if they are as many as are open;
* `Standing` — the three things that can be the matter with a text; `Standing.ofLexed_of` and
  `Standing.eq_ofLexed`: what the lexer says of a text of whole lines is the matter, and only that.
-/

namespace SmallScheme

/-! ## errors that last -/

/-- The error is not about the end of the text. -/
def LexErrorKind.Lasts (kind : LexErrorKind) : Prop :=
  kind ≠ .missingClose ∧ kind ≠ .endOfInput ∧ kind ≠ .unclosedString

instance (kind : LexErrorKind) : Decidable kind.Lasts := inferInstanceAs (Decidable (_ ∧ _))

theorem LexErrorKind.kind_locate (kind : LexErrorKind) (start here : Mark) (rest : List Char) :
    (kind.locate start here rest).kind = kind := by
  cases kind <;> rfl

namespace Reading

variable {kind : LexErrorKind}

theorem string_error_lasts {cs : List Char} (h : EndsLine cs) (hne : cs ≠ [])
    (he : (string cs).verdict = .error kind) : kind.Lasts := by
  obtain ⟨-, -, hrest⟩ := h.span_append (P := isStringChar) (by decide) hne []
  unfold string at he
  dsimp only at he
  split at he
  · next hnil => exact absurd hnil hrest
  · split at he
    · cases he
    · cases he
      decide

theorem closeNumber_error_lasts {number : TokenKind} {lexeme rest : List Char}
    (he : (closeNumber number lexeme rest).verdict = .error kind) : kind.Lasts := by
  unfold closeNumber at he
  split at he
  · cases he
  · cases he
    decide

theorem number_error_lasts {sign cs : List Char} (he : (number sign cs).verdict = .error kind) :
    kind.Lasts := by
  rw [number_eq] at he
  split at he
  · rw [fraction_eq] at he
    split at he
    · cases he
      decide
    · exact closeNumber_error_lasts he
  · exact closeNumber_error_lasts he

theorem minus_error_lasts {cs : List Char} (he : (minus cs).verdict = .error kind) :
    kind.Lasts := by
  unfold minus at he
  split at he
  · cases he
  · split at he
    · exact number_error_lasts he
    · split at he
      · cases he
      · cases he
        decide

end Reading

theorem read_error_lasts {depth : Nat} {c : Char} {cs : List Char} {kind : LexErrorKind}
    (h : EndsLine (c :: cs)) (hc : c ≠ '\n') (he : (read depth c cs).verdict = .error kind) :
    kind.Lasts := by
  -- only a quote mark and a string could miss something, and the line break is still ahead
  have hne := h.tail_ne_nil hc
  have hstarts := starts_read depth c cs
  generalize read depth c cs = r at he hstarts
  cases hstarts with
  | opening | closing | quote | identifier => cases he
  | freeClose | symbol => cases he; decide
  | lastQuote => exact absurd rfl hne
  | string => exact Reading.string_error_lasts h.tail hne he
  | number => exact Reading.number_error_lasts he
  | minus => exact Reading.minus_error_lasts he

namespace Reader

theorem next_error_lasts {l l' : Reader} {e : LexError} (h : EndsLine l.rest)
    (hne : dropTrivia false l.rest ≠ []) (he : l.next = (.error e, l')) : e.kind.Lasts := by
  unfold next at he
  dsimp only at he
  split at he
  · next hnil => exact absurd hnil hne
  · next c cs hahead =>
    obtain ⟨hline, hc⟩ := h.of_dropTrivia hahead
    split at he
    · cases he
    · next kind hkind =>
      cases he
      rw [LexErrorKind.kind_locate]
      exact read_error_lasts hline hc hkind

/-! ## whole lines and what follows them -/

theorem reads_append {l l' : Reader} {ts : List Token} (h : Reads l ts l') (hline : EndsLine l.rest)
    (s : List Char) : Reads (l.append s) ts (l'.append s) ∧ EndsLine l'.rest := by
  induction h with
  | done l => exact ⟨.done _, hline⟩
  | @token l l' l'' t ts hnext _ ih =>
    have hne : dropTrivia false l.rest ≠ [] := by
      obtain ⟨c, cs, -, -, hahead, -⟩ := next_eq_token hnext
      simp [hahead]
    obtain ⟨happend, hline'⟩ := next_append hline hne s
    rw [hnext] at happend hline'
    obtain ⟨hreads, hend⟩ := ih hline'
    exact ⟨.token happend hreads, hend⟩

/-- The lexer gives tokens up to the end of the text or up to an error in it. -/
theorem exists_reads_until (l : Reader) : ∃ ts l', Reads l ts l' ∧
    (dropTrivia false l'.rest = [] ∨
      dropTrivia false l'.rest ≠ [] ∧ ∃ e l'', l'.next = (.error e, l'')) := by
  induction hn : l.rest.length using Nat.strongRecOn generalizing l with
  | _ n ih =>
    by_cases hend : dropTrivia false l.rest = []
    · exact ⟨[], l, .done l, Or.inl hend⟩
    · rcases hnext : l.next with ⟨e | _ | t, l'⟩
      · exact ⟨[], l, .done l, Or.inr ⟨hend, e, l', hnext⟩⟩
      · exact absurd (next_eq_end hnext).1 hend
      · have hlt := length_rest_lt_of_next hnext
        obtain ⟨ts, l'', hreads, hstop⟩ := ih l'.rest.length (by omega) l' rfl
        exact ⟨t :: ts, l'', .token hnext hreads, hstop⟩

theorem tokens_of_next_error {l l' : Reader} {e : LexError} (h : l.next = (.error e, l')) :
    l.tokens = .error e := by
  rw [tokens_eq, h]

end Reader

/-- **Whole lines are lexed once and for all.** Either the lexer is in some state after them, from
which it goes on with whatever follows, or it fails in them, and fails so whatever follows. -/
theorem lex_append_cases {p : String} (hp : EndsLine p.toList) :
    (∃ ts m depth, ∀ s, lex (p ++ s) = (Reader.tokens ⟨m, s.toList, depth⟩).map (ts ++ ·)) ∨
    ∃ e, e.kind.Lasts ∧ ∀ s, lex (p ++ s) = .error e := by
  have hline : EndsLine (Reader.ofString p).rest := by rwa [Reader.ofString_eq]
  obtain ⟨ts, l, hreads, hend | ⟨hne, e, l', he⟩⟩ := (Reader.ofString p).exists_reads_until
  · -- the blanks and comments at the end are over, so what follows is read from behind them
    left
    refine ⟨ts, l.mark.after l.rest, l.depth, fun s => ?_⟩
    obtain ⟨hreads, hline⟩ := Reader.reads_append hreads hline s.toList
    rw [lex_eq, Reader.ofString_append, Reader.tokens_of_reads hreads,
      Reader.tokens_append_of_end hline hend]
  · right
    have hline' := (Reader.reads_append hreads hline []).2
    refine ⟨e, Reader.next_error_lasts hline' hne he, fun s => ?_⟩
    obtain ⟨hreads, -⟩ := Reader.reads_append hreads hline s.toList
    obtain ⟨hnext, -⟩ := Reader.next_append hline' hne s.toList
    rw [he] at hnext
    rw [lex_eq, Reader.ofString_append, Reader.tokens_of_reads hreads,
      Reader.tokens_of_next_error hnext]
    rfl

/-! ## closing parentheses -/

def closers (n : Nat) : String := String.ofList (List.replicate n ')')

theorem exists_map_eq_ok_iff {ε α β : Type} {f : α → β} {x : Except ε α} :
    (∃ b, x.map f = .ok b) ↔ ∃ a, x = .ok a := by
  cases x with
  | error e => simp [Except.map]
  | ok a => simp [Except.map]

theorem Reader.tokens_closers (n : Nat) : ∀ (m : Mark) (depth : Nat),
    (∃ ts, tokens ⟨m, (closers n).toList, depth⟩ = .ok ts) ↔ n = depth := by
  simp only [closers, String.toList_ofList]
  induction n with
  | zero =>
    intro m depth
    rw [List.replicate_zero, tokens_of_end rfl]
    by_cases hdepth : depth = 0
    · simp [hdepth]
    · simp [hdepth, Ne.symm hdepth]
  | succ n ih =>
    intro m depth
    cases depth with
    | zero =>
      rw [tokens_of_next_error rfl]
      simp
    | succ depth =>
      have hnext : next ⟨m, List.replicate (n + 1) ')', depth + 1⟩ =
          (.ok (some ⟨")", .paren, m.position, ⟨m.offset, (m.step ')').offset⟩⟩),
            ⟨m.step ')', List.replicate n ')', depth⟩) := rfl
      rw [tokens_eq, hnext]
      dsimp only
      rw [exists_map_eq_ok_iff, ih, Nat.add_right_cancel_iff]

/-! ## what is the matter with a text -/

/-- What can be the matter with a text of whole lines. -/
inductive Standing where
  /-- The text is a sequence of tokens. -/
  | complete
  /-- Some parentheses are open, and only they are missing. -/
  | waiting
  /-- The text is wrong, and nothing after it mends it. -/
  | broken
  deriving DecidableEq

def Standing.Of : Standing → String → Prop
  | complete, p => ∃ ts, lex p = .ok ts
  | waiting, p => (∃ e, lex p = .error e ∧ e.kind = .missingClose) ∧
      ∃! d, 1 ≤ d ∧ ∃ ts, lex (p ++ closers d) = .ok ts
  | broken, p => ∃ e, lex p = .error e ∧
      (e.kind ≠ .missingClose ∧ e.kind ≠ .endOfInput ∧ e.kind ≠ .unclosedString) ∧
      ∀ s, lex (p ++ s) = .error e

namespace Standing

variable {p : String}

theorem exists_of_endsLine (hp : EndsLine p.toList) : ∃ v : Standing, v.Of p := by
  rcases lex_append_cases hp with ⟨ts, m, depth, hafter⟩ | ⟨e, hlasts, hafter⟩
  · have hnow : lex p = (Reader.tokens ⟨m, [], depth⟩).map (ts ++ ·) := by
      have hempty := hafter ""
      rwa [String.append_empty] at hempty
    rw [Reader.tokens_of_end rfl] at hnow
    by_cases hdepth : depth = 0
    · refine ⟨complete, ?_⟩
      rw [if_pos hdepth] at hnow
      exact ⟨_, hnow⟩
    · refine ⟨waiting, ?_, ?_⟩
      · rw [if_neg hdepth] at hnow
        exact ⟨_, hnow, rfl⟩
      · have hclosers (d : Nat) : (∃ ts, lex (p ++ closers d) = .ok ts) ↔ d = depth := by
          rw [hafter, exists_map_eq_ok_iff]
          exact Reader.tokens_closers d m depth
        refine ⟨depth, ⟨by omega, (hclosers depth).2 rfl⟩, ?_⟩
        rintro d ⟨-, hd⟩
        exact (hclosers d).1 hd
  · have hnow := hafter ""
    rw [String.append_empty] at hnow
    exact ⟨broken, e, hnow, hlasts, hafter⟩

def ofLexed : Except LexError (List Token) → Standing
  | .ok _ => complete
  | .error e => if e.kind = .missingClose then waiting else broken

theorem eq_ofLexed {v : Standing} (h : v.Of p) : v = ofLexed (lex p) := by
  cases v with
  | complete =>
    obtain ⟨ts, hlex⟩ := h
    rw [hlex]
    rfl
  | waiting =>
    obtain ⟨⟨e, hlex, hkind⟩, -⟩ := h
    rw [hlex]
    exact (if_pos hkind).symm
  | broken =>
    obtain ⟨e, hlex, ⟨hkind, -⟩, -⟩ := h
    rw [hlex]
    exact (if_neg hkind).symm

theorem ofLexed_of (hp : EndsLine p.toList) : (ofLexed (lex p)).Of p := by
  obtain ⟨v, hv⟩ := exists_of_endsLine hp
  rwa [← eq_ofLexed hv]

end Standing

end SmallScheme
