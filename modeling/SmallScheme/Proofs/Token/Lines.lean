import Mathlib.Data.List.Basic
import SmallScheme.Proofs.Token.Reading

/-!
Lexing a source line by line. No lexeme goes on over the end of a line, so what stands before a
line break is read without regard to what stands after it.

* `EndsLine p` — the text `p` is made of whole lines;
* `read_append`, `Reader.next_append`: a lexeme in such a text is read in the same way whatever
  follows the text;
* `Reader.after_lines`, `lex_append`: a text after whole lines is lexed as if it stood alone,
  further on.
-/

namespace SmallScheme

open Text (isBlank)

/-! ## whole lines -/

/-- The text is empty or ends with a line break. -/
def EndsLine (p : List Char) : Prop := ∀ c, p.getLast? = some c → c = '\n'

theorem endsLine_snoc (p : List Char) : EndsLine (p ++ ['\n']) := by
  intro c h
  simpa using h.symm

theorem EndsLine.of_append {a b : List Char} (h : EndsLine (a ++ b)) : EndsLine b := by
  intro c hc
  refine h c ?_
  rw [List.getLast?_append, hc]
  rfl

theorem EndsLine.tail {c : Char} {cs : List Char} (h : EndsLine (c :: cs)) : EndsLine cs :=
  EndsLine.of_append (a := [c]) h

theorem EndsLine.tail_ne_nil {c : Char} {cs : List Char} (h : EndsLine (c :: cs)) (hc : c ≠ '\n') :
    cs ≠ [] := by
  rintro rfl
  exact hc (h c rfl)

theorem EndsLine.dropWhile {p : List Char} (h : EndsLine p) (P : Char → Bool) :
    EndsLine (p.dropWhile P) := by
  refine EndsLine.of_append (a := p.takeWhile P) ?_
  rwa [List.takeWhile_append_dropWhile]

theorem EndsLine.span_append {P : Char → Bool} (hP : P '\n' = false) {p : List Char}
    (h : EndsLine p) (hne : p ≠ []) (s : List Char) :
    (p ++ s).takeWhile P = p.takeWhile P ∧ (p ++ s).dropWhile P = p.dropWhile P ++ s ∧
      p.dropWhile P ≠ [] := by
  induction p with
  | nil => exact absurd rfl hne
  | cons c cs ih =>
    by_cases hc : P c
    · have hcs : cs ≠ [] := h.tail_ne_nil (by rintro rfl; simp [hP] at hc)
      obtain ⟨htake, hdrop, hrest⟩ := ih h.tail hcs
      simp [hc, htake, hdrop, hrest]
    · simp [hc]

/-! ## blanks and comments -/

theorem dropTrivia_append_of_ne_nil (p s : List Char) : ∀ comment, dropTrivia comment p ≠ [] →
    trivia comment (p ++ s) = trivia comment p ∧
      dropTrivia comment (p ++ s) = dropTrivia comment p ++ s := by
  induction p with
  | nil => intro comment h; exact absurd rfl h
  | cons c cs ih =>
    intro comment h
    simp only [List.cons_append, trivia, dropTrivia] at h ⊢
    split at h
    · next hcomment => simp [hcomment, ih _ h]
    · next hcomment =>
      split at h
      · next hc => simp [hcomment, hc, ih _ h]
      · next hc =>
        split at h
        · next hblank => simp [hcomment, hc, hblank, ih _ h]
        · next hblank => simp [hcomment, hc, hblank]

theorem not_isBlank_of_dropTrivia {c : Char} {cs text : List Char} : ∀ {comment : Bool},
    dropTrivia comment text = c :: cs → isBlank c = false := by
  induction text with
  | nil => intro comment h; cases h
  | cons d ds ih =>
    intro comment h
    rw [dropTrivia] at h
    split at h
    · exact ih h
    · split at h
      · exact ih h
      · split at h
        · exact ih h
        · next hblank =>
          cases h
          simpa using hblank

theorem EndsLine.of_dropTrivia {c : Char} {cs text : List Char} {comment : Bool}
    (h : EndsLine text) (hahead : dropTrivia comment text = c :: cs) :
    EndsLine (c :: cs) ∧ c ≠ '\n' := by
  constructor
  · rw [← hahead]
    refine EndsLine.of_append (a := trivia comment text) ?_
    rwa [trivia_append_dropTrivia]
  · rintro rfl
    exact absurd (not_isBlank_of_dropTrivia hahead) (by decide)

theorem dropTrivia_append_of_nil (s : List Char) (p : List Char) : ∀ comment, EndsLine p →
    (p = [] → comment = false) → dropTrivia comment p = [] →
    trivia comment (p ++ s) = p ++ trivia false s ∧
      dropTrivia comment (p ++ s) = dropTrivia false s := by
  induction p with
  | nil => intro comment _ hcomment _; simp [hcomment rfl]
  | cons c cs ih =>
    intro comment hp _ h
    -- a comment that is still open at the last character is closed by it
    have hlast : cs = [] → c = '\n' := by rintro rfl; exact hp c rfl
    simp only [List.cons_append, trivia, dropTrivia] at h ⊢
    split at h
    · next hcomment =>
      simp [hcomment, ih _ hp.tail (by intro hcs; simp [hlast hcs]) h]
    · next hcomment =>
      split at h
      · next hc =>
        have hcs : cs ≠ [] := hp.tail_ne_nil (by simp [hc])
        simp [hcomment, hc, ih _ hp.tail (fun hnil => absurd hnil hcs) h]
      · next hc =>
        split at h
        · next hblank => simp [hcomment, hc, hblank, ih _ hp.tail (fun _ => rfl) h]
        · next hblank => cases h

/-! ## lexemes -/

/-- The reading of the same lexeme where more text follows. -/
def Reading.append (r : Reading) (s : List Char) : Reading := { r with rest := r.rest ++ s }

namespace Reading

theorem closeNumber_append (kind : TokenKind) (lexeme : List Char) {rest : List Char}
    (hne : rest ≠ []) (s : List Char) :
    closeNumber kind lexeme (rest ++ s) = (closeNumber kind lexeme rest).append s := by
  cases rest with
  | nil => exact absurd rfl hne
  | cons c cs =>
    have hends : endsNumber (c :: cs ++ s) = endsNumber (c :: cs) := rfl
    unfold closeNumber
    rw [hends]
    split <;> rfl

theorem string_append {cs : List Char} (h : EndsLine cs) (hne : cs ≠ []) (s : List Char) :
    string (cs ++ s) = (string cs).append s ∧ (string cs).rest ≠ [] := by
  obtain ⟨htake, hdrop, hrest⟩ := h.span_append (P := isStringChar) (by decide) hne s
  have hsuffix := h.dropWhile isStringChar
  unfold string
  rw [htake, hdrop]
  cases hd : cs.dropWhile isStringChar with
  | nil => exact absurd hd hrest
  | cons c rest =>
    rw [hd] at hsuffix
    simp only [List.cons_append]
    split
    · next hc => exact ⟨rfl, hsuffix.tail_ne_nil (by simp [hc])⟩
    · exact ⟨rfl, by simp [refusal]⟩

theorem fraction_append (whole : List Char) {rest : List Char} (h : EndsLine rest)
    (hne : rest ≠ []) (s : List Char) :
    fraction whole (rest ++ s) = (fraction whole rest).append s ∧
      (fraction whole rest).rest ≠ [] := by
  obtain ⟨htake, hdrop, hafter⟩ := h.span_append (P := Char.isDigit) (by decide) hne s
  rw [fraction_eq, fraction_eq, htake, hdrop, List.head?_append_of_ne_nil _ hafter]
  split
  · exact ⟨rfl, hafter⟩
  · exact ⟨closeNumber_append _ _ hafter s, by rwa [rest_closeNumber]⟩

theorem number_append (sign : List Char) {cs : List Char} (h : EndsLine cs) (hne : cs ≠ [])
    (s : List Char) :
    number sign (cs ++ s) = (number sign cs).append s ∧ (number sign cs).rest ≠ [] := by
  obtain ⟨htake, hdrop, hafter⟩ := h.span_append (P := Char.isDigit) (by decide) hne s
  rw [number_eq, number_eq, htake, hdrop, List.head?_append_of_ne_nil _ hafter]
  split
  · next hpoint =>
    obtain ⟨rest, hrest⟩ := List.head?_eq_some_iff.1 hpoint
    have hpoint : EndsLine ('.' :: rest) := hrest ▸ h.dropWhile Char.isDigit
    rw [hrest]
    exact fraction_append _ hpoint.tail (hpoint.tail_ne_nil (by decide)) s
  · exact ⟨closeNumber_append _ _ hafter s, by rwa [rest_closeNumber]⟩

theorem identifier_append {cs : List Char} (h : EndsLine cs) (hne : cs ≠ []) (s : List Char) :
    identifier (cs ++ s) = (identifier cs).append s ∧ (identifier cs).rest ≠ [] := by
  obtain ⟨htake, hdrop, hafter⟩ := h.span_append (P := isIdentifierChar) (by decide) hne s
  unfold identifier
  rw [htake, hdrop]
  exact ⟨rfl, hafter⟩

theorem minus_append {cs : List Char} (h : EndsLine cs) (hne : cs ≠ []) (s : List Char) :
    minus (cs ++ s) = (minus cs).append s ∧ (minus cs).rest ≠ [] := by
  cases cs with
  | nil => exact absurd rfl hne
  | cons next cs =>
    have hminus : EndsLine ('-' :: next :: cs) := fun c hc => h c (by simpa using hc)
    simp only [List.cons_append, minus]
    split
    · exact number_append ['-'] h hne s
    · split
      · exact identifier_append hminus (by simp) s
      · exact ⟨rfl, by simp [refusal]⟩

end Reading

theorem read_append (depth : Nat) {c : Char} {cs : List Char} (h : EndsLine (c :: cs))
    (hc : c ≠ '\n') (s : List Char) :
    read depth c (cs ++ s) = (read depth c cs).append s ∧ (read depth c cs).rest ≠ [] := by
  have hcs := h.tail
  have hne := h.tail_ne_nil hc
  have hstarts := starts_read depth c cs
  generalize read depth c cs = r at hstarts ⊢
  cases hstarts with
  | opening => exact ⟨rfl, hne⟩
  | closing _ hdepth => exact ⟨read_of_starts (.closing _ hdepth), hne⟩
  | freeClose _ hdepth =>
    exact ⟨read_of_starts (.freeClose _ hdepth), List.cons_ne_nil _ _⟩
  | quote => exact ⟨read_of_starts (.quote (by simp [hne])), hne⟩
  | lastQuote => exact absurd rfl hne
  | string => exact Reading.string_append hcs hne s
  | number _ hmark hdigit =>
    obtain ⟨hread, hrest⟩ := Reading.number_append [] h (by simp) s
    exact ⟨(read_of_starts (.number _ hmark hdigit)).trans hread, hrest⟩
  | minus => exact Reading.minus_append hcs hne s
  | identifier _ hmark hdigit hminus hstart =>
    obtain ⟨hread, hrest⟩ := Reading.identifier_append h (by simp) s
    exact ⟨(read_of_starts (.identifier _ hmark hdigit hminus hstart)).trans hread, hrest⟩
  | symbol _ hmark hdigit hminus hstart =>
    exact ⟨read_of_starts (.symbol _ hmark hdigit hminus hstart), List.cons_ne_nil _ _⟩

/-! ## tokens -/

namespace Reader

/-- The reader where more text follows the text ahead. -/
def append (l : Reader) (s : List Char) : Reader := ⟨l.mark, l.rest ++ s, l.depth⟩

theorem next_append {l : Reader} (h : EndsLine l.rest) (hne : dropTrivia false l.rest ≠ [])
    (s : List Char) :
    (l.append s).next = (l.next.1, l.next.2.append s) ∧ EndsLine l.next.2.rest := by
  obtain ⟨htrivia, hdrop⟩ := dropTrivia_append_of_ne_nil l.rest s false hne
  unfold next append
  rw [htrivia, hdrop]
  cases hahead : dropTrivia false l.rest with
  | nil => exact absurd hahead hne
  | cons c cs =>
    obtain ⟨hline, hc⟩ := h.of_dropTrivia hahead
    obtain ⟨hread, hrest⟩ := read_append l.depth hline hc s
    have hsuffix : EndsLine (read l.depth c cs).rest := by
      refine EndsLine.of_append (a := (read l.depth c cs).consumed) ?_
      rwa [consumed_append_rest_read]
    have hlocate (kind : LexErrorKind) (start here : Mark) :
        kind.locate start here ((read l.depth c cs).rest ++ s) =
          kind.locate start here (read l.depth c cs).rest := by
      cases hr : (read l.depth c cs).rest with
      | nil => exact absurd hr hrest
      | cons d ds => cases kind <;> rfl
    simp only [List.cons_append, hread, Reading.append, hlocate]
    cases (read l.depth c cs).verdict with
    | ok lexeme => exact ⟨rfl, hsuffix⟩
    | error kind => exact ⟨rfl, hsuffix⟩

theorem next_append_of_end {l : Reader} (h : EndsLine l.rest) (hend : dropTrivia false l.rest = [])
    (s : List Char) : (l.append s).next = next ⟨l.mark.after l.rest, s, l.depth⟩ := by
  obtain ⟨htrivia, hdrop⟩ := dropTrivia_append_of_nil s l.rest false h (fun _ => rfl) hend
  unfold next append
  simp only [htrivia, hdrop, Mark.after_append]

theorem tokens_append_of_end {l : Reader} (h : EndsLine l.rest)
    (hend : dropTrivia false l.rest = []) (s : List Char) :
    (l.append s).tokens = tokens ⟨l.mark.after l.rest, s, l.depth⟩ := by
  rw [tokens_eq, next_append_of_end h hend, ← tokens_eq]

/-- All tokens of a text after whole lines: first those of the lines, then those of the text. -/
theorem exists_reads_of_append {s : List Char} {ts : List Token} : ∀ {l : Reader},
    EndsLine l.rest → (l.append s).tokens = .ok ts →
    ∃ ts₁ ts₂ l', Reads l ts₁ l' ∧ dropTrivia false l'.rest = [] ∧ ts = ts₁ ++ ts₂ ∧
      tokens ⟨l'.mark.after l'.rest, s, l'.depth⟩ = .ok ts₂ := by
  intro l hline h
  induction hn : l.rest.length using Nat.strongRecOn generalizing l ts with
  | _ n ih =>
    by_cases hend : dropTrivia false l.rest = []
    · refine ⟨[], ts, l, .done l, hend, rfl, ?_⟩
      rw [← tokens_append_of_end hline hend, h]
    · obtain ⟨hnext, hline'⟩ := next_append hline hend s
      rw [tokens_eq, hnext] at h
      rcases hl : l.next with ⟨e | _ | t, l'⟩
      · rw [hl] at h
        cases h
      · exact absurd (next_eq_end hl).1 hend
      · rw [hl] at h hline'
        replace h : (l'.append s).tokens.map (t :: ·) = .ok ts := h
        cases hts : (l'.append s).tokens with
        | error e => rw [hts] at h; cases h
        | ok us =>
          rw [hts] at h
          cases h
          have hlt := length_rest_lt_of_next hl
          obtain ⟨ts₁, ts₂, l'', hreads, hend'', rfl, hts₂⟩ :=
            ih l'.rest.length (by omega) hline' hts rfl
          exact ⟨t :: ts₁, ts₂, l'', .token hl hreads, hend'', rfl, hts₂⟩

end Reader

/-! ## places at the start of a line -/

theorem Mark.line_after (m : Mark) (text : List Char) :
    (m.after text).position.line = m.position.line + text.count '\n' := by
  induction text generalizing m with
  | nil => rfl
  | cons c cs ih =>
    rw [after_cons, ih, List.count_cons]
    by_cases hc : c = '\n'
    · simp only [step, hc, if_true, beq_self_eq_true]
      omega
    · simp [step, hc]

theorem Mark.after_of_endsLine {m : Mark} {text : List Char} (hm : m.position.column = 0)
    (h : EndsLine text) : m.after text = m.shift (byteLength text) (text.count '\n') := by
  have hoffset := m.offset_after text
  have hlinum := m.line_after text
  have hcolumn : (m.after text).position.column = 0 := by
    rcases List.eq_nil_or_concat text with rfl | ⟨init, c, rfl⟩
    · exact hm
    · have hc : c = '\n' := h c (by simp)
      simp [hc, step]
  unfold shift
  rw [← hoffset, ← hlinum, hm, ← hcolumn]

namespace Reader

theorem ofString_append (p s : String) : ofString (p ++ s) = (ofString p).append s.toList := by
  rw [ofString_eq, ofString_eq, append, String.toList_append]

/-- Behind whole lines, with no form open, the lexer goes on as at the start of a source, further
on. -/
theorem after_lines {p : String} {l : Reader} {ts : List Token} (hp : EndsLine p.toList)
    (hreads : Reads (ofString p) ts l) (hdepth : l.depth = 0) (s : String) :
    (⟨l.mark.after l.rest, s.toList, l.depth⟩ : Reader) =
      (ofString s).shift (byteLength p.toList) (p.toList.count '\n') := by
  have hmark : l.mark.after l.rest =
      Mark.shift (byteLength p.toList) (p.toList.count '\n') ⟨0, ⟨1, 0⟩⟩ := by
    rw [mark_of_reads hreads, ofString_eq]
    exact Mark.after_of_endsLine rfl hp
  rw [hmark, hdepth, ofString_eq]
  rfl

end Reader

/-- **Lexing in two parts.** Where a source lexes and its first part is made of whole lines, either
a form is still open after them, or both parts lex by themselves, to the same tokens. -/
theorem lex_append {p s : String} {ts : List Token} (hp : EndsLine p.toList)
    (h : lex (p ++ s) = .ok ts) :
    (∃ e, lex p = .error e ∧ e.kind = .missingClose) ∨
    ∃ ts₁ ts₂, lex p = .ok ts₁ ∧ lex s = .ok ts₂ ∧
      ts = ts₁ ++ ts₂.map (Token.shift (byteLength p.toList) (p.toList.count '\n')) := by
  have hrest : (Reader.ofString p).rest = p.toList := by rw [Reader.ofString_eq]
  rw [lex_eq, Reader.ofString_append] at h
  obtain ⟨ts₁, ts₂, l, hreads, hend, rfl, hts₂⟩ := Reader.exists_reads_of_append (hrest ▸ hp) h
  have hlex : lex p = l.tokens.map (ts₁ ++ ·) :=
    (lex_eq p).trans (Reader.tokens_of_reads hreads)
  have hlast := Reader.tokens_of_end hend
  by_cases hdepth : l.depth = 0
  · right
    rw [if_pos hdepth] at hlast
    rw [Reader.after_lines hp hreads hdepth, Reader.tokens_shift] at hts₂
    cases hs : lex s with
    | error e =>
      rw [lex_eq] at hs
      rw [hs] at hts₂
      cases hts₂
    | ok us =>
      rw [lex_eq] at hs
      rw [hs] at hts₂
      cases hts₂
      refine ⟨ts₁, us, ?_, rfl, rfl⟩
      rw [hlex, hlast]
      exact congrArg Except.ok (List.append_nil ts₁)
  · left
    rw [if_neg hdepth] at hlast
    rw [hlex, hlast]
    exact ⟨_, rfl, rfl⟩

end SmallScheme
