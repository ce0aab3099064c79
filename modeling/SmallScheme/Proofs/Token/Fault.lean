import SmallScheme.Program
import SmallScheme.Proofs.Token.Continuation
import SmallScheme.Proofs.Token.Segment

/-!
Where the errors of the lexer stand.

* `Reader.next_eq_error`: what one call does when it refuses a lexeme;
* `marks_span_locate`: the span of a lexeme that is refused is one of the source;
* `marks_locate`, `marks_of_lex_error`: so is the place that a report of an error marks.
-/

namespace SmallScheme

theorem Mark.offset_origin (text : List Char) :
    (Mark.origin.after text).offset = byteLength text := by
  rw [Mark.offset_after]
  exact Nat.zero_add _

theorem isCut_offset {src : String} {before rest : List Char}
    (h : src.toList = before ++ rest) : IsCut src (Mark.origin.after before).offset :=
  ⟨before, rest, h, Mark.offset_origin before⟩

theorem isCut_pastNext {src : String} {before rest : List Char}
    (h : src.toList = before ++ rest) : IsCut src ((Mark.origin.after before).pastNext rest) := by
  cases rest with
  | nil => exact isCut_offset h
  | cons c cs =>
    have hstep : (Mark.origin.after before).pastNext (c :: cs) =
        (Mark.origin.after (before ++ [c])).offset := by
      rw [Mark.after_append]
      rfl
    have hsplit : src.toList = before ++ [c] ++ cs := by
      rw [h, List.append_assoc]
      rfl
    rw [hstep]
    exact isCut_offset hsplit

theorem le_pastNext (m : Mark) (rest : List Char) : m.offset ≤ m.pastNext rest := by
  cases rest with
  | nil => exact Nat.le_refl _
  | cons c cs => exact Nat.le_add_right _ _

theorem marks_point (src : String) : (Span.point src.utf8ByteSize).Marks src := by
  have hcut : IsCut src src.utf8ByteSize :=
    ⟨src.toList, [], (List.append_nil _).symm, utf8ByteSize_eq_byteLength src⟩
  exact marks_iff.2 ⟨Nat.le_refl _, hcut, hcut⟩

/-- The span of a lexeme that is refused is one of the source. -/
theorem marks_span_locate {src : String} {before consumed rest : List Char}
    (h : src.toList = before ++ consumed ++ rest) (kind : LexErrorKind) :
    (kind.locate (Mark.origin.after before)
      (Mark.origin.after (before ++ consumed)) rest).span.Marks src := by
  have hstart : IsCut src (Mark.origin.after before).offset :=
    isCut_offset (h.trans (List.append_assoc _ _ _))
  have hhere := isCut_offset h
  have hpast := isCut_pastNext h
  have hle : (Mark.origin.after before).offset ≤
      (Mark.origin.after (before ++ consumed)).offset := by
    rw [Mark.after_append, Mark.offset_after _ consumed]
    omega
  have hnext := le_pastNext (Mark.origin.after (before ++ consumed)) rest
  cases kind with
  | unclosedString => exact marks_iff.2 ⟨hle, hstart, hhere⟩
  | invalidNumber => exact marks_iff.2 ⟨Nat.le_trans hle hnext, hstart, hpast⟩
  | missingClose | endOfInput | invalidSymbol | freeClose | loneMinus | lineBreak | secondPoint =>
    exact marks_iff.2 ⟨hnext, hhere, hpast⟩

theorem marks_locate {src : String} {before consumed rest : List Char}
    (h : src.toList = before ++ consumed ++ rest) (kind : LexErrorKind) :
    (Failure.lexSpan src (kind.locate (Mark.origin.after before)
      (Mark.origin.after (before ++ consumed)) rest)).Marks src := by
  have hspan := marks_span_locate h kind
  cases kind with
  | missingClose | endOfInput => exact marks_point src
  | unclosedString | invalidNumber | invalidSymbol | freeClose | loneMinus | lineBreak
  | secondPoint => exact hspan

theorem Reader.next_eq_error {l l' : Reader} {e : LexError} (h : l.next = (.error e, l'))
    (hne : dropTrivia false l.rest ≠ []) :
    ∃ c cs kind, dropTrivia false l.rest = c :: cs ∧ (read l.depth c cs).verdict = .error kind ∧
      e = LexErrorKind.locate kind (l.mark.after (trivia false l.rest))
        ((l.mark.after (trivia false l.rest)).after (read l.depth c cs).consumed)
        (read l.depth c cs).rest := by
  unfold next at h
  dsimp only at h
  split at h
  · next hahead => exact absurd hahead hne
  · next c cs hahead =>
    split at h
    · cases h
    · next kind hrefused =>
      cases h
      exact ⟨c, cs, kind, hahead, hrefused, rfl⟩

/-- **An error of the lexer marks a part of the source.** -/
theorem marks_of_lex_error {src : String} {e : LexError} (h : lex src = .error e) :
    (Failure.lexSpan src e).Marks src := by
  obtain ⟨ts, l, hreads, hend⟩ := Reader.exists_reads_until (Reader.ofString src)
  have htokens := Reader.tokens_of_reads hreads
  rw [lex_eq, htokens] at h
  rw [Reader.ofString_eq] at hreads
  have hstart : (⟨0, ⟨1, 0⟩⟩ : Mark) = Mark.origin.after [] := rfl
  obtain ⟨ps, hsrc, -, -, hmark⟩ := Reader.exists_pieces hreads hstart
  rw [List.nil_append] at hmark
  rcases hend with hend | ⟨hne, e', l', hnext⟩
  · -- the source ends inside a form
    rw [Reader.tokens_of_end hend] at h
    split at h
    · cases h
    · cases h
      exact marks_point src
  · rw [Reader.tokens_of_next_error hnext] at h
    cases h
    obtain ⟨c, cs, kind, hahead, -, rfl⟩ := Reader.next_eq_error hnext hne
    rw [hmark, ← Mark.after_append, ← Mark.after_append]
    refine marks_locate ?_ kind
    rw [List.append_assoc, List.append_assoc, consumed_append_rest_read, ← hahead,
      trivia_append_dropTrivia]
    exact hsrc

end SmallScheme
