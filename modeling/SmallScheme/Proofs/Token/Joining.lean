import SmallScheme.Proofs.Token.Continuation
import SmallScheme.Proofs.Token.Segment

/-!
Sources that are joined by a line break.

* `Stand.beforeBreak`: whatever can stand at the end of a source can stand before a line break;
* `lex_break`: so a line break after a source that lexes changes nothing;
* `lex_append_of_lex`: what follows whole lines that lex is lexed as if it stood alone, further on,
  whether it lexes or not;
* `lexing_splits_at_line_breaks`: both together.
-/

namespace SmallScheme

/-! ## a line break at the end -/

/-- A line break ends blanks and comments, also a comment that is still open. -/
theorem dropTrivia_break {text : List Char} : ∀ {comment : Bool}, dropTrivia comment text = [] →
    dropTrivia comment (text ++ ['\n']) = [] := by
  induction text with
  | nil => intro comment _; cases comment <;> rfl
  | cons c cs ih =>
    intro comment h
    simp only [List.cons_append, dropTrivia] at h ⊢
    split at h
    · next hcomment => rw [if_pos hcomment]; exact ih h
    · next hcomment =>
      rw [if_neg hcomment]
      split at h
      · next hc => rw [if_pos hc]; exact ih h
      · next hc =>
        rw [if_neg hc]
        split at h
        · next hblank => rw [if_pos hblank]; exact ih h
        · cases h

theorem Stand.beforeBreak {last : List Char} {ps : List Piece} (h : Stand last ps) :
    Stand (last ++ ['\n']) ps := by
  induction ps with
  | nil => trivial
  | cons p ps ih =>
    refine ⟨?_, ih h.2⟩
    rw [← List.append_assoc]
    -- the piece is followed by what followed it before, or else by the line break
    by_cases hnil : sourceOf ps ++ last = []
    · rw [hnil]
      exact p.standsBefore_of_boundary (Or.inl rfl)
    · rw [List.head?_append_of_ne_nil _ hnil]
      exact h.1

theorem lex_break {src : String} {ts : List Token} (h : lex src = .ok ts) :
    lex (src ++ "\n") = .ok ts := by
  obtain ⟨ps, last, hsrc, rfl, hstand, hend⟩ := exists_pieces_of_lex h
  have hbalanced : Balanced (ps.map fun p => p.bare) := by
    rw [← erase_tokensAfter ps []]
    exact (balanced_of_lex h).erase
  have htext : src ++ "\n" = String.ofList (sourceOf ps ++ (last ++ ['\n'])) := by
    rw [← List.append_assoc, ← hsrc, String.ofList_append, String.ofList_toList]
  rw [htext]
  exact lex_eq_of_stand (dropTrivia_break hend) hstand.beforeBreak hbalanced

/-! ## whole lines and what follows them -/

/-- What follows whole lines that lex is lexed as it is by itself, further on. -/
theorem lex_append_of_lex {p : String} {ts : List Token} (hp : EndsLine p.toList)
    (h : lex p = .ok ts) {bytes lines : Nat} (hbytes : byteLength p.toList = bytes)
    (hlines : p.toList.count '\n' = lines) (s : String) :
    lex (p ++ s) = (((lex s).map (List.map (Token.shift bytes lines))).mapError
      (LexError.shift bytes lines)).map (ts ++ ·) := by
  obtain ⟨l, hreads, hend, hdepth⟩ := exists_reads_of_lex h
  have hline : EndsLine (Reader.ofString p).rest := by rwa [Reader.ofString_eq]
  obtain ⟨hmore, hrest⟩ := Reader.reads_append hreads hline s.toList
  subst hbytes hlines
  rw [lex_eq, Reader.ofString_append, Reader.tokens_of_reads hmore,
    Reader.tokens_append_of_end hrest hend, Reader.after_lines hp hreads hdepth,
    Reader.tokens_shift, lex_eq]

/-- **Lexing splits at line breaks.** Behind a source that lexes and a line break, a text gives the
tokens or the error that it gives by itself, only further on: by the bytes of the source and the
line break, and by as many lines. The tokens of the source stay as they are. -/
theorem lexing_splits_at_line_breaks {a : String} {ts : List Token} (h : lex a = .ok ts)
    (b : String) :
    (∀ us, lex b = .ok us → lex (a ++ "\n" ++ b) = .ok
      (ts ++ us.map (Token.shift (a.utf8ByteSize + 1) (a.toList.count '\n' + 1)))) ∧
    (∀ e, lex b = .error e → lex (a ++ "\n" ++ b) = .error
      (e.shift (a.utf8ByteSize + 1) (a.toList.count '\n' + 1))) := by
  have htext : (a ++ "\n").toList = a.toList ++ ['\n'] := String.toList_append
  have hline : EndsLine (a ++ "\n").toList := htext ▸ endsLine_snoc a.toList
  have hbytes : byteLength (a ++ "\n").toList = a.utf8ByteSize + 1 := by
    rw [htext, byteLength_append, utf8ByteSize_eq_byteLength]
    rfl
  have hlines : (a ++ "\n").toList.count '\n' = a.toList.count '\n' + 1 := by
    rw [htext, List.count_append]
    rfl
  have hjoined := lex_append_of_lex hline (lex_break h) hbytes hlines b
  refine ⟨fun us hus => ?_, fun e he => ?_⟩
  · rw [hjoined, hus]
    rfl
  · rw [hjoined, he]
    rfl

/-- The first text ends with a lone minus sign before a comment that nothing closes. The texts after
it are a number, and a string that breaks off. -/
theorem lexing_splits_at_line_breaks_comment :
    lex "(é)\n-;(" = .ok
      [⟨"(", .paren, ⟨1, 0⟩, ⟨0, 1⟩⟩, ⟨"é", .identifier, ⟨1, 1⟩, ⟨1, 3⟩⟩,
        ⟨")", .paren, ⟨1, 2⟩, ⟨3, 4⟩⟩, ⟨"-", .identifier, ⟨2, 0⟩, ⟨5, 6⟩⟩] ∧
    lex ("(é)\n-;(" ++ "\n" ++ " 1") = .ok
      [⟨"(", .paren, ⟨1, 0⟩, ⟨0, 1⟩⟩, ⟨"é", .identifier, ⟨1, 1⟩, ⟨1, 3⟩⟩,
        ⟨")", .paren, ⟨1, 2⟩, ⟨3, 4⟩⟩, ⟨"-", .identifier, ⟨2, 0⟩, ⟨5, 6⟩⟩,
        ⟨"1", .integer, ⟨3, 1⟩, ⟨10, 11⟩⟩] ∧
    lex ("(é)\n-;(" ++ "\n" ++ "x\n\"a") = .error ⟨.unclosedString, ⟨11, 13⟩, ⟨4, 0⟩⟩ := by
  have hfirst : lex "(é)\n-;(" = .ok
      [⟨"(", .paren, ⟨1, 0⟩, ⟨0, 1⟩⟩, ⟨"é", .identifier, ⟨1, 1⟩, ⟨1, 3⟩⟩,
        ⟨")", .paren, ⟨1, 2⟩, ⟨3, 4⟩⟩, ⟨"-", .identifier, ⟨2, 0⟩, ⟨5, 6⟩⟩] :=
    lex_eq_of_within 6 rfl
  have hnumber : lex " 1" = .ok [⟨"1", .integer, ⟨1, 1⟩, ⟨1, 2⟩⟩] := lex_eq_of_within 3 rfl
  have hstring : lex "x\n\"a" = .error ⟨.unclosedString, ⟨2, 4⟩, ⟨2, 0⟩⟩ := lex_eq_of_within 3 rfl
  exact ⟨hfirst, (lexing_splits_at_line_breaks hfirst " 1").1 _ hnumber,
    (lexing_splits_at_line_breaks hfirst "x\n\"a").2 _ hstring⟩

end SmallScheme
