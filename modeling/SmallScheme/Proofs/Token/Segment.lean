import SmallScheme.Proofs.Place.Moving
import SmallScheme.Proofs.Text.Slice
import SmallScheme.Proofs.Token.Pieces

/-!
Parts of a source that are whole runs of tokens.

* `exists_pieces_of_lex`: a source that lexes is put together from pieces that can stand where they
  are, with blanks and comments after the last;
* `Stand.of_append`, `Stand.cut`: so can some of them by themselves, without what is around them;
* `moved_tokensAfter`: the tokens of some pieces are the same, moved, wherever the pieces stand;
* `lex_segment`: hence the part of a source from the start of one token to the end of another lexes
  to the tokens from the one to the other.
-/

namespace SmallScheme

/-! ## sources as pieces -/

theorem isDelimiter_of_read_minus {depth : Nat} {c : Char} {cs : List Char}
    (h : (read depth c cs).verdict = .ok (.identifier, ['-'])) {next : Char}
    (hnext : (read depth c cs).rest.head? = some next) : isDelimiter next := by
  have hspelled := read_spelled h
  have hsplit := consumed_append_rest_read depth c cs
  rw [hspelled.consumed] at hsplit
  obtain ⟨rfl, hrest⟩ := List.cons.inj hsplit
  obtain ⟨ds, hds⟩ := List.head?_eq_some_iff.1 hnext
  have hends : ¬isIdentifierChar next := hspelled.follows next hnext
  obtain rfl : cs = next :: ds := hrest.symm.trans hds
  rw [read_minus] at h
  simp only [Reading.minus] at h
  by_cases hdigit : next.isDigit
  · exact absurd (by simp [isIdentifierChar, hdigit]) hends
  · rw [if_neg hdigit] at h
    split at h
    · next hword => simpa [hends] using hword
    · cases h

namespace Reader

/-- The piece that a call reads. -/
theorem exists_piece {l l' : Reader} {t : Token} {before : List Char}
    (h : l.next = (.ok (some t), l')) (hmark : l.mark = Mark.origin.after before) :
    ∃ p : Piece, l.rest = p.source ++ l'.rest ∧ p.token before = t ∧
      p.StandsBefore l'.rest.head? ∧ l'.mark = Mark.origin.after (before ++ p.source) := by
  obtain ⟨c, cs, kind, text, hahead, hok, rfl, rfl⟩ := next_eq_token h
  have hspelled := read_spelled hok
  have hfiller := (filler_trivia l.rest).1
  rw [hahead] at hfiller
  have hshape : kind.Shape (String.ofList text).toList := by
    rw [String.toList_ofList]
    exact hspelled.shape
  have hwritten : kind.spell (String.ofList text).toList = (read l.depth c cs).consumed := by
    rw [String.toList_ofList, hspelled.consumed]
  refine ⟨⟨⟨kind, String.ofList text, hshape⟩, trivia false l.rest, hfiller⟩, ?_, ?_, ?_, ?_⟩
  · rw [Piece.source, Lexeme.written, hwritten, List.append_assoc, consumed_append_rest_read,
      ← hahead, trivia_append_dropTrivia]
  · simp only [Piece.token, Piece.source, Lexeme.written, hwritten, tokenOf, hmark,
      Mark.offset_after, Mark.after_append, Mark.origin, byteLength_append, Nat.zero_add,
      Nat.add_assoc]
  · refine ⟨hspelled.follows, ?_⟩
    rintro rfl htext next hnext
    have hminus : text = ['-'] := by
      rw [← String.toList_ofList (l := text)]
      exact congrArg String.toList htext
    rw [hminus] at hok
    exact isDelimiter_of_read_minus hok hnext
  · rw [Piece.source, Lexeme.written, hwritten, hmark]
    simp only [Mark.after_append]

theorem exists_pieces {l l' : Reader} {ts : List Token} (h : Reads l ts l') :
    ∀ {before : List Char}, l.mark = Mark.origin.after before →
      ∃ ps : List Piece, l.rest = sourceOf ps ++ l'.rest ∧ tokensAfter before ps = ts ∧
        Stand l'.rest ps ∧ l'.mark = Mark.origin.after (before ++ sourceOf ps) := by
  induction h with
  | done l =>
    intro before hmark
    exact ⟨[], rfl, rfl, trivial, by rw [hmark, sourceOf, List.flatMap_nil, List.append_nil]⟩
  | token hnext _ ih =>
    intro before hmark
    obtain ⟨p, hsource, htoken, hstands, hmark'⟩ := exists_piece hnext hmark
    obtain ⟨ps, hrest, htokens, hstand, hend⟩ := ih hmark'
    refine ⟨p :: ps, ?_, ?_, ⟨?_, hstand⟩, ?_⟩
    · rw [hsource, hrest, sourceOf_cons, List.append_assoc]
    · rw [tokensAfter, htoken, htokens]
    · rw [← hrest]
      exact hstands
    · rw [hend, sourceOf_cons, List.append_assoc]

end Reader

theorem exists_pieces_of_lex {src : String} {ts : List Token} (h : lex src = .ok ts) :
    ∃ ps last, src.toList = sourceOf ps ++ last ∧ tokensAfter [] ps = ts ∧ Stand last ps ∧
      dropTrivia false last = [] := by
  obtain ⟨l, hreads, hend, -⟩ := exists_reads_of_lex h
  rw [Reader.ofString_eq] at hreads
  have hstart : (⟨0, ⟨1, 0⟩⟩ : Mark) = Mark.origin.after [] := rfl
  obtain ⟨ps, hrest, htokens, hstand, -⟩ := Reader.exists_pieces hreads hstart
  exact ⟨ps, l.rest, hrest, htokens, hstand, hend⟩

/-! ## some pieces by themselves -/

theorem Piece.source_ne_nil (p : Piece) : p.source ≠ [] := by
  have hne := TokenKind.spell_ne_nil_of_shape p.shape
  rw [Piece.source, Lexeme.written]
  simp [hne]

/-- The piece without what is before its lexeme. -/
def Piece.bared (p : Piece) : Piece := ⟨p.toLexeme, [], .nil⟩

namespace Stand

variable {last : List Char} {p : Piece} {ps qs : List Piece}

theorem of_append (h : Stand last (ps ++ qs)) : Stand last qs := by
  induction ps with
  | nil => exact h
  | cons p ps ih => exact ih h.2

/-- At the end of a source, too, pieces can stand that are no quote marks. -/
theorem cut (h : Stand last (ps ++ qs)) (hquote : ∀ p ∈ ps, p.kind ≠ .quote) : Stand [] ps := by
  induction ps with
  | nil => trivial
  | cons p ps ih =>
    refine ⟨?_, ih h.2 fun q hq => hquote q (List.mem_cons_of_mem _ hq)⟩
    cases ps with
    | nil => exact p.standsBefore_none (hquote p List.mem_cons_self)
    | cons q rs =>
      have hstands : p.StandsBefore (sourceOf (q :: (rs ++ qs)) ++ last).head? := h.1
      rw [sourceOf_cons, List.append_assoc, List.head?_append_of_ne_nil _ q.source_ne_nil]
        at hstands
      rw [sourceOf_cons, List.append_assoc, List.head?_append_of_ne_nil _ q.source_ne_nil]
      exact hstands

theorem bared (h : Stand last (p :: ps)) : Stand last (p.bared :: ps) := h

end Stand

/-! ## tokens of some pieces -/

theorem exists_of_tokensAfter {us vs : List Token} : ∀ {ps : List Piece} {before : List Char},
    tokensAfter before ps = us ++ vs → ∃ qs rs, ps = qs ++ rs ∧ tokensAfter before qs = us ∧
      tokensAfter (before ++ sourceOf qs) rs = vs := by
  induction us with
  | nil =>
    intro ps before h
    refine ⟨[], ps, rfl, rfl, ?_⟩
    rw [sourceOf, List.flatMap_nil, List.append_nil]
    exact h
  | cons t us ih =>
    intro ps before h
    cases ps with
    | nil => cases h
    | cons p ps =>
      obtain ⟨rfl, hrest⟩ := List.cons.inj h
      obtain ⟨qs, rs, rfl, rfl, hrs⟩ := ih hrest
      refine ⟨p :: qs, rs, rfl, rfl, ?_⟩
      rw [sourceOf_cons, ← List.append_assoc]
      exact hrs

theorem getLast?_tokensAfter {t : Token} : ∀ {ps : List Piece} {before : List Char},
    (tokensAfter before ps).getLast? = some t → t.span.stop = byteLength (before ++ sourceOf ps)
  | [], _, h => by cases h
  | [p], before, h => by
    cases h
    rw [sourceOf_cons, sourceOf, List.flatMap_nil, List.append_nil]
    rfl
  | p :: q :: ps, before, h => by
    rw [tokensAfter, tokensAfter, List.getLast?_cons_cons] at h
    rw [sourceOf_cons, ← List.append_assoc]
    exact getLast?_tokensAfter h

theorem not_quote_of_tokensAfter {ps : List Piece} {before : List Char}
    (h : ∀ t ∈ tokensAfter before ps, t.kind ≠ .quote) : ∀ p ∈ ps, p.kind ≠ .quote := by
  intro p hp
  have hmem : p.bare ∈ (tokensAfter before ps).map Token.erase := by
    rw [erase_tokensAfter]
    exact List.mem_map_of_mem hp
  obtain ⟨t, ht, hbare⟩ := List.mem_map.1 hmem
  have hsame : t.kind = p.kind := congrArg Token.kind hbare
  rw [← hsame]
  exact h t ht

theorem Piece.moved_token {a b : List Char} {bytes : Nat} (h : byteLength b = byteLength a + bytes)
    (p : Piece) : (p.token a).moved bytes = (p.token b).moved 0 := by
  simp only [Token.moved, Piece.token, Span.shift, byteLength_append, Token.mk.injEq,
    Span.mk.injEq, true_and]
  omega

/-- Only the length of the text before them tells the places of some pieces. -/
theorem moved_tokensAfter {bytes : Nat} (ps : List Piece) : ∀ {a b : List Char},
    byteLength b = byteLength a + bytes →
      (tokensAfter a ps).map (Token.moved bytes) = (tokensAfter b ps).map (Token.moved 0) := by
  induction ps with
  | nil => intro a b _; rfl
  | cons p ps ih =>
    intro a b h
    have hrest : byteLength (b ++ p.source) = byteLength (a ++ p.source) + bytes := by
      rw [byteLength_append, byteLength_append]
      omega
    rw [tokensAfter, tokensAfter, List.map_cons, List.map_cons, p.moved_token h, ih hrest]

theorem moved_tokensAfter_bared (before : List Char) (p : Piece) (ps : List Piece) :
    (tokensAfter [] (p.bared :: ps)).map (Token.moved (byteLength (before ++ p.gap))) =
      (tokensAfter before (p :: ps)).map (Token.moved 0) := by
  have hhead : (tokensAfter (before ++ p.gap) (p.bared :: ps)).map (Token.moved 0) =
      (tokensAfter before (p :: ps)).map (Token.moved 0) := by
    simp [tokensAfter, Piece.token, Piece.bared, Piece.source, Token.moved]
  rw [← hhead]
  exact moved_tokensAfter _ (Nat.zero_add _).symm

/-! ## parts of a source -/

/-- The part of a source from the lexeme of one piece to the end of another. -/
theorem slice?_pieces {src : String} {as ps cs : List Piece} {p : Piece} {rest : List Char}
    (hsrc : src.toList = sourceOf (as ++ (p :: ps ++ cs)) ++ rest) :
    slice? src ⟨byteLength (sourceOf as ++ p.gap), byteLength (sourceOf as ++ sourceOf (p :: ps))⟩ =
      some (String.ofList (sourceOf (p.bared :: ps))) := by
  have htext : sourceOf (p :: ps) = p.gap ++ sourceOf (p.bared :: ps) := by
    rw [sourceOf_cons, sourceOf_cons, Piece.source, List.append_assoc]
    rfl
  refine slice?_eq_some_iff.2 ⟨sourceOf as ++ p.gap, sourceOf cs ++ rest, ?_, rfl, ?_⟩
  · rw [hsrc, String.toList_ofList, sourceOf_append, sourceOf_append, htext]
    simp only [List.append_assoc]
  · dsimp only
    rw [String.toList_ofList, htext, byteLength_append, byteLength_append, byteLength_append]
    omega

/-- **A run of tokens is a source by itself.** The part of a source from the start of one token to
the end of another lexes to the tokens from the one to the other, from its own start on, if their
parentheses are balanced and there are no quote marks. -/
theorem lex_segment {src : String} {pre seg post : List Token}
    (h : lex src = .ok (pre ++ seg ++ post)) (hbalanced : Balanced seg)
    (hquote : ∀ t ∈ seg, t.kind ≠ .quote) {first last : Token} (hfirst : seg.head? = some first)
    (hlast : seg.getLast? = some last) :
    ∃ text us, slice? src ⟨first.span.start, last.span.stop⟩ = some text ∧ lex text = .ok us ∧
      us.map (Token.moved first.span.start) = seg.map (Token.moved 0) := by
  -- the tokens before, in and after the part are those of some pieces each
  obtain ⟨all, rest, hsrc, htokens, hstand, -⟩ := exists_pieces_of_lex h
  rw [List.append_assoc] at htokens
  obtain ⟨as, bs, rfl, -, hbs⟩ := exists_of_tokensAfter htokens
  rw [List.nil_append] at hbs
  obtain ⟨ps, cs, rfl, rfl, -⟩ := exists_of_tokensAfter hbs
  cases ps with
  | nil => cases hfirst
  | cons p ps =>
    have hstands : Stand [] (p.bared :: ps) :=
      (hstand.of_append.cut (not_quote_of_tokensAfter hquote)).bared
    have hstart : first.span.start = byteLength (sourceOf as ++ p.gap) := by
      cases hfirst
      rfl
    have hstop : last.span.stop = byteLength (sourceOf as ++ sourceOf (p :: ps)) :=
      getLast?_tokensAfter hlast
    have hbares : ((p.bared :: ps).map fun q => q.bare) =
        (tokensAfter (sourceOf as) (p :: ps)).map Token.erase := by
      rw [erase_tokensAfter]
      rfl
    have hlex := lex_eq_of_stand rfl hstands (hbares ▸ hbalanced.erase)
    rw [List.append_nil] at hlex
    rw [hstart, hstop]
    exact ⟨_, _, slice?_pieces hsrc, hlex, moved_tokensAfter_bared (sourceOf as) p ps⟩

end SmallScheme
