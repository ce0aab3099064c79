import Mathlib.Data.List.Chain
import Mathlib.Data.List.Infix
import SmallScheme.Proofs.Token.Recognition

/-!
Sources that are put together from lexemes.

* `Closes depth ts` — where `depth` parentheses are open, the tokens `ts` close them all and none
  too many; `Balanced` is the case of none;
* `Piece` — a lexeme with the blanks and comments before it; `sourceOf ps` is the text of some
  pieces and `tokensAfter before ps` their tokens, where they stand after the text `before`;
* `Stand last ps` — each piece can stand before what follows it; `Apart p q`, which is enough for two
  neighbours, asks for something between them;
* `Reader.next_piece`, `Reader.reads_pieces`: a piece is read as its token, and so are all;
* `lex_eq_of_stand`, `lex_eq_of_apart`: so it is for whole sources.
-/

namespace SmallScheme

/-! ## parentheses -/

/-- Where `depth` parentheses are open, the tokens close none that is not open, and in the end
leave none open. -/
structure Closes (depth : Nat) (ts : List Token) : Prop where
  opened : ∀ us, us <+: ts → us.countP Token.isClose ≤ depth + us.countP Token.isOpen
  closed : ts.countP Token.isClose = depth + ts.countP Token.isOpen

/-- Every parenthesis that is opened is closed later, and none else is closed. -/
abbrev Balanced : List Token → Prop := Closes 0

instance (depth : Nat) (ts : List Token) : Decidable (Closes depth ts) :=
  decidable_of_iff
    ((∀ us ∈ ts.inits, us.countP Token.isClose ≤ depth + us.countP Token.isOpen) ∧
      ts.countP Token.isClose = depth + ts.countP Token.isOpen)
    ⟨fun h => ⟨fun us hus => h.1 us ((List.mem_inits us ts).2 hus), h.2⟩,
      fun h => ⟨fun us hus => h.opened us ((List.mem_inits us ts).1 hus), h.closed⟩⟩

namespace Closes

variable {depth : Nat} {t : Token} {ts : List Token}

theorem depth_ne_zero (h : Closes depth (t :: ts)) (hclose : t.isClose) : depth ≠ 0 := by
  have hfirst := h.opened [t] (by simp)
  simp only [List.countP_singleton, hclose, Token.isOpen_eq_false_of_isClose hclose, if_true,
    Bool.false_eq_true, if_false] at hfirst
  omega

theorem tail (h : Closes depth (t :: ts)) : Closes (t.depthAfter depth) ts := by
  have hstep := t.depthAfter_add h.depth_ne_zero
  constructor
  · -- a prefix of the rest, with the first token before it, is a prefix of the whole
    intro us hus
    have hlonger := h.opened (t :: us) (by simpa using hus)
    rw [List.countP_cons, List.countP_cons] at hlonger
    omega
  · have hwhole := h.closed
    rw [List.countP_cons, List.countP_cons] at hwhole
    omega

theorem cons (hclose : t.isClose → depth ≠ 0) (h : Closes (t.depthAfter depth) ts) :
    Closes depth (t :: ts) := by
  have hstep := t.depthAfter_add hclose
  constructor
  · intro us hus
    rcases List.prefix_cons_iff.1 hus with rfl | ⟨vs, rfl, hvs⟩
    · simp
    · have hshorter := h.opened vs hvs
      rw [List.countP_cons, List.countP_cons]
      omega
  · have hrest := h.closed
    rw [List.countP_cons, List.countP_cons]
    omega

theorem depth_of_nil (h : Closes depth []) : depth = 0 := h.closed.symm

theorem erase (h : Closes depth ts) : Closes depth (ts.map Token.erase) := by
  have hclose (us : List Token) :
      (us.map Token.erase).countP Token.isClose = us.countP Token.isClose := List.countP_map
  have hopen (us : List Token) :
      (us.map Token.erase).countP Token.isOpen = us.countP Token.isOpen := List.countP_map
  constructor
  · intro us hus
    obtain ⟨vs, hvs, rfl⟩ := List.prefix_map_iff.1 hus
    rw [hclose, hopen]
    exact h.opened vs hvs
  · rw [hclose, hopen]
    exact h.closed

end Closes

theorem Reader.closes_of_reads {l l' : Reader} {ts : List Token} (h : Reads l ts l')
    (hend : l'.depth = 0) : Closes l.depth ts := by
  constructor
  · rintro us ⟨vs, rfl⟩
    obtain ⟨m, hm⟩ := exists_reads_of_reads_append h
    have hcount := depth_add_of_reads hm
    omega
  · have hcount := depth_add_of_reads h
    omega

theorem balanced_of_lex {src : String} {ts : List Token} (h : lex src = .ok ts) : Balanced ts := by
  obtain ⟨l, hreads, -, hdepth⟩ := exists_reads_of_lex h
  exact Reader.closes_of_reads hreads hdepth

/-! ## pieces -/

/-- A lexeme in a source, with the blanks and comments before it. -/
structure Piece extends Lexeme where
  gap : List Char
  filler : Filler false gap

def Mark.origin : Mark := ⟨0, ⟨1, 0⟩⟩

namespace Piece

def source (p : Piece) : List Char := p.gap ++ p.written

/-- The token of a piece that stands after the text `before`. -/
def token (before : List Char) (p : Piece) : Token :=
  ⟨p.text, p.kind, (Mark.origin.after (before ++ p.gap)).position,
    ⟨byteLength (before ++ p.gap), byteLength (before ++ p.source)⟩⟩

end Piece

def sourceOf (ps : List Piece) : List Char := ps.flatMap Piece.source

/-- The tokens of some pieces that stand after the text `before`. -/
def tokensAfter (before : List Char) : List Piece → List Token
  | [] => []
  | p :: ps => p.token before :: tokensAfter (before ++ p.source) ps

theorem sourceOf_cons (p : Piece) (ps : List Piece) : sourceOf (p :: ps) = p.source ++ sourceOf ps :=
  List.flatMap_cons

theorem sourceOf_append (ps qs : List Piece) : sourceOf (ps ++ qs) = sourceOf ps ++ sourceOf qs :=
  List.flatMap_append

theorem erase_tokensAfter (ps : List Piece) : ∀ before,
    (tokensAfter before ps).map Token.erase = ps.map fun p => p.bare := by
  induction ps with
  | nil => intro before; rfl
  | cons p ps ih => intro before; rw [tokensAfter, List.map_cons, ih, List.map_cons]; rfl

/-! ## pieces that follow each other -/

/-- The piece `q` can stand after the piece `p`: there is something between them, or one of them is
a parenthesis that needs nothing on this side. -/
def Apart (p q : Piece) : Prop := q.gap ≠ [] ∨ p.bare.isOpen ∨ q.bare.isClose

namespace Piece

variable {p q : Piece}

theorem standsBefore_filler {last : List Char} (hlast : Filler false last) (hne : last ≠ [])
    (rest : List Char) : p.StandsBefore (last ++ rest).head? := by
  cases last with
  | nil => exact absurd rfl hne
  | cons c cs => exact p.standsBefore_of_boundary (isBoundary_of_filler hlast rfl)

theorem standsBefore_of_apart (h : Apart p q) (rest : List Char) :
    p.StandsBefore (q.source ++ rest).head? := by
  rw [source, List.append_assoc]
  by_cases hgap : q.gap = []
  · rcases h with hne | hopen | hclose
    · exact absurd hgap hne
    · exact p.standsBefore_of_paren (Token.isOpen_iff.1 hopen).1 _
    · obtain ⟨hkind, htext⟩ : q.kind = .paren ∧ q.text = ")" := Token.isClose_iff.1 hclose
      have hwritten : q.written = [')'] := by
        rw [Lexeme.written, hkind, htext]
        rfl
      rw [hgap, hwritten]
      exact p.standsBefore_of_boundary (Or.inr (Or.inl rfl))
  · exact standsBefore_filler q.filler hgap _

end Piece

/-- Each of the pieces can stand before what follows it, and the last one before the text `last`. -/
def Stand (last : List Char) : List Piece → Prop
  | [] => True
  | p :: ps => p.StandsBefore (sourceOf ps ++ last).head? ∧ Stand last ps

theorem stand_of_apart {last : List Char} (hlast : Filler false last) {ps : List Piece}
    (hapart : ps.IsChain Apart)
    (hquote : ∀ p, ps.getLast? = some p → p.kind = .quote → last ≠ []) : Stand last ps := by
  induction ps with
  | nil => trivial
  | cons p ps ih =>
    rw [List.isChain_cons] at hapart
    refine ⟨?_, ih hapart.2 fun q hq => hquote q (by rw [List.getLast?_cons, hq]; rfl)⟩
    -- after the last piece come the blanks at the end or nothing, which only a quote mark minds
    cases ps with
    | nil =>
      by_cases hnil : last = []
      · subst hnil
        exact p.standsBefore_none fun hkind => hquote p rfl hkind rfl
      · have hend := Piece.standsBefore_filler (p := p) hlast hnil []
        rwa [List.append_nil] at hend
    | cons q qs =>
      rw [sourceOf_cons, List.append_assoc]
      exact Piece.standsBefore_of_apart (hapart.1 q rfl) _

/-! ## reading pieces -/

namespace Reader

theorem next_piece (p : Piece) {before rest : List Char} {depth : Nat}
    (h : p.StandsBefore rest.head?) (hclose : p.bare.isClose → depth ≠ 0) :
    next ⟨Mark.origin.after before, p.source ++ rest, depth⟩ =
      (.ok (some (p.token before)),
        ⟨Mark.origin.after (before ++ p.source), rest, p.bare.depthAfter depth⟩) := by
  obtain ⟨c, cs, hsplit, hblank, hcomment, hread⟩ := p.readsAs h hclose
  obtain ⟨htrivia, hdrop⟩ := trivia_filler p.filler (c :: cs)
  have hstop : trivia false (c :: cs) = [] ∧ dropTrivia false (c :: cs) = c :: cs := by
    simp [trivia, dropTrivia, hblank, hcomment]
  rw [hstop.1, List.append_nil] at htrivia
  rw [hstop.2] at hdrop
  have hahead : p.source ++ rest = p.gap ++ c :: cs := by
    rw [Piece.source, List.append_assoc, hsplit]
  unfold next
  simp only [hahead, htrivia, hdrop, hread]
  have htoken : (⟨String.ofList p.text.toList, p.kind,
      ((Mark.origin.after before).after p.gap).position,
      ⟨((Mark.origin.after before).after p.gap).offset,
        (((Mark.origin.after before).after p.gap).after p.written).offset⟩⟩ : Token) =
      p.token before := by
    simp only [Piece.token, Piece.source, Mark.after_append, Mark.offset_after, byteLength_append,
      String.ofList_toList, Mark.origin, Nat.zero_add, Nat.add_assoc]
  rw [htoken, Piece.source, Mark.after_append, Mark.after_append]
  rfl

theorem reads_pieces {last : List Char} (ps : List Piece) :
    ∀ (before : List Char) {depth : Nat}, Stand last ps → Closes depth (ps.map fun p => p.bare) →
      ∃ m, Reads ⟨Mark.origin.after before, sourceOf ps ++ last, depth⟩ (tokensAfter before ps)
        ⟨m, last, 0⟩ := by
  induction ps with
  | nil =>
    intro before depth _ hcloses
    rw [hcloses.depth_of_nil]
    exact ⟨_, .done _⟩
  | cons p ps ih =>
    rintro before depth ⟨hp, hps⟩ hcloses
    obtain ⟨m, hrest⟩ := ih (before ++ p.source) hps hcloses.tail
    refine ⟨m, .token ?_ hrest⟩
    rw [sourceOf_cons, List.append_assoc]
    exact next_piece p hp hcloses.depth_ne_zero

end Reader

/-- **Pieces are lexed as they are put together.** -/
theorem lex_eq_of_stand {ps : List Piece} {last : List Char} (hlast : dropTrivia false last = [])
    (hstand : Stand last ps) (hbalanced : Balanced (ps.map fun p => p.bare)) :
    lex (String.ofList (sourceOf ps ++ last)) = .ok (tokensAfter [] ps) := by
  obtain ⟨m, hreads⟩ := Reader.reads_pieces ps [] hstand hbalanced
  rw [lex_eq, Reader.ofString_eq, String.toList_ofList]
  refine (Reader.tokens_of_reads hreads).trans ?_
  rw [Reader.tokens_of_end hlast, if_pos rfl]
  exact congrArg Except.ok (List.append_nil _)

theorem lex_eq_of_apart {ps : List Piece} {last : List Char} (hlast : Filler false last)
    (hapart : ps.IsChain Apart) (hquote : ∀ p, ps.getLast? = some p → p.kind = .quote → last ≠ [])
    (hbalanced : Balanced (ps.map fun p => p.bare)) :
    lex (String.ofList (sourceOf ps ++ last)) = .ok (tokensAfter [] ps) := by
  have hend : dropTrivia false last = [] := by
    have hdrop := (trivia_filler hlast []).2
    rwa [List.append_nil] at hdrop
  exact lex_eq_of_stand hend (stand_of_apart hlast hapart hquote) hbalanced

/-! ## separated lexemes -/

theorem isChain_apart_of_gaps {ps : List Piece} (h : ∀ p ∈ ps.tail, p.gap ≠ []) :
    ps.IsChain Apart := by
  induction ps with
  | nil => exact .nil
  | cons p ps ih =>
    refine List.isChain_cons.2 ⟨?_, ih fun q hq => h q (List.mem_of_mem_tail hq)⟩
    intro q hq
    exact Or.inl (h q (List.mem_of_mem_head? hq))

/-- **The lexer accepts its grammar.** Lexemes with balanced parentheses, separated by blanks and
comments, with blanks and comments before the first and after the last if one likes, are lexed to
just these lexemes, each where it stands. Only a quote mark at the end needs something after it. -/
theorem lex_eq_of_separated {ps : List Piece} {last : List Char} (hlast : Filler false last)
    (hgaps : ∀ p ∈ ps.tail, p.gap ≠ [])
    (hquote : ∀ p, ps.getLast? = some p → p.kind = .quote → last ≠ [])
    (hbalanced : Balanced (ps.map fun p => p.bare)) :
    lex (String.ofList (sourceOf ps ++ last)) = .ok (tokensAfter [] ps) :=
  lex_eq_of_apart hlast (isChain_apart_of_gaps hgaps) hquote hbalanced

/-- A minus sign before a comment, a number at the end of which there is only a point, and
parentheses in a comment and in a string. -/
theorem lex_eq_of_separated_call :
    lex "( -;a)\n-1. \"(;\" é\t' )\n" = .ok
      [⟨"(", .paren, ⟨1, 0⟩, ⟨0, 1⟩⟩, ⟨"-", .identifier, ⟨1, 2⟩, ⟨2, 3⟩⟩,
        ⟨"-1.", .float, ⟨2, 0⟩, ⟨7, 10⟩⟩, ⟨"(;", .string, ⟨2, 4⟩, ⟨11, 15⟩⟩,
        ⟨"é", .identifier, ⟨2, 9⟩, ⟨16, 18⟩⟩, ⟨"'", .quote, ⟨2, 11⟩, ⟨19, 20⟩⟩,
        ⟨")", .paren, ⟨2, 13⟩, ⟨21, 22⟩⟩] := by
  refine Eq.trans (congrArg lex ?_) (Eq.trans (@lex_eq_of_separated
    [⟨⟨.paren, "(", Or.inl rfl⟩, [], .nil⟩,
      ⟨⟨.identifier, "-", '-', [], rfl, rfl, by simp, by simp⟩, [' '], .blank rfl .nil⟩,
      ⟨⟨.float, "-1.", ['-'], ['1'], [], rfl, Or.inr rfl, by simp, by simp, by simp⟩,
        [';', 'a', ')', '\n'], @Filler.comment false ['a', ')'] [] (by simp) .nil⟩,
      ⟨⟨.string, "(;", by simp, by simp⟩, [' '], .blank rfl .nil⟩,
      ⟨⟨.identifier, "é", 'é', [], rfl, rfl, by simp, by simp⟩, [' '], .blank rfl .nil⟩,
      ⟨⟨.quote, "'", rfl⟩, ['\t'], .blank rfl .nil⟩,
      ⟨⟨.paren, ")", Or.inr rfl⟩, [' '], .blank rfl .nil⟩]
    ['\n'] (.blank rfl .nil) (by simp) (by simp) (by decide)) (congrArg Except.ok ?_))
  · decide
  · rfl

end SmallScheme
