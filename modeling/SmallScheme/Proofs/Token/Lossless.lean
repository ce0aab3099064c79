import SmallScheme.Proofs.Text.Slice
import SmallScheme.Proofs.Token.Spelling

/-!
Lexing loses nothing: the tokens of a source and what stands between them make up the source.

* `gapsBefore`, `lastStop`: the places around tokens;
* `Spells.pairwise`, `Spells.slice?_span`, `Spells.slice?_gap`, `Spells.slice?_lastGap`: where the
  tokens that spell a text stand in a source that ends with the text;
* `Tokenizes src ts` — all that a source and its tokens have to do with each other, and
  `tokenizes_of_lex`.
-/

namespace SmallScheme

/-! ## places around tokens -/

/-- The spans before each of some tokens, from the byte `start` on. -/
def gapsBefore (start : Nat) : List Token → List Span
  | [] => []
  | t :: ts => ⟨start, t.span.start⟩ :: gapsBefore t.span.stop ts

/-- The byte after the last of some tokens, or `start` if there is none. -/
def lastStop (start : Nat) : List Token → Nat
  | [] => start
  | t :: ts => lastStop t.span.stop ts

namespace Spells

variable {src : String} {n : Nat} {text : List Char} {ts : List Token}

theorem bytes_token {before gap rest : List Char} {t : Token}
    (h : src.toList = before ++ (gap ++ t.literal.toList ++ rest))
    (hspan : t.span = ⟨byteLength before + byteLength gap,
      byteLength before + byteLength gap + byteLength t.literal.toList⟩) :
    src.toList = before ++ gap ++ t.literal.toList ++ rest ∧
    t.span.start = byteLength (before ++ gap) ∧
    t.span.stop = byteLength (before ++ gap ++ t.literal.toList) := by
  refine ⟨?_, ?_, ?_⟩
  · rw [h]
    simp only [List.append_assoc]
  · rw [hspan, byteLength_append]
  · rw [hspan, byteLength_append, byteLength_append]

theorem start_lt_stop {t : Token} {gap : List Char} (hshape : t.kind.Shape t.text.toList)
    (hspan : t.span = ⟨n + byteLength gap, n + byteLength gap + byteLength t.literal.toList⟩) :
    t.span.start < t.span.stop := by
  have hne := TokenKind.spell_ne_nil_of_shape hshape
  rw [← Token.toList_literal] at hne
  rw [hspan]
  cases hliteral : t.literal.toList with
  | nil => exact absurd hliteral hne
  | cons c cs =>
    have hpos := c.utf8Size_pos
    simp only [byteLength_cons]
    omega

theorem shape (h : Spells n text ts) : ∀ t ∈ ts, t.kind.Shape t.text.toList := by
  induction h with
  | done => intro t ht; cases ht
  | token _ hshape _ _ _ ih =>
    intro u hu
    rcases List.mem_cons.1 hu with rfl | hu
    · exact hshape
    · exact ih u hu

/-- The tokens start at or after the text, and none of them is empty. -/
theorem start_bounds (h : Spells n text ts) :
    ∀ t ∈ ts, n ≤ t.span.start ∧ t.span.start < t.span.stop := by
  induction h with
  | done => intro t ht; cases ht
  | @token n gap rest t ts _ hshape _ hspan _ ih =>
    have hlt := start_lt_stop hshape hspan
    have hstart : n ≤ t.span.start := by
      rw [hspan]
      exact Nat.le_add_right n _
    intro u hu
    rcases List.mem_cons.1 hu with rfl | hu
    · exact ⟨hstart, hlt⟩
    · have hbounds := ih u hu
      exact ⟨by omega, hbounds.2⟩

theorem pairwise (h : Spells n text ts) :
    ts.Pairwise fun t u => t.span.start < u.span.start ∧ t.span.stop ≤ u.span.start := by
  induction h with
  | done => exact .nil
  | token _ hshape _ hspan hrest ih =>
    have hlt := start_lt_stop hshape hspan
    refine .cons (fun u hu => ?_) ih
    have hbounds := hrest.start_bounds u hu
    exact ⟨by omega, hbounds.1⟩

theorem slice?_span (h : Spells n text ts) : ∀ {before : List Char},
    src.toList = before ++ text → n = byteLength before → ∀ t ∈ ts,
      slice? src t.span = some t.literal ∧ t.kind.EndsBefore (charAt? src t.span.stop) := by
  induction h with
  | done => intro _ _ _ t ht; cases ht
  | token _ _ hends hspan _ ih =>
    intro before hsrc hn u hu
    subst hn
    obtain ⟨hsplit, hstart, hstop⟩ := bytes_token hsrc hspan
    rcases List.mem_cons.1 hu with rfl | hu
    · constructor
      · exact slice?_eq_some_iff.2 ⟨_, _, hsplit, hstart, by rw [hstop, byteLength_append]⟩
      · rw [hstop, charAt?_eq_head? hsplit]
        exact hends
    · exact ih hsplit hstop u hu

theorem slice?_gap (h : Spells n text ts) : ∀ {before : List Char},
    src.toList = before ++ text → n = byteLength before → ∀ s ∈ gapsBefore n ts,
      ∃ gap, slice? src s = some gap ∧ Filler false gap.toList := by
  induction h with
  | done => intro _ _ _ s hs; cases hs
  | @token n gap rest t ts hgap _ _ hspan _ ih =>
    intro before hsrc hn s hs
    subst hn
    obtain ⟨hsplit, hstart, hstop⟩ := bytes_token hsrc hspan
    rcases List.mem_cons.1 hs with rfl | hs
    · have hslice : slice? src ⟨byteLength before, t.span.start⟩ = some (String.ofList gap) := by
        refine slice?_eq_some_iff.2 ⟨before, t.literal.toList ++ rest, ?_, rfl, ?_⟩
        · rw [hsplit, String.toList_ofList, List.append_assoc]
        · rw [hstart, String.toList_ofList, byteLength_append]
      exact ⟨_, hslice, by rwa [String.toList_ofList]⟩
    · exact ih hsplit hstop s hs

theorem slice?_lastGap (h : Spells n text ts) : ∀ {before : List Char},
    src.toList = before ++ text → n = byteLength before →
      ∃ gap, slice? src ⟨lastStop n ts, byteLength src.toList⟩ = some gap ∧
        Filler true gap.toList := by
  induction h with
  | @done n gap hgap =>
    intro before hsrc hn
    refine ⟨String.ofList gap, slice?_eq_some_iff.2 ⟨before, [], ?_, hn, ?_⟩, ?_⟩
    · rw [hsrc, String.toList_ofList, List.append_nil]
    · rw [hsrc, String.toList_ofList, byteLength_append]
    · rwa [String.toList_ofList]
  | token _ _ _ hspan _ ih =>
    intro before hsrc hn
    subst hn
    obtain ⟨hsplit, -, hstop⟩ := bytes_token hsrc hspan
    exact ih hsplit hstop

end Spells

/-! ## sources and their tokens -/

theorem slice?_of_lex {src : String} {ts : List Token} (h : lex src = .ok ts) :
    ∀ t ∈ ts, slice? src t.span = some t.literal := by
  intro t ht
  have hsrc : src.toList = [] ++ src.toList := rfl
  exact ((spells_of_lex h).slice?_span hsrc rfl t ht).1

/-- What a source and its tokens have to do with each other. -/
structure Tokenizes (src : String) (ts : List Token) : Prop where
  /-- A token is the part of the source that it marks, as it is written. -/
  slice : ∀ t ∈ ts, t.span.start < t.span.stop ∧ slice? src t.span = some t.literal
  /-- The tokens stand one after the other. -/
  ordered : ts.Pairwise fun t u => t.span.start < u.span.start ∧ t.span.stop ≤ u.span.start
  /-- Before each token there is only filler. -/
  gap : ∀ s ∈ gapsBefore 0 ts, ∃ gap, slice? src s = some gap ∧ Filler false gap.toList
  /-- So it is after the last one. -/
  lastGap : ∃ gap, slice? src ⟨lastStop 0 ts, byteLength src.toList⟩ = some gap ∧
    Filler true gap.toList
  /-- The text of a token is one of its kind. -/
  shape : ∀ t ∈ ts, t.kind.Shape t.text.toList
  /-- A number with a decimal point has one. -/
  point : ∀ t ∈ ts, t.kind = .float → t.text.toList.count '.' = 1
  /-- A token ends where one of its kind can. -/
  next : ∀ t ∈ ts, t.kind.EndsBefore (charAt? src t.span.stop)
  /-- No parenthesis is closed before it is opened. -/
  opened : ∀ k, (ts.take k).countP Token.isClose ≤ (ts.take k).countP Token.isOpen
  /-- Every parenthesis is closed. -/
  closed : ts.countP Token.isOpen = ts.countP Token.isClose

/-- **Lexing is lossless.** -/
theorem tokenizes_of_lex {src : String} {ts : List Token} (h : lex src = .ok ts) :
    Tokenizes src ts := by
  have hspells := spells_of_lex h
  have hsrc : src.toList = [] ++ src.toList := rfl
  obtain ⟨l, hreads, -, hdepth⟩ := exists_reads_of_lex h
  have hstart : (Reader.ofString src).depth = 0 := by rw [Reader.ofString_eq]
  exact {
    slice := fun t ht =>
      ⟨(hspells.start_bounds t ht).2, (hspells.slice?_span hsrc rfl t ht).1⟩
    ordered := hspells.pairwise
    gap := hspells.slice?_gap hsrc rfl
    lastGap := hspells.slice?_lastGap hsrc rfl
    shape := hspells.shape
    point := fun t ht hkind =>
      TokenKind.count_point_of_shape (hkind ▸ hspells.shape t ht)
    next := fun t ht => (hspells.slice?_span hsrc rfl t ht).2
    opened := by
      intro k
      rw [← List.take_append_drop k ts] at hreads
      obtain ⟨m, hm⟩ := Reader.exists_reads_of_reads_append hreads
      have hcount := Reader.depth_add_of_reads hm
      omega
    closed := by
      have hcount := Reader.depth_add_of_reads hreads
      omega }

/-- A source with characters of more than one byte, a comment, and a token of each kind but one. -/
theorem tokenizes_of_lex_letters :
    ∃ ts, lex "é \"ß\";;\n'(-1.)" = .ok ts ∧ ts.length = 6 ∧
      Tokenizes "é \"ß\";;\n'(-1.)" ts := by
  have h : lex "é \"ß\";;\n'(-1.)" = .ok
      [⟨"é", .identifier, ⟨1, 0⟩, ⟨0, 2⟩⟩, ⟨"ß", .string, ⟨1, 2⟩, ⟨3, 7⟩⟩,
        ⟨"'", .quote, ⟨2, 0⟩, ⟨10, 11⟩⟩, ⟨"(", .paren, ⟨2, 1⟩, ⟨11, 12⟩⟩,
        ⟨"-1.", .float, ⟨2, 2⟩, ⟨12, 15⟩⟩, ⟨")", .paren, ⟨2, 5⟩, ⟨15, 16⟩⟩] :=
    lex_eq_of_within 9 rfl
  exact ⟨_, h, rfl, tokenizes_of_lex h⟩

end SmallScheme
