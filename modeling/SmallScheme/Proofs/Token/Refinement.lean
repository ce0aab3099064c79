import SmallScheme.Proofs.Token.Reader

/-!
The lexer and a reader of the same source. The lexer keeps two characters in its cursor and passes
one at a time; a reader has the whole text ahead and cuts a lexeme off it.

* `Lexer.ofReader r` — the lexer whose cursor stands where the reader `r` is;
* `Lexer.advance_ofReader`: one character is passed as `Mark.step` says, and so it is where the
  input ends;
* `Lexer.skip_ofReader`, `Lexer.takeIdentifier_ofReader`, `Lexer.takeNumber_digits`,
  `Lexer.takeString_chars`: each loop goes through the text that the reader cuts off, by induction
  on the text ahead;
* `Lexer.tokenAt_ofReader`, `Lexer.next_ofReader`: a call gives what `Reader.next` gives, and its
  cursor is then where the reader is;
* `lex_eq`: so the tokens of a source are those of a reader.
-/

namespace SmallScheme

open Text (isBlank)

namespace Lexer

/-- The lexer whose cursor stands where a reader is. -/
def ofReader (r : Reader) : Lexer where
  position := r.mark.offset
  nextPosition := r.mark.pastNext r.rest
  ch := r.rest.head?
  nextCh := r.rest.tail.head?
  input := (charIndices r.mark.offset r.rest).drop 2
  line := r.mark.position.line
  column := r.mark.position.column
  depth := r.depth

theorem depth_ofReader (r : Reader) : (ofReader r).depth = r.depth := rfl

/-! ## one character -/

section Cursor

variable (m : Mark) (c : Char) (cs : List Char) (depth : Nat)

/-- The index that is taken from the input and the one that is counted are the same. -/
theorem advance_ofReader :
    (ofReader ⟨m, c :: cs, depth⟩).advance = ofReader ⟨m.step c, cs, depth⟩ := by
  by_cases hbreak : c = '\n'
  · subst hbreak
    rcases cs with _ | ⟨d, _ | ⟨e, cs⟩⟩ <;> rfl
  · rcases cs with _ | ⟨d, _ | ⟨e, cs⟩⟩ <;>
      simp [advance, ofReader, Mark.step, Mark.pastNext, hbreak, charIndices]

theorem advance_ofReader_nil :
    (ofReader ⟨m, [], depth⟩).advance = ofReader ⟨m, [], depth⟩ := rfl

theorem ofChars_eq (base : Nat) : ofChars base cs = ofReader (Reader.ofChars base cs) := by
  rcases cs with _ | ⟨c, _ | ⟨d, cs⟩⟩ <;> rfl

theorem max_pastNext : max (m.pastNext cs) m.offset = m.pastNext cs := by
  cases cs with
  | nil => exact Nat.max_self _
  | cons c cs => exact Nat.max_eq_left (Nat.le_add_right _ _)

theorem errorHere_ofReader (kind : LexErrorKind) : (ofReader ⟨m, cs, depth⟩).errorHere kind =
    ⟨kind, ⟨m.offset, m.pastNext cs⟩, m.position⟩ := by
  simp only [errorHere, here, ofReader, max_pastNext]

end Cursor

/-! ## the loops, one round each -/

section Round

variable (m : Mark) (c : Char) (cs : List Char) (depth : Nat) (text : String)

theorem skipComment_cons : (ofReader ⟨m, c :: cs, depth⟩).skipComment =
    if c = '\n' then ofReader ⟨m.step c, cs, depth⟩
    else (ofReader ⟨m.step c, cs, depth⟩).skipComment := by
  rw [skipComment]
  split
  · next h => cases h
  · next h => cases h; rw [advance_ofReader]

theorem skipTrivia_cons : (ofReader ⟨m, c :: cs, depth⟩).skipTrivia =
    if c = ';' then (ofReader ⟨m, c :: cs, depth⟩).skipComment.skipTrivia
    else if isBlank c then (ofReader ⟨m.step c, cs, depth⟩).skipTrivia
    else ofReader ⟨m, c :: cs, depth⟩ := by
  rw [skipTrivia]
  split
  · next h => cases h
  · next h => cases h; rw [advance_ofReader]

theorem takeIdentifier_cons : (ofReader ⟨m, c :: cs, depth⟩).takeIdentifier text =
    if isIdentifierChar c then (ofReader ⟨m.step c, cs, depth⟩).takeIdentifier (text.push c)
    else (text, ofReader ⟨m, c :: cs, depth⟩) := by
  rw [takeIdentifier]
  split
  · next h => cases h
  · next h => cases h; rw [advance_ofReader]

theorem takeNumber_cons (start : Nat) (point : Bool) :
    (ofReader ⟨m, c :: cs, depth⟩).takeNumber start text point =
      if c.isDigit then (ofReader ⟨m.step c, cs, depth⟩).takeNumber start (text.push c) point
      else if c = '.' then
        if point then
          (.error ⟨.secondPoint, ⟨m.offset, m.pastNext (c :: cs)⟩, m.position⟩,
            ofReader ⟨m, c :: cs, depth⟩)
        else (ofReader ⟨m.step c, cs, depth⟩).takeNumber start (text.push '.') true
      else
        (if isNumberEnd c then .ok (text, point)
          else .error ⟨.invalidNumber, ⟨start, m.pastNext (c :: cs)⟩, m.position⟩,
          ofReader ⟨m, c :: cs, depth⟩) := by
  rw [takeNumber]
  split
  · next h => cases h
  · next h =>
    cases h
    simp only [advance_ofReader, errorHere_ofReader]
    repeat' split
    all_goals rfl

theorem takeString_cons (start : Lexer) :
    (ofReader ⟨m, c :: cs, depth⟩).takeString start text =
      if c = '"' then (.ok text, ofReader ⟨m, c :: cs, depth⟩)
      else if c = '\n' then
        (.error ⟨.lineBreak, ⟨m.offset, m.pastNext (c :: cs)⟩, m.position⟩,
          ofReader ⟨m, c :: cs, depth⟩)
      else (ofReader ⟨m.step c, cs, depth⟩).takeString start (text.push c) := by
  rw [takeString]
  split
  · next h => cases h
  · next h => cases h; rw [advance_ofReader, errorHere_ofReader]

theorem skipComment_nil : (ofReader ⟨m, [], depth⟩).skipComment = ofReader ⟨m, [], depth⟩ := by
  rw [skipComment]
  rfl

theorem skipTrivia_nil : (ofReader ⟨m, [], depth⟩).skipTrivia = ofReader ⟨m, [], depth⟩ := by
  rw [skipTrivia]
  rfl

theorem takeIdentifier_nil :
    (ofReader ⟨m, [], depth⟩).takeIdentifier text = (text, ofReader ⟨m, [], depth⟩) := by
  rw [takeIdentifier]
  rfl

theorem takeNumber_nil (start : Nat) (point : Bool) :
    (ofReader ⟨m, [], depth⟩).takeNumber start text point =
      (.ok (text, point), ofReader ⟨m, [], depth⟩) := by
  rw [takeNumber]
  rfl

theorem takeString_nil (start : Lexer) :
    (ofReader ⟨m, [], depth⟩).takeString start text =
      (.error ⟨.unclosedString, ⟨start.position, m.offset⟩, start.here⟩,
        ofReader ⟨m, [], depth⟩) := by
  rw [takeString]
  rfl

end Round

/-! ## the loops -/

section Loops

variable (depth : Nat)

/-- Blanks and comments are passed, from outside of a comment and from within one. -/
theorem skip_ofReader (cs : List Char) : ∀ m : Mark,
    (ofReader ⟨m, cs, depth⟩).skipTrivia =
      ofReader ⟨m.after (trivia false cs), dropTrivia false cs, depth⟩ ∧
    (ofReader ⟨m, cs, depth⟩).skipComment.skipTrivia =
      ofReader ⟨m.after (trivia true cs), dropTrivia true cs, depth⟩ := by
  induction cs with
  | nil =>
    intro m
    rw [skipComment_nil, skipTrivia_nil]
    exact ⟨rfl, rfl⟩
  | cons c cs ih =>
    intro m
    obtain ⟨houtside, hinside⟩ := ih (m.step c)
    refine ⟨?_, ?_⟩
    · rw [skipTrivia_cons, trivia, dropTrivia]
      by_cases hsemicolon : c = ';'
      · subst hsemicolon
        rw [skipComment_cons]
        exact hinside
      · by_cases hblank : isBlank c
        · simpa [hsemicolon, hblank] using houtside
        · simp [hsemicolon, hblank]
    · rw [skipComment_cons, trivia, dropTrivia]
      by_cases hbreak : c = '\n'
      · subst hbreak
        exact houtside
      · rw [if_neg hbreak, hinside, (bne_iff_ne).2 hbreak]
        rfl

theorem push_append (text : String) (c : Char) (cs : List Char) :
    text.push c ++ String.ofList cs = text ++ String.ofList (c :: cs) := by
  simp [String.ext_iff]

theorem takeIdentifier_ofReader (cs : List Char) : ∀ (m : Mark) (text : String),
    (ofReader ⟨m, cs, depth⟩).takeIdentifier text =
      (text ++ String.ofList (cs.takeWhile isIdentifierChar),
        ofReader ⟨m.after (cs.takeWhile isIdentifierChar), cs.dropWhile isIdentifierChar,
          depth⟩) := by
  induction cs with
  | nil =>
    intro m text
    rw [takeIdentifier_nil]
    simp
  | cons c cs ih =>
    intro m text
    rw [takeIdentifier_cons]
    by_cases hc : isIdentifierChar c
    · rw [if_pos hc, ih, List.takeWhile_cons_of_pos hc, List.dropWhile_cons_of_pos hc, push_append]
      rfl
    · rw [if_neg hc, List.takeWhile_cons_of_neg hc, List.dropWhile_cons_of_neg hc]
      simp

/-- The digits of a number are passed, whatever comes after them. -/
theorem takeNumber_digits (start : Nat) (point : Bool) (cs : List Char) :
    ∀ (m : Mark) (text : String),
    (ofReader ⟨m, cs, depth⟩).takeNumber start text point =
      (ofReader ⟨m.after (cs.takeWhile Char.isDigit), cs.dropWhile Char.isDigit, depth⟩).takeNumber
        start (text ++ String.ofList (cs.takeWhile Char.isDigit)) point := by
  induction cs with
  | nil => intro m text; simp
  | cons c cs ih =>
    intro m text
    by_cases hc : c.isDigit
    · rw [takeNumber_cons, if_pos hc, ih, List.takeWhile_cons_of_pos hc,
        List.dropWhile_cons_of_pos hc, push_append]
      rfl
    · rw [List.takeWhile_cons_of_neg hc, List.dropWhile_cons_of_neg hc]
      simp

/-- The characters of a string are passed. -/
theorem takeString_chars (start : Lexer) (cs : List Char) : ∀ (m : Mark) (text : String),
    (ofReader ⟨m, cs, depth⟩).takeString start text =
      (ofReader ⟨m.after (cs.takeWhile isStringChar), cs.dropWhile isStringChar, depth⟩).takeString
        start (text ++ String.ofList (cs.takeWhile isStringChar)) := by
  induction cs with
  | nil => intro m text; simp
  | cons c cs ih =>
    intro m text
    by_cases hc : isStringChar c
    · obtain ⟨hquote, hbreak⟩ : c ≠ '"' ∧ c ≠ '\n' := by simpa [isStringChar] using hc
      rw [takeString_cons, if_neg hquote, if_neg hbreak, ih, List.takeWhile_cons_of_pos hc,
        List.dropWhile_cons_of_pos hc, push_append]
      rfl
    · rw [List.takeWhile_cons_of_neg hc, List.dropWhile_cons_of_neg hc]
      simp

end Loops

end Lexer

/-! ## one token -/

/-- What a reading comes to at a place: a token or an error, and the place after it. -/
def Reading.settle (r : Reading) (start : Mark) (depth : Nat) : Except LexError Token × Reader :=
  let stop := start.after r.consumed
  match r.verdict with
  | .ok (kind, text) =>
    let token : Token := ⟨String.ofList text, kind, start.position, ⟨start.offset, stop.offset⟩⟩
    (.ok token, ⟨stop, r.rest, token.depthAfter depth⟩)
  | .error kind => (.error (kind.locate start stop r.rest), ⟨stop, r.rest, depth⟩)

theorem Token.depthAfter_of_kind {t : Token} (h : t.kind ≠ .paren) (depth : Nat) :
    t.depthAfter depth = depth := by
  simp [depthAfter, isOpen, isClose, h]

theorem Reading.settle_plain {kind : TokenKind} (h : kind ≠ .paren) (lexeme rest : List Char)
    (m : Mark) (depth : Nat) : (Reading.plain kind lexeme rest).settle m depth =
      (.ok ⟨String.ofList lexeme, kind, m.position, ⟨m.offset, (m.after lexeme).offset⟩⟩,
        ⟨m.after lexeme, rest, depth⟩) := by
  simp only [settle, plain]
  rw [Token.depthAfter_of_kind h]

/-- The lexer in place of a reader. -/
def Reader.lift (x : Except LexError Token × Reader) : Except LexError Token × Lexer :=
  (x.1, Lexer.ofReader x.2)

namespace Lexer

variable (m : Mark) (depth : Nat)

theorem identifier_ofReader (cs : List Char) : (ofReader ⟨m, cs, depth⟩).identifier =
    Reader.lift ((Reading.identifier cs).settle m depth) := by
  rw [identifier, takeIdentifier_ofReader, Reading.identifier, Reading.settle_plain (by decide),
    String.empty_append]
  rfl

theorem string_ofReader (cs : List Char) : (ofReader ⟨m, '"' :: cs, depth⟩).string =
    Reader.lift ((Reading.string cs).settle m depth) := by
  rw [string, advance_ofReader, takeString_chars, Reading.string]
  cases hrest : cs.dropWhile isStringChar with
  | nil =>
    rw [takeString_nil]
    rfl
  | cons c rest =>
    rw [takeString_cons]
    dsimp only
    by_cases hquote : c = '"'
    · rw [if_pos hquote, if_pos hquote]
      dsimp only
      rw [advance_ofReader]
      simp only [Reading.settle, Reader.lift]
      rw [Token.depthAfter_of_kind (by simp), hquote]
      simp [tokenUpTo, here, ofReader]
    · -- what is no character of a string and does not end it is a line break
      have hbreak : c = '\n' := by
        have hhead := List.head?_dropWhile_not isStringChar cs
        simpa [hrest, isStringChar, hquote] using hhead
      rw [if_neg hquote, if_pos hbreak, if_neg hquote]
      rfl

/-- The end of a number, where no digit and no decimal point follows. -/
theorem numberUpTo_close {lexeme rest all : List Char} {point : Bool}
    (hdigit : rest.head?.all fun c => !c.isDigit) (hpoint : rest.head? ≠ some '.') :
    (ofReader ⟨m, all, depth⟩).numberUpTo
        ((ofReader ⟨m.after lexeme, rest, depth⟩).takeNumber m.offset (String.ofList lexeme)
          point) =
      Reader.lift ((Reading.closeNumber (if point then .float else .integer) lexeme rest).settle m
        depth) := by
  have hkind : (if point then TokenKind.float else .integer) ≠ .paren := by split <;> decide
  rw [Reading.closeNumber]
  cases rest with
  | nil =>
    have hends : Reading.endsNumber [] := rfl
    rw [takeNumber_nil, if_pos hends, Reading.settle_plain hkind]
    rfl
  | cons c rest =>
    rw [takeNumber_cons, if_neg (by simpa using hdigit), if_neg (by simpa using hpoint)]
    have hends : Reading.endsNumber (c :: rest) = isNumberEnd c := rfl
    by_cases hend : isNumberEnd c
    · rw [if_pos hend, if_pos (hends.trans hend), Reading.settle_plain hkind]
      rfl
    · rw [if_neg hend, if_neg (hends ▸ hend)]
      rfl

theorem head?_dropWhile_digit (cs : List Char) :
    (cs.dropWhile Char.isDigit).head?.all fun c => !c.isDigit := by
  have hhead := List.head?_dropWhile_not Char.isDigit cs
  cases h : (cs.dropWhile Char.isDigit).head? with
  | none => rfl
  | some c => simpa [h] using hhead

/-- The part of a number after its whole part and a decimal point. -/
theorem fraction_ofReader (whole cs all : List Char) :
    (ofReader ⟨m, all, depth⟩).numberUpTo
        ((ofReader ⟨m.after (whole ++ ['.']), cs, depth⟩).takeNumber m.offset
          (String.ofList (whole ++ ['.'])) true) =
      Reader.lift ((Reading.fraction whole cs).settle m depth) := by
  have hlexeme : whole ++ '.' :: cs.takeWhile Char.isDigit =
      whole ++ ['.'] ++ cs.takeWhile Char.isDigit := by simp
  rw [takeNumber_digits, Reading.fraction_eq, hlexeme, ← Mark.after_append, ← String.ofList_append]
  split
  · next hpoint =>
    obtain ⟨rest, hrest⟩ := List.head?_eq_some_iff.1 hpoint
    rw [hrest, takeNumber_cons]
    rfl
  · next hpoint => exact numberUpTo_close m depth (head?_dropWhile_digit cs) hpoint

theorem number_ofReader (sign cs all : List Char) :
    (ofReader ⟨m, all, depth⟩).numberUpTo
        ((ofReader ⟨m.after sign, cs, depth⟩).takeNumber m.offset (String.ofList sign) false) =
      Reader.lift ((Reading.number sign cs).settle m depth) := by
  rw [takeNumber_digits, Reading.number_eq, ← Mark.after_append, ← String.ofList_append]
  split
  · next hpoint =>
    obtain ⟨rest, hrest⟩ := List.head?_eq_some_iff.1 hpoint
    have hround : ∀ whole : List Char,
        (ofReader ⟨m.after whole, '.' :: rest, depth⟩).takeNumber m.offset (String.ofList whole)
            false =
          (ofReader ⟨m.after (whole ++ ['.']), rest, depth⟩).takeNumber m.offset
            (String.ofList (whole ++ ['.'])) true := by
      intro whole
      have hpush : (String.ofList whole).push '.' = String.ofList (whole ++ ['.']) := by
        simp [String.ext_iff]
      rw [takeNumber_cons, if_neg (by decide), if_pos rfl, Mark.after_append, hpush]
      rfl
    rw [← fraction_ofReader m depth _ _ all, hrest, hround]
    rfl
  · next hpoint => exact numberUpTo_close m depth (head?_dropWhile_digit cs) hpoint

theorem number_ofReader_digit {c : Char} (hc : c.isDigit) (cs : List Char) :
    (ofReader ⟨m, c :: cs, depth⟩).number =
      Reader.lift ((Reading.number [] (c :: cs)).settle m depth) := by
  have hsign : (ofReader ⟨m, c :: cs, depth⟩).ch ≠ some '-' := by
    intro h
    cases h
    exact absurd hc (by decide)
  rw [number, if_neg hsign, ← number_ofReader m depth [] (c :: cs) (c :: cs)]
  rfl

theorem number_ofReader_sign (cs : List Char) : (ofReader ⟨m, '-' :: cs, depth⟩).number =
    Reader.lift ((Reading.number ['-'] cs).settle m depth) := by
  have hsign : (ofReader ⟨m, '-' :: cs, depth⟩).ch = some '-' := rfl
  rw [number, if_pos hsign, advance_ofReader, ← number_ofReader m depth ['-'] cs ('-' :: cs)]
  rfl

theorem minus_ofReader (cs : List Char) : (ofReader ⟨m, '-' :: cs, depth⟩).minus =
    Reader.lift ((Reading.minus cs).settle m depth) := by
  unfold minus Reading.minus
  cases cs with
  | nil => exact identifier_ofReader m depth ['-']
  | cons next cs =>
    have hnext : (ofReader ⟨m, '-' :: next :: cs, depth⟩).nextCh = some next := rfl
    rw [hnext]
    dsimp only
    split
    · exact number_ofReader_sign m depth (next :: cs)
    split
    · exact identifier_ofReader m depth ('-' :: next :: cs)
    · rw [errorHere_ofReader]
      rfl

theorem single_ofReader (kind : TokenKind) (c : Char) (cs : List Char) :
    (ofReader ⟨m, c :: cs, depth⟩).single kind =
      (.ok ⟨String.ofList [c], kind, m.position, ⟨m.offset, (m.step c).offset⟩⟩,
        ofReader ⟨m.step c, cs, depth⟩) := by
  rw [single, advance_ofReader]
  rfl

/-- **One token.** The lexer reads it as a reader does. -/
theorem tokenAt_ofReader (c : Char) (cs : List Char) :
    (ofReader ⟨m, c :: cs, depth⟩).tokenAt c =
      Reader.lift ((read depth c cs).settle m depth) := by
  have hstarts := starts_read depth c cs
  generalize read depth c cs = r at hstarts ⊢
  unfold tokenAt
  cases hstarts with
  | opening => exact single_ofReader m (depth + 1) .paren '(' cs
  | closing _ hdepth =>
    rw [if_neg (by decide), if_pos rfl, depth_ofReader, if_neg hdepth]
    exact single_ofReader m (depth - 1) .paren ')' cs
  | freeClose _ hdepth =>
    rw [if_neg (by decide), if_pos rfl, depth_ofReader, if_pos hdepth, errorHere_ofReader]
    rfl
  | quote hne =>
    have hnext : (ofReader ⟨m, '\'' :: cs, depth⟩).nextCh.isNone = false := by
      simp [ofReader, hne]
    rw [if_neg (by decide), if_neg (by decide), if_pos rfl, if_neg (by simp [hnext]),
      single_ofReader]
    rfl
  | lastQuote =>
    have hnext : (ofReader ⟨m, ['\''], depth⟩).nextCh.isNone := rfl
    rw [if_neg (by decide), if_neg (by decide), if_pos rfl, if_pos hnext, errorHere_ofReader]
    rfl
  | string => exact string_ofReader m depth cs
  | number _ h hdigit =>
    obtain ⟨h₁, h₂, h₃, h₄⟩ := ne_of_not_isMark h
    rw [if_neg h₁, if_neg h₂, if_neg h₃, if_neg h₄, if_pos hdigit]
    exact number_ofReader_digit m depth hdigit cs
  | minus => exact minus_ofReader m depth cs
  | identifier _ h hdigit hminus hstart =>
    obtain ⟨h₁, h₂, h₃, h₄⟩ := ne_of_not_isMark h
    rw [if_neg h₁, if_neg h₂, if_neg h₃, if_neg h₄, if_neg (by simp [hdigit]), if_neg hminus,
      if_pos hstart]
    exact identifier_ofReader m depth (c :: cs)
  | symbol _ h hdigit hminus hstart =>
    obtain ⟨h₁, h₂, h₃, h₄⟩ := ne_of_not_isMark h
    rw [if_neg h₁, if_neg h₂, if_neg h₃, if_neg h₄, if_neg (by simp [hdigit]), if_neg hminus,
      if_neg (by simp [hstart]), errorHere_ofReader]
    rfl

/-- **One call.** The lexer gives what a reader gives, and its cursor is then where the reader
is. -/
theorem next_ofReader (r : Reader) : (ofReader r).next = (r.next.1, ofReader r.next.2) := by
  obtain ⟨m, rest, depth⟩ := r
  rw [next, (skip_ofReader depth rest m).1]
  unfold Reader.next
  dsimp only
  cases dropTrivia false rest with
  | nil =>
    rw [errorHere_ofReader]
    cases depth with
    | zero => rfl
    | succ depth => rfl
  | cons c cs =>
    have hch : (ofReader ⟨m.after (trivia false rest), c :: cs, depth⟩).ch = some c := rfl
    rw [hch]
    dsimp only
    rw [tokenAt_ofReader, Reading.settle]
    cases (read depth c cs).verdict with
    | error kind => rfl
    | ok lexeme => rfl

theorem tokens_eq (l : Lexer) : l.tokens = match l.next with
    | (.error e, _) => .error e
    | (.ok none, _) => .ok []
    | (.ok (some t), l') => l'.tokens.map (t :: ·) := by
  rw [tokens]
  split
  · next h => rw [h]
  · next h => rw [h]
  · next h => rw [h]

theorem tokens_ofReader (r : Reader) : (ofReader r).tokens = r.tokens := by
  induction hn : r.rest.length using Nat.strongRecOn generalizing r with
  | _ n ih =>
    rw [tokens_eq, Reader.tokens_eq, next_ofReader]
    rcases hnext : r.next with ⟨e | _ | t, r'⟩
    · rfl
    · rfl
    · have hlt := Reader.length_rest_lt_of_next hnext
      simp only [ih r'.rest.length (by omega) r' rfl]

end Lexer

theorem lex_eq (src : String) : lex src = (Reader.ofString src).tokens := by
  rw [lex, Lexer.ofString, Lexer.ofChars_eq, Lexer.tokens_ofReader]
  rfl

end SmallScheme
