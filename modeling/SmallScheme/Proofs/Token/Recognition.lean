import SmallScheme.Proofs.Token.Spelling

/-!
Lexemes are recognized: what is spelled as a lexeme, and stands where a lexeme of its kind can end,
is read as that lexeme. This is the converse of `read_spelled`.

* `IsBoundary c` — a blank, a closing parenthesis or the start of a comment, which ends every
  lexeme; `not_isIdentifierChar_of_boundary`, `not_isDigit_of_boundary`;
* `Lexeme` — a kind with a text of this kind; `Lexeme.StandsBefore x next`, what may follow it so
  that it is read as it is;
* `Lexeme.readsAs`: a lexeme that stands before such a character is read;
* `trivia_filler`: what stands between lexemes is passed over.
-/

namespace SmallScheme

open Text (isAlphabetic isBlank)

/-! ## characters -/

theorem Text.Ranges.exists_of_holds {r : Text.Ranges} {n : Nat} (h : r.holds n) :
    ∃ p ∈ r, p.1 ≤ n ∧ n ≤ p.2 := by
  induction r with
  | nil => cases h
  | cons p r ih =>
    obtain ⟨lo, hi⟩ := p
    simp only [Text.Ranges.holds] at h
    split at h
    · cases h
    · next hlo =>
      rcases Bool.or_eq_true_iff.1 h with hhi | hrest
      · exact ⟨(lo, hi), by simp, by simpa using hlo, by simpa using hhi⟩
      · obtain ⟨q, hq, hn⟩ := ih hrest
        exact ⟨q, by simp [hq], hn⟩

theorem isDigit_iff {c : Char} : c.isDigit ↔ 0x30 ≤ c.toNat ∧ c.toNat ≤ 0x39 := by
  simp [Char.isDigit, UInt32.le_iff_toNat_le]

theorem not_isAlphabetic_of_isBlank {c : Char} (h : isBlank c) : ¬isAlphabetic c := by
  -- both classes are tables of ranges, so it is enough that no two of the ranges meet
  have hapart : ∀ p ∈ Text.blank, ∀ q ∈ Text.alphabetic, p.2 < q.1 ∨ q.2 < p.1 := by
    decide +kernel
  intro hletter
  obtain ⟨p, hp, hlo, hhi⟩ := Text.Ranges.exists_of_holds h
  obtain ⟨q, hq, hlo', hhi'⟩ := Text.Ranges.exists_of_holds hletter
  have := hapart p hp q hq
  omega

theorem not_isAlphabetic_of_isDigit {c : Char} (h : c.isDigit) : ¬isAlphabetic c := by
  have hapart : ∀ q ∈ Text.alphabetic, 0x39 < q.1 := by decide +kernel
  intro hletter
  obtain ⟨q, hq, hlo, -⟩ := Text.Ranges.exists_of_holds hletter
  have := hapart q hq
  have := (isDigit_iff.1 h).2
  omega

theorem not_isDigit_of_isBlank {c : Char} (h : isBlank c) : ¬c.isDigit := by
  have hapart : ∀ p ∈ Text.blank, p.2 < 0x30 ∨ 0x39 < p.1 := by decide
  intro hdigit
  obtain ⟨p, hp, hlo, hhi⟩ := Text.Ranges.exists_of_holds h
  have := hapart p hp
  have := isDigit_iff.1 hdigit
  omega

theorem not_of_all_not {P : Char → Bool} {ds : List Char} (h : ds.all fun d => !P d) {c : Char}
    (hc : c ∈ ds) : ¬P c := by
  simpa using List.all_eq_true.1 h c hc

theorem isIdentifierStart_iff {c : Char} :
    isIdentifierStart c ↔ isAlphabetic c ∨ c ∈ ['?', '!', '-', '_', '+', '*', '/'] := by
  rw [isIdentifierStart, Bool.or_eq_true, List.contains_iff_mem]

theorem not_isIdentifierStart_of_isDigit {c : Char} (h : c.isDigit) : ¬isIdentifierStart c := by
  have hmarks : ['?', '!', '-', '_', '+', '*', '/'].all (fun d => !d.isDigit) := by decide
  rw [isIdentifierStart_iff]
  rintro (hletter | hmark)
  · exact not_isAlphabetic_of_isDigit h hletter
  · exact not_of_all_not hmarks hmark h

theorem not_isIdentifierStart_of_isBlank {c : Char} (h : isBlank c) : ¬isIdentifierStart c := by
  have hmarks : ['?', '!', '-', '_', '+', '*', '/'].all (fun d => !isBlank d) := by decide
  rw [isIdentifierStart_iff]
  rintro (hletter | hmark)
  · exact not_isAlphabetic_of_isBlank h hletter
  · exact not_of_all_not hmarks hmark h

/-- A character that no lexeme goes on over. -/
def IsBoundary (c : Char) : Prop := isBlank c ∨ c = ')' ∨ c = ';'

theorem isDelimiter_of_boundary {c : Char} (h : IsBoundary c) : isDelimiter c := by
  rcases h with h | rfl | rfl
  · simp [isDelimiter, h]
  · decide
  · decide

theorem not_isDigit_of_boundary {c : Char} (h : IsBoundary c) : ¬c.isDigit := by
  rcases h with h | rfl | rfl
  · exact not_isDigit_of_isBlank h
  · decide
  · decide

theorem not_isIdentifierChar_of_boundary {c : Char} (h : IsBoundary c) : ¬isIdentifierChar c := by
  intro hc
  rcases Bool.or_eq_true_iff.1 hc with hstart | hdigit
  · rcases h with h | rfl | rfl
    · exact not_isIdentifierStart_of_isBlank h hstart
    · exact absurd hstart (by decide)
    · exact absurd hstart (by decide)
  · exact not_isDigit_of_boundary h hdigit

/-! ## lexemes -/

/-- A kind of token and a text of this kind. -/
structure Lexeme where
  kind : TokenKind
  text : String
  shape : kind.Shape text.toList

namespace Lexeme

/-- The token without a place. -/
def bare (x : Lexeme) : Token := ⟨x.text, x.kind, ⟨0, 0⟩, ⟨0, 0⟩⟩

def written (x : Lexeme) : List Char := x.kind.spell x.text.toList

/-- The lexeme is read as it is before the character `next`, or at the end of a source if there is
none. A minus sign by itself asks for more than other names do. -/
def StandsBefore (x : Lexeme) (next : Option Char) : Prop :=
  x.kind.EndsBefore next ∧ (x.kind = .identifier → x.text = "-" → ∀ c, next = some c → isDelimiter c)

theorem standsBefore_of_boundary (x : Lexeme) {c : Char} (h : IsBoundary c) :
    x.StandsBefore (some c) := by
  constructor
  · obtain ⟨kind, text, shape⟩ := x
    cases kind with
    | paren | string => trivial
    | quote => simp [TokenKind.EndsBefore]
    | identifier => rintro d ⟨⟩; exact not_isIdentifierChar_of_boundary h
    | integer | float => rintro d ⟨⟩; exact h
  · rintro - - d ⟨⟩
    exact isDelimiter_of_boundary h

theorem standsBefore_none (x : Lexeme) (h : x.kind ≠ .quote) : x.StandsBefore none := by
  constructor
  · obtain ⟨kind, text, shape⟩ := x
    cases kind with
    | quote => exact absurd rfl h
    | paren | string => trivial
    | identifier | integer | float => rintro d ⟨⟩
  · rintro - - d ⟨⟩

theorem standsBefore_of_paren (x : Lexeme) (h : x.kind = .paren) (next : Option Char) :
    x.StandsBefore next := by
  constructor
  · rw [h]
    trivial
  · rw [h]
    rintro ⟨⟩

end Lexeme

/-! ## readings -/

theorem span_append_of_head {P : Char → Bool} {cs rest : List Char} (hcs : ∀ c ∈ cs, P c)
    (hrest : ∀ c, rest.head? = some c → ¬P c) :
    (cs ++ rest).takeWhile P = cs ∧ (cs ++ rest).dropWhile P = rest := by
  rw [List.takeWhile_append_of_pos hcs, List.dropWhile_append_of_pos hcs]
  cases rest with
  | nil => simp
  | cons c rest => simp [hrest c rfl]

namespace Reading

theorem string_of_shape {text : List Char} (h : TokenKind.Shape .string text) (rest : List Char) :
    string (text ++ '"' :: rest) = ⟨.ok (.string, text), '"' :: (text ++ ['"']), rest⟩ := by
  have htext : ∀ c ∈ text, isStringChar c := by
    intro c hc
    have hquote : c ≠ '"' := fun heq => h.1 (heq ▸ hc)
    have hbreak : c ≠ '\n' := fun heq => h.2 (heq ▸ hc)
    simp [isStringChar, hquote, hbreak]
  have hquote : ∀ c, ('"' :: rest).head? = some c → ¬isStringChar c := by
    rintro c ⟨⟩
    decide
  obtain ⟨htake, hdrop⟩ := span_append_of_head htext hquote
  unfold string
  rw [htake, hdrop]
  rfl

theorem closeNumber_of_ends {kind : TokenKind} (lexeme : List Char) {rest : List Char}
    (h : ∀ c, rest.head? = some c → IsBoundary c) :
    closeNumber kind lexeme rest = plain kind lexeme rest := by
  refine if_pos ?_
  cases rest with
  | nil => rfl
  | cons c cs => simpa [endsNumber, isNumberEnd, IsBoundary, or_assoc] using h c rfl

theorem head_digits {rest : List Char} (h : ∀ c, rest.head? = some c → IsBoundary c) :
    (∀ c, rest.head? = some c → ¬c.isDigit) ∧ rest.head? ≠ some '.' := by
  constructor
  · intro c hc
    exact not_isDigit_of_boundary (h c hc)
  · intro hpoint
    exact absurd (h '.' hpoint) (by unfold IsBoundary; decide)

theorem number_of_digits {sign digits rest : List Char} (hdigits : ∀ c ∈ digits, c.isDigit)
    (h : ∀ c, rest.head? = some c → IsBoundary c) :
    number sign (digits ++ rest) = plain .integer (sign ++ digits) rest := by
  obtain ⟨hrest, hpoint⟩ := head_digits h
  obtain ⟨htake, hdrop⟩ := span_append_of_head hdigits hrest
  rw [number_eq, htake, hdrop, if_neg hpoint, closeNumber_of_ends _ h]

theorem number_of_point {sign whole fraction rest : List Char} (hwhole : ∀ c ∈ whole, c.isDigit)
    (hfraction : ∀ c ∈ fraction, c.isDigit) (h : ∀ c, rest.head? = some c → IsBoundary c) :
    number sign (whole ++ '.' :: (fraction ++ rest)) =
      plain .float (sign ++ whole ++ '.' :: fraction) rest := by
  obtain ⟨hrest, hpoint⟩ := head_digits h
  have hdot : ∀ c, ('.' :: (fraction ++ rest)).head? = some c → ¬c.isDigit := by
    rintro c ⟨⟩
    decide
  obtain ⟨htake, hdrop⟩ := span_append_of_head hwhole hdot
  obtain ⟨htake', hdrop'⟩ := span_append_of_head hfraction hrest
  rw [number_eq, htake, hdrop, List.head?_cons, if_pos rfl, List.tail_cons, fraction_eq, htake',
    hdrop', if_neg hpoint, closeNumber_of_ends _ h]

theorem identifier_of_shape {cs rest : List Char} (hcs : ∀ c ∈ cs, isIdentifierChar c)
    (h : TokenKind.EndsBefore .identifier rest.head?) :
    identifier (cs ++ rest) = plain .identifier cs rest := by
  obtain ⟨htake, hdrop⟩ := span_append_of_head hcs h
  rw [identifier, htake, hdrop]

theorem minus_of_isDigit {c : Char} (h : c.isDigit) (cs : List Char) :
    minus (c :: cs) = number ['-'] (c :: cs) := if_pos h

theorem minus_of_identifier {cs : List Char} (hdigit : ∀ c, cs.head? = some c → ¬c.isDigit)
    (h : ∀ c, cs.head? = some c → isDelimiter c ∨ isIdentifierChar c) :
    minus cs = identifier ('-' :: cs) := by
  cases cs with
  | nil => rfl
  | cons c cs => simp [minus, hdigit c rfl, h c rfl]

end Reading

section Read

variable (depth : Nat)

theorem not_isMark_of_class {p : Char → Bool} {c : Char}
    (hmarks : ['(', ')', '\'', '"'].all fun d => !p d) (h : p c) : isMark c = false := by
  rw [isMark, ← Bool.not_eq_true, List.contains_iff_mem]
  exact fun hc => not_of_all_not hmarks hc h

theorem read_of_isDigit {c : Char} (h : c.isDigit) (cs : List Char) :
    read depth c cs = .number [] (c :: cs) :=
  read_of_starts (.number cs (not_isMark_of_class (by decide) h) h)

theorem read_of_isIdentifierStart {c : Char} (h : isIdentifierStart c) (hminus : c ≠ '-')
    (cs : List Char) : read depth c cs = .identifier (c :: cs) := by
  have hdigit : ¬c.isDigit := fun hc => not_isIdentifierStart_of_isDigit hc h
  exact read_of_starts
    (.identifier cs (not_isMark_of_class (by decide) h) (by simpa using hdigit) hminus h)

theorem read_minus (cs : List Char) : read depth '-' cs = .minus cs := rfl

end Read

/-- A lexeme that is spelled `spelled` is ahead, with `rest` after it, and is read. -/
def ReadsAs (depth : Nat) (kind : TokenKind) (text spelled rest : List Char) : Prop :=
  ∃ c cs, spelled ++ rest = c :: cs ∧ ¬isBlank c ∧ c ≠ ';' ∧
    read depth c cs = ⟨.ok (kind, text), spelled, rest⟩

section ReadsAs

variable {depth : Nat} {rest : List Char}

theorem readsAs_of_number {kind : TokenKind} {sign cs text : List Char}
    (hsign : sign = [] ∨ sign = ['-']) (hcs : ∃ c, cs.head? = some c ∧ c.isDigit)
    (htext : sign ++ cs = text ++ rest) (h : Reading.number sign cs = .plain kind text rest) :
    ReadsAs depth kind text text rest := by
  obtain ⟨c, hc, hdigit⟩ := hcs
  obtain ⟨cs, rfl⟩ := List.head?_eq_some_iff.1 hc
  rcases hsign with rfl | rfl
  · have hcomment : c ≠ ';' := by
      rintro rfl
      exact absurd hdigit (by decide)
    refine ⟨c, cs, htext.symm, fun hblank => not_isDigit_of_isBlank hblank hdigit, hcomment, ?_⟩
    rw [read_of_isDigit depth hdigit, h]
    rfl
  · refine ⟨'-', c :: cs, htext.symm, by decide, by decide, ?_⟩
    rw [read_minus, Reading.minus_of_isDigit hdigit, h]
    rfl

theorem exists_digit_of_digits {digits : List Char} (hne : digits ≠ [])
    (h : ∀ c ∈ digits, c.isDigit) (rest : List Char) :
    ∃ c, (digits ++ rest).head? = some c ∧ c.isDigit := by
  cases digits with
  | nil => exact absurd rfl hne
  | cons c cs => exact ⟨c, rfl, h c (by simp)⟩

theorem readsAs_of_integer {text : List Char} (hshape : TokenKind.Shape .integer text)
    (h : ∀ c, rest.head? = some c → IsBoundary c) : ReadsAs depth .integer text text rest := by
  obtain ⟨sign, digits, rfl, hsign, hne, hdigits⟩ := hshape
  exact readsAs_of_number hsign (exists_digit_of_digits hne hdigits rest)
    (List.append_assoc ..).symm (Reading.number_of_digits hdigits h)

theorem readsAs_of_float {text : List Char} (hshape : TokenKind.Shape .float text)
    (h : ∀ c, rest.head? = some c → IsBoundary c) : ReadsAs depth .float text text rest := by
  obtain ⟨sign, whole, fraction, rfl, hsign, hne, hwhole, hfraction⟩ := hshape
  refine readsAs_of_number hsign (exists_digit_of_digits hne hwhole _) ?_
    (Reading.number_of_point hwhole hfraction h)
  simp

theorem readsAs_of_identifier {text : List Char} (hshape : TokenKind.Shape .identifier text)
    (h : TokenKind.EndsBefore .identifier rest.head?)
    (hminus : text = ['-'] → ∀ c, rest.head? = some c → isDelimiter c) :
    ReadsAs depth .identifier text text rest := by
  obtain ⟨c, cs, rfl, hstart, hcs, hdigit⟩ := hshape
  have hword : ∀ d ∈ c :: cs, isIdentifierChar d := by
    intro d hd
    rcases List.mem_cons.1 hd with rfl | hd
    · simp [isIdentifierChar, hstart]
    · exact hcs d hd
  have hread : read depth c (cs ++ rest) = .identifier (c :: cs ++ rest) := by
    by_cases hc : c = '-'
    · subst hc
      rw [read_minus]
      refine Reading.minus_of_identifier ?_ ?_
      · intro d hd
        cases cs with
        | nil => exact fun hdd => h d hd (by simp [isIdentifierChar, hdd])
        | cons e es => exact hdigit rfl d hd
      · intro d hd
        cases cs with
        | nil => exact Or.inl (hminus rfl d hd)
        | cons e es =>
          cases hd
          exact Or.inr (hcs d (by simp))
    · exact read_of_isIdentifierStart depth hstart hc _
  have hcomment : c ≠ ';' := by
    rintro rfl
    exact absurd hstart (by decide)
  refine ⟨c, cs ++ rest, rfl, ?_, hcomment, ?_⟩
  · exact fun hblank => not_isIdentifierStart_of_isBlank hblank hstart
  · rw [hread, Reading.identifier_of_shape hword h]
    rfl

/-- **Lexemes are recognized.** A closing parenthesis has to find one open. -/
theorem Lexeme.readsAs (x : Lexeme) (h : x.StandsBefore rest.head?)
    (hclose : x.bare.isClose → depth ≠ 0) :
    ReadsAs depth x.kind x.text.toList x.written rest := by
  obtain ⟨kind, text, shape⟩ := x
  cases kind with
  | paren =>
    rcases shape with hopen | hshut
    · simp only [written, TokenKind.spell, reduceCtorEq, if_false, hopen]
      exact ⟨'(', rest, rfl, by decide, by decide, rfl⟩
    · have hdepth : depth ≠ 0 := by
        refine hclose ?_
        have htext : text = ")" := String.toList_inj.1 hshut
        simp [bare, Token.isClose, htext]
      simp only [written, TokenKind.spell, reduceCtorEq, if_false, hshut]
      exact ⟨')', rest, rfl, by decide, by decide, read_of_starts (.closing rest hdepth)⟩
  | quote =>
    have hrest : rest ≠ [] := by
      have hends := h.1
      simpa [TokenKind.EndsBefore] using hends
    have htext : text.toList = ['\''] := shape
    simp only [written, TokenKind.spell, reduceCtorEq, if_false, htext]
    exact ⟨'\'', rest, rfl, by decide, by decide, read_of_starts (.quote hrest)⟩
  | string =>
    refine ⟨'"', text.toList ++ '"' :: rest, ?_, by decide, by decide, ?_⟩
    · simp [written, TokenKind.spell]
    · exact Reading.string_of_shape shape rest
  | identifier =>
    refine readsAs_of_identifier shape h.1 fun htext => h.2 rfl ?_
    exact String.toList_inj.1 htext
  | integer => exact readsAs_of_integer shape h.1
  | float => exact readsAs_of_float shape h.1

end ReadsAs

/-! ## gaps -/

theorem trivia_comment {text : List Char} (h : '\n' ∉ text) (cs : List Char) :
    trivia true (text ++ '\n' :: cs) = text ++ '\n' :: trivia false cs ∧
      dropTrivia true (text ++ '\n' :: cs) = dropTrivia false cs := by
  induction text with
  | nil => simp [trivia, dropTrivia]
  | cons c text ih =>
    obtain ⟨hc, htext⟩ := not_or.1 (mt List.mem_cons.2 h)
    have hopen : (c != '\n') = true := by simpa using Ne.symm hc
    obtain ⟨htrivia, hdrop⟩ := ih htext
    simp [trivia, dropTrivia, hopen, htrivia, hdrop]

theorem trivia_filler {gap : List Char} (h : Filler false gap) (cs : List Char) :
    trivia false (gap ++ cs) = gap ++ trivia false cs ∧
      dropTrivia false (gap ++ cs) = dropTrivia false cs := by
  generalize hlast : false = last at h
  induction h with
  | nil => exact ⟨rfl, rfl⟩
  | @blank last c gap hblank _ ih =>
    subst hlast
    have hcomment : c ≠ ';' := by
      rintro rfl
      exact absurd hblank (by decide)
    obtain ⟨htrivia, hdrop⟩ := ih rfl
    simp [trivia, dropTrivia, hcomment, hblank, htrivia, hdrop]
  | @comment last text gap htext _ ih =>
    subst hlast
    obtain ⟨htrivia, hdrop⟩ := ih rfl
    obtain ⟨hcomment, hdropped⟩ := trivia_comment htext (gap ++ cs)
    simp [trivia, dropTrivia, hcomment, hdropped, htrivia, hdrop]
  | lastComment => cases hlast

theorem isBoundary_of_filler {gap : List Char} {c : Char} (h : Filler false gap)
    (hc : gap.head? = some c) : IsBoundary c := by
  cases h with
  | nil => cases hc
  | blank hblank => cases hc; exact Or.inl hblank
  | comment => cases hc; exact Or.inr (Or.inr rfl)

end SmallScheme
