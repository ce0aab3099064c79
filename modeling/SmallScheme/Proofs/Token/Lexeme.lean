import SmallScheme.Token.Lexer

/-!
Lexemes: how the text ahead is split into blanks and comments and one lexeme after them, without
regard to where in the source it stands. `trivia` and `dropTrivia` are the two parts of a text
at its first lexeme, and `read` says what the lexeme there is, or why there is none.

* `Starts depth c cs r` — the cases of `read`, by the first character (`starts_read`,
  `read_of_starts`);
* `trivia_append_dropTrivia`, `consumed_append_rest_read`: nothing is lost on the way.
-/

namespace SmallScheme

open Text (isBlank)

/-! ## characters -/

def isStringChar (c : Char) : Bool := c != '"' && c != '\n'

/-! ## blanks and comments -/

/-- The blanks and comments at the start of a text, where `comment` says that a comment is
already open. A comment runs from `;` through the end of its line. -/
def trivia (comment : Bool) : List Char → List Char
  | [] => []
  | c :: cs =>
    if comment then c :: trivia (c != '\n') cs
    else if c = ';' then c :: trivia true cs
    else if isBlank c then c :: trivia false cs
    else []

/-- What follows the blanks and comments at the start of a text. -/
def dropTrivia (comment : Bool) : List Char → List Char
  | [] => []
  | c :: cs =>
    if comment then dropTrivia (c != '\n') cs
    else if c = ';' then dropTrivia true cs
    else if isBlank c then dropTrivia false cs
    else c :: cs

theorem trivia_append_dropTrivia (cs : List Char) :
    ∀ comment, trivia comment cs ++ dropTrivia comment cs = cs := by
  induction cs with
  | nil => intro comment; rfl
  | cons c cs ih =>
    intro comment
    simp only [trivia, dropTrivia]
    repeat' split
    all_goals simp [ih]

/-! ## lexemes -/

/-- The outcome of reading one lexeme: its kind and text or what is wrong, the characters that
were read, and those that were not. -/
structure Reading where
  verdict : Except LexErrorKind (TokenKind × List Char)
  consumed : List Char
  rest : List Char

namespace Reading

/-- A lexeme that is its own text. -/
def plain (kind : TokenKind) (lexeme rest : List Char) : Reading :=
  ⟨.ok (kind, lexeme), lexeme, rest⟩

/-- A refusal after the characters `consumed`. -/
def refusal (kind : LexErrorKind) (consumed rest : List Char) : Reading :=
  ⟨.error kind, consumed, rest⟩

/-- A string, of which the opening double quote stands before `cs`. -/
def string (cs : List Char) : Reading :=
  let body := cs.takeWhile isStringChar
  match cs.dropWhile isStringChar with
  | [] => refusal .unclosedString ('"' :: body) []
  | c :: rest =>
    if c = '"' then ⟨.ok (.string, body), '"' :: (body ++ ['"']), rest⟩
    else refusal .lineBreak ('"' :: body) (c :: rest)

/-- A text that can follow a number. -/
def endsNumber : List Char → Bool
  | [] => true
  | c :: _ => isNumberEnd c

/-- A number that is complete, if what follows can follow a number. -/
def closeNumber (kind : TokenKind) (lexeme rest : List Char) : Reading :=
  if endsNumber rest then plain kind lexeme rest else refusal .invalidNumber lexeme rest

/-- A number whose whole part `whole` and decimal point are read. -/
def fraction (whole rest : List Char) : Reading :=
  let lexeme := whole ++ '.' :: rest.takeWhile Char.isDigit
  match rest.dropWhile Char.isDigit with
  | '.' :: after => refusal .secondPoint lexeme ('.' :: after)
  | after => closeNumber .float lexeme after

/-- A number of which the sign, if any, is read. -/
def number (sign cs : List Char) : Reading :=
  let whole := sign ++ cs.takeWhile Char.isDigit
  match cs.dropWhile Char.isDigit with
  | '.' :: rest => fraction whole rest
  | rest => closeNumber .integer whole rest

def identifier (cs : List Char) : Reading :=
  plain .identifier (cs.takeWhile isIdentifierChar) (cs.dropWhile isIdentifierChar)

/-- A lexeme that starts with a minus sign: a number before a digit, else an identifier. -/
def minus (cs : List Char) : Reading :=
  match cs with
  | [] => identifier ['-']
  | next :: _ =>
    if next.isDigit then number ['-'] cs
    else if isDelimiter next || isIdentifierChar next then identifier ('-' :: cs)
    else refusal .loneMinus [] ('-' :: cs)

end Reading

/-- Reads the lexeme that starts with `c` and goes on in `cs`, where `depth` parentheses are
open. -/
def read (depth : Nat) (c : Char) (cs : List Char) : Reading :=
  if c = '(' then .plain .paren ['('] cs
  else if c = ')' then
    if depth = 0 then .refusal .freeClose [] (')' :: cs) else .plain .paren [')'] cs
  else if c = '\'' then
    if cs.isEmpty then .refusal .endOfInput [] ['\''] else .plain .quote ['\''] cs
  else if c = '"' then .string cs
  else if c.isDigit then .number [] (c :: cs)
  else if c = '-' then .minus cs
  else if isIdentifierStart c then .identifier (c :: cs)
  else .refusal .invalidSymbol [] (c :: cs)

/-! ## numbers -/

namespace Reading

/-- A number goes on after its digits exactly if a decimal point follows them. -/
theorem number_eq (sign cs : List Char) :
    number sign cs =
      if (cs.dropWhile Char.isDigit).head? = some '.' then
        fraction (sign ++ cs.takeWhile Char.isDigit) (cs.dropWhile Char.isDigit).tail
      else closeNumber .integer (sign ++ cs.takeWhile Char.isDigit)
        (cs.dropWhile Char.isDigit) := by
  unfold number
  dsimp only
  split
  · next rest hpoint => rw [hpoint]; rfl
  · next hpoint =>
    rw [if_neg]
    intro hhead
    obtain ⟨rest, hrest⟩ := List.head?_eq_some_iff.1 hhead
    exact hpoint rest hrest

theorem fraction_eq (whole rest : List Char) :
    fraction whole rest =
      if (rest.dropWhile Char.isDigit).head? = some '.' then
        refusal .secondPoint (whole ++ '.' :: rest.takeWhile Char.isDigit)
          (rest.dropWhile Char.isDigit)
      else closeNumber .float (whole ++ '.' :: rest.takeWhile Char.isDigit)
        (rest.dropWhile Char.isDigit) := by
  unfold fraction
  dsimp only
  split
  · next after hpoint => rw [hpoint]; rfl
  · next hpoint =>
    rw [if_neg]
    intro hhead
    obtain ⟨after, hafter⟩ := List.head?_eq_some_iff.1 hhead
    exact hpoint after hafter

/-! ## what is read and what is not -/

theorem consumed_append_rest_string (cs : List Char) :
    (string cs).consumed ++ (string cs).rest = '"' :: cs := by
  have h := List.takeWhile_append_dropWhile (p := isStringChar) (l := cs)
  unfold string
  dsimp only
  split
  · next heq => rw [heq] at h; simpa [refusal] using h
  · next c rest heq =>
    rw [heq] at h
    split
    · next hc => subst hc; simpa using h
    · simpa [refusal] using h

@[simp]
theorem consumed_closeNumber (kind : TokenKind) (lexeme rest : List Char) :
    (closeNumber kind lexeme rest).consumed = lexeme := by
  unfold closeNumber
  split <;> rfl

@[simp]
theorem rest_closeNumber (kind : TokenKind) (lexeme rest : List Char) :
    (closeNumber kind lexeme rest).rest = rest := by
  unfold closeNumber
  split <;> rfl

theorem consumed_append_rest_fraction (whole rest : List Char) :
    (fraction whole rest).consumed ++ (fraction whole rest).rest = whole ++ '.' :: rest := by
  have h := List.takeWhile_append_dropWhile (p := Char.isDigit) (l := rest)
  unfold fraction
  dsimp only
  split
  · next after heq => rw [heq] at h; simp [refusal, h]
  · simp [h]

theorem consumed_append_rest_number (sign cs : List Char) :
    (number sign cs).consumed ++ (number sign cs).rest = sign ++ cs := by
  have h := List.takeWhile_append_dropWhile (p := Char.isDigit) (l := cs)
  unfold number
  dsimp only
  split
  · next rest heq => rw [heq] at h; rw [consumed_append_rest_fraction]; simp [h]
  · simp [h]

theorem consumed_append_rest_identifier (cs : List Char) :
    (identifier cs).consumed ++ (identifier cs).rest = cs :=
  List.takeWhile_append_dropWhile

theorem consumed_append_rest_minus (cs : List Char) :
    (minus cs).consumed ++ (minus cs).rest = '-' :: cs := by
  unfold minus
  split
  · exact consumed_append_rest_identifier _
  · split
    · simpa using consumed_append_rest_number ['-'] _
    · split
      · exact consumed_append_rest_identifier _
      · rfl

theorem consumed_ne_nil_of_number {sign cs : List Char}
    (h : sign ++ cs.takeWhile Char.isDigit ≠ []) :
    (number sign cs).consumed ≠ [] := by
  unfold number
  dsimp only
  split
  · unfold fraction
    dsimp only
    split <;> simp [refusal]
  · simpa using h

theorem consumed_ne_nil_of_identifier {c : Char} {cs : List Char} (h : isIdentifierChar c) :
    (identifier (c :: cs)).consumed ≠ [] := by
  simp [identifier, plain, List.takeWhile_cons_of_pos h]

theorem consumed_ne_nil_of_string (cs : List Char) : (string cs).consumed ≠ [] := by
  unfold string
  dsimp only
  split
  · exact List.cons_ne_nil _ _
  · split <;> exact List.cons_ne_nil _ _

theorem consumed_ne_nil_of_minus {cs : List Char} {lexeme : TokenKind × List Char}
    (hok : (minus cs).verdict = .ok lexeme) : (minus cs).consumed ≠ [] := by
  revert hok
  unfold minus
  split
  · exact fun _ => consumed_ne_nil_of_identifier (by decide)
  · split
    · exact fun _ => consumed_ne_nil_of_number (by simp)
    · split
      · exact fun _ => consumed_ne_nil_of_identifier (by decide)
      · rintro ⟨⟩

end Reading

/-! ## the cases of a lexeme -/

/-- A character that is a token by itself or starts a string. -/
def isMark (c : Char) : Bool := ['(', ')', '\'', '"'].contains c

theorem ne_of_not_isMark {c : Char} (h : isMark c = false) :
    c ≠ '(' ∧ c ≠ ')' ∧ c ≠ '\'' ∧ c ≠ '"' := by
  simpa [isMark] using h

/-- The lexeme that starts with a character and goes on in a text is read as `r`. -/
inductive Starts (depth : Nat) : Char → List Char → Reading → Prop
  | opening (cs : List Char) : Starts depth '(' cs (.plain .paren ['('] cs)
  | closing (cs : List Char) : depth ≠ 0 → Starts depth ')' cs (.plain .paren [')'] cs)
  | freeClose (cs : List Char) : depth = 0 →
      Starts depth ')' cs (.refusal .freeClose [] (')' :: cs))
  | quote {cs : List Char} : cs ≠ [] → Starts depth '\'' cs (.plain .quote ['\''] cs)
  | lastQuote : Starts depth '\'' [] (.refusal .endOfInput [] ['\''])
  | string (cs : List Char) : Starts depth '"' cs (.string cs)
  | number {c : Char} (cs : List Char) : isMark c = false → c.isDigit →
      Starts depth c cs (.number [] (c :: cs))
  | minus (cs : List Char) : Starts depth '-' cs (.minus cs)
  | identifier {c : Char} (cs : List Char) : isMark c = false → c.isDigit = false → c ≠ '-' →
      isIdentifierStart c → Starts depth c cs (.identifier (c :: cs))
  | symbol {c : Char} (cs : List Char) : isMark c = false → c.isDigit = false → c ≠ '-' →
      isIdentifierStart c = false → Starts depth c cs (.refusal .invalidSymbol [] (c :: cs))

theorem starts_read (depth : Nat) (c : Char) (cs : List Char) :
    Starts depth c cs (read depth c cs) := by
  unfold read
  split
  · next h => subst h; exact .opening cs
  next hopen =>
  split
  · next h =>
    subst h
    split
    · next hdepth => exact .freeClose cs hdepth
    · next hdepth => exact .closing cs hdepth
  next hclose =>
  split
  · next h =>
    subst h
    cases cs with
    | nil => exact .lastQuote
    | cons d ds => exact .quote (List.cons_ne_nil d ds)
  next hquote =>
  split
  · next h => subst h; exact .string cs
  next hstring =>
  have hmark : isMark c = false := by simp [isMark, hopen, hclose, hquote, hstring]
  split
  · next hdigit => exact .number cs hmark hdigit
  next hdigit =>
  split
  · next h => subst h; exact .minus cs
  next hminus =>
  split
  · next hstart => exact .identifier cs hmark (by simpa using hdigit) hminus hstart
  · next hstart =>
    exact .symbol cs hmark (by simpa using hdigit) hminus (by simpa using hstart)

theorem read_of_starts {depth : Nat} {c : Char} {cs : List Char} {r : Reading}
    (h : Starts depth c cs r) : read depth c cs = r := by
  unfold read
  cases h with
  | opening => rfl
  | closing _ hdepth => simp [hdepth]
  | freeClose _ hdepth => simp [hdepth]
  | quote hne => simp [hne]
  | lastQuote => rfl
  | string => rfl
  | minus => rfl
  | number _ h hdigit =>
    obtain ⟨h₁, h₂, h₃, h₄⟩ := ne_of_not_isMark h
    simp [h₁, h₂, h₃, h₄, hdigit]
  | identifier _ h hdigit hminus hstart =>
    obtain ⟨h₁, h₂, h₃, h₄⟩ := ne_of_not_isMark h
    simp [h₁, h₂, h₃, h₄, hdigit, hminus, hstart]
  | symbol _ h hdigit hminus hstart =>
    obtain ⟨h₁, h₂, h₃, h₄⟩ := ne_of_not_isMark h
    simp [h₁, h₂, h₃, h₄, hdigit, hminus, hstart]

theorem consumed_append_rest_read (depth : Nat) (c : Char) (cs : List Char) :
    (read depth c cs).consumed ++ (read depth c cs).rest = c :: cs := by
  have hstarts := starts_read depth c cs
  generalize read depth c cs = r at hstarts ⊢
  cases hstarts with
  | opening | closing | freeClose | quote | lastQuote | symbol => rfl
  | string => exact Reading.consumed_append_rest_string cs
  | number => exact Reading.consumed_append_rest_number [] (c :: cs)
  | minus => exact Reading.consumed_append_rest_minus cs
  | identifier => exact Reading.consumed_append_rest_identifier (c :: cs)

theorem consumed_ne_nil_of_read {depth : Nat} {c : Char} {cs : List Char}
    {lexeme : TokenKind × List Char} (hok : (read depth c cs).verdict = .ok lexeme) :
    (read depth c cs).consumed ≠ [] := by
  have hstarts := starts_read depth c cs
  generalize read depth c cs = r at hok hstarts ⊢
  cases hstarts with
  | opening | closing | quote => exact List.cons_ne_nil _ _
  | freeClose | lastQuote | symbol => cases hok
  | string => exact Reading.consumed_ne_nil_of_string cs
  | number _ _ hdigit => exact Reading.consumed_ne_nil_of_number (by simp [hdigit])
  | minus => exact Reading.consumed_ne_nil_of_minus hok
  | identifier _ _ _ _ hstart =>
    exact Reading.consumed_ne_nil_of_identifier (by simp [isIdentifierChar, hstart])

end SmallScheme
