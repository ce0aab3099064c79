import SmallScheme.Text.Alphabetic
import SmallScheme.Text.Hidden
import SmallScheme.Token.Error

/-!
The lexer: a cursor with two characters of look-ahead over the characters of a source. `next` reads
one token, and a lexer can be asked again after an error. `lex` reads a whole source.

* `Lexer.advance` passes one character, and every loop is made of it;
* `Lexer.size` is the measure of all loops, and `Lexer.size_lt_of_next` that of `tokens`.
-/

namespace SmallScheme

open Text (isAlphabetic isBlank)

/-! ## characters -/

/-- A character that an identifier can start with. -/
def isIdentifierStart (c : Char) : Bool :=
  isAlphabetic c || ['?', '!', '-', '_', '+', '*', '/'].contains c

/-- A character that an identifier can go on with. -/
def isIdentifierChar (c : Char) : Bool := isIdentifierStart c || c.isDigit

/-- A character that ends an identifier and is no error after one. -/
def isDelimiter (c : Char) : Bool := isBlank c || ['(', ')', ';'].contains c

/-- A character that ends a number and is no error after one. -/
def isNumberEnd (c : Char) : Bool := isBlank c || c = ')' || c = ';'

/-- The characters of a text, each with the byte at which it starts if the first one starts at
`base`. -/
def charIndices (base : Nat) : List Char → List (Nat × Char)
  | [] => []
  | c :: cs => (base, c) :: charIndices (base + c.utf8Size) cs

/-! ## the cursor -/

/-- The state of the lexer. -/
structure Lexer where
  /-- The byte at which `ch` starts. -/
  position : Nat
  /-- The byte at which `nextCh` starts. -/
  nextPosition : Nat
  ch : Option Char
  nextCh : Option Char
  /-- The characters after these two. -/
  input : List (Nat × Char)
  line : Nat
  column : Nat
  /-- The number of open parentheses. -/
  depth : Nat
  deriving Repr

namespace Lexer

/-- Passes one character. The second of the two characters becomes the first, and its successor is
taken from the input. If there is none, then the byte after the first is found from its length. -/
def advance (l : Lexer) : Lexer where
  position := l.nextPosition
  nextPosition := l.input.head?.elim (l.nextPosition + l.nextCh.elim 0 Char.utf8Size) Prod.fst
  ch := l.nextCh
  nextCh := l.input.head?.map Prod.snd
  input := l.input.tail
  line := if l.ch = some '\n' then l.line + 1 else l.line
  column := l.ch.elim l.column fun c => if c = '\n' then 0 else l.column + 1
  depth := l.depth

/-- A lexer at the start of a text, whose first character stands at the byte `base`. The cursor is
empty at first, and two steps fill it. -/
def ofChars (base : Nat) (text : List Char) : Lexer :=
  (advance ⟨0, 0, none, none, charIndices base text, 1, 0, 0⟩).advance

def ofString (src : String) : Lexer := ofChars 0 src.toList

/-- The written form of the state: the place and the two characters ahead. -/
def print (l : Lexer) : String :=
  let ahead : Option Char → String
    | none => "None"
    | some c => "Some(" ++ Text.quoted c ++ ")"
  "Lexer \x7b\n\tposition: " ++ toString l.position ++ ",\n\tline: " ++ toString l.line ++
    ", column: " ++ toString l.column ++ ",\n\tch: " ++ ahead l.ch ++ ", next_ch: " ++
    ahead l.nextCh ++ "\n\x7d"

def size (l : Lexer) : Nat := l.ch.toList.length + l.nextCh.toList.length + l.input.length

theorem size_advance (l : Lexer) : l.advance.size + l.ch.toList.length = l.size := by
  obtain ⟨_, _, ch, nextCh, input, _, _, _⟩ := l
  cases input with
  | nil => simp [size, advance]; omega
  | cons p input => simp [size, advance]; omega

theorem size_advance_lt {l : Lexer} {c : Char} (h : l.ch = some c) : l.advance.size < l.size := by
  have hsize := l.size_advance
  rw [h] at hsize
  simp at hsize
  omega

theorem size_advance_le (l : Lexer) : l.advance.size ≤ l.size := by
  have hsize := l.size_advance
  omega

/-! ## where the cursor stands -/

def here (l : Lexer) : Position := ⟨l.line, l.column⟩

/-- An error about the character at the cursor. -/
def errorHere (l : Lexer) (kind : LexErrorKind) : LexError :=
  ⟨kind, ⟨l.position, max l.nextPosition l.position⟩, l.here⟩

/-- The token that starts at one state of the cursor and ends at another. -/
def tokenUpTo (start stop : Lexer) (kind : TokenKind) (text : String) : Token :=
  ⟨text, kind, start.here, ⟨start.position, stop.position⟩⟩

/-! ## the loops -/

/-- Passes the rest of a line, and the line break with it. -/
def skipComment (l : Lexer) : Lexer :=
  match _h : l.ch with
  | none => l.advance
  | some c => if c = '\n' then l.advance else skipComment l.advance
termination_by l.size
decreasing_by exact size_advance_lt _h

theorem size_skipComment_le (l : Lexer) : l.skipComment.size ≤ l.advance.size := by
  fun_induction skipComment l with
  | case1 l _ => exact Nat.le_refl _
  | case2 l _ => exact Nat.le_refl _
  | case3 l _ _ _ ih => exact Nat.le_trans ih l.advance.size_advance_le

/-- Passes white space and comments. -/
def skipTrivia (l : Lexer) : Lexer :=
  match _h : l.ch with
  | none => l
  | some c =>
    if c = ';' then skipTrivia l.skipComment
    else if isBlank c then skipTrivia l.advance
    else l
termination_by l.size
decreasing_by
  · exact Nat.lt_of_le_of_lt l.size_skipComment_le (size_advance_lt _h)
  · exact size_advance_lt _h

/-- Adds the characters ahead to a text, as long as an identifier can hold them. -/
def takeIdentifier (l : Lexer) (text : String) : String × Lexer :=
  match _h : l.ch with
  | none => (text, l)
  | some c => if isIdentifierChar c then takeIdentifier l.advance (text.push c) else (text, l)
termination_by l.size
decreasing_by exact size_advance_lt _h

/-- Adds the characters of a number to a text, where `point` says that a decimal point is among
them already. The number starts at the byte `start`. -/
def takeNumber (l : Lexer) (start : Nat) (text : String) (point : Bool) :
    Except LexError (String × Bool) × Lexer :=
  match _h : l.ch with
  | none => (.ok (text, point), l)
  | some c =>
    if c.isDigit then takeNumber l.advance start (text.push c) point
    else if c = '.' then
      if point then (.error (l.errorHere .secondPoint), l)
      else takeNumber l.advance start (text.push '.') true
    else if isNumberEnd c then (.ok (text, point), l)
    else
      let e := l.errorHere .invalidNumber
      (.error { e with span := ⟨start, e.span.stop⟩ }, l)
termination_by l.size
decreasing_by all_goals exact size_advance_lt _h

/-- Adds the characters of a string to a text, up to its closing double quote. The string starts
where the cursor was in the state `start`. -/
def takeString (l start : Lexer) (text : String) : Except LexError String × Lexer :=
  match _h : l.ch with
  | none => (.error ⟨.unclosedString, ⟨start.position, l.position⟩, start.here⟩, l)
  | some c =>
    if c = '"' then (.ok text, l)
    else if c = '\n' then (.error (l.errorHere .lineBreak), l)
    else takeString l.advance start (text.push c)
termination_by l.size
decreasing_by exact size_advance_lt _h

/-! ## one token at a time -/

/-- The character at the cursor as a token. -/
def single (l : Lexer) (kind : TokenKind) : Except LexError Token × Lexer :=
  (.ok (l.tokenUpTo l.advance kind (l.ch.elim "" String.singleton)), l.advance)

def identifier (l : Lexer) : Except LexError Token × Lexer :=
  let (text, stop) := l.takeIdentifier ""
  (.ok (l.tokenUpTo stop .identifier text), stop)

/-- The token of a number that is taken up to its end. -/
def numberUpTo (start : Lexer) (taken : Except LexError (String × Bool) × Lexer) :
    Except LexError Token × Lexer :=
  (taken.1.map fun (text, point) =>
    start.tokenUpTo taken.2 (if point then .float else .integer) text, taken.2)

/-- A number, with its sign if there is one. -/
def number (l : Lexer) : Except LexError Token × Lexer :=
  l.numberUpTo <|
    if l.ch = some '-' then l.advance.takeNumber l.position "-" false
    else l.takeNumber l.position "" false

def string (l : Lexer) : Except LexError Token × Lexer :=
  match l.advance.takeString l "" with
  | (.error e, stop) => (.error e, stop)
  | (.ok text, stop) => (.ok (l.tokenUpTo stop.advance .string text), stop.advance)

/-- A token that starts with a minus sign: a number before a digit, else an identifier. -/
def minus (l : Lexer) : Except LexError Token × Lexer :=
  match l.nextCh with
  | none => l.identifier
  | some next =>
    if next.isDigit then l.number
    else if isDelimiter next || isIdentifierChar next then l.identifier
    else (.error (l.errorHere .loneMinus), l)

/-- Reads the token that starts with the character `c` at the cursor. -/
def tokenAt (l : Lexer) (c : Char) : Except LexError Token × Lexer :=
  if c = '(' then { l with depth := l.depth + 1 }.single .paren
  else if c = ')' then
    if l.depth = 0 then (.error (l.errorHere .freeClose), l)
    else { l with depth := l.depth - 1 }.single .paren
  else if c = '\'' then
    if l.nextCh.isNone then (.error (l.errorHere .endOfInput), l) else l.single .quote
  else if c = '"' then l.string
  else if c.isDigit then l.number
  else if c = '-' then l.minus
  else if isIdentifierStart c then l.identifier
  else (.error (l.errorHere .invalidSymbol), l)

/-- Reads the next token: `none` at the end of the source, where no parenthesis may be open. -/
def next (l : Lexer) : Except LexError (Option Token) × Lexer :=
  let l := l.skipTrivia
  match l.ch with
  | none => (if l.depth > 0 then .error (l.errorHere .missingClose) else .ok none, l)
  | some c => ((l.tokenAt c).1.map some, (l.tokenAt c).2)

/-! ## all tokens -/

theorem size_skipTrivia_le (l : Lexer) : l.skipTrivia.size ≤ l.size := by
  fun_induction skipTrivia l with
  | case1 l _ => exact Nat.le_refl _
  | case2 l _ ih => exact Nat.le_trans ih (Nat.le_trans l.size_skipComment_le l.size_advance_le)
  | case3 l _ _ _ _ ih => exact Nat.le_trans ih l.size_advance_le
  | case4 l _ _ _ _ => exact Nat.le_refl _

theorem size_takeIdentifier_le (l : Lexer) (text : String) :
    (l.takeIdentifier text).2.size ≤ l.size := by
  fun_induction takeIdentifier l text with
  | case1 l _ _ => exact Nat.le_refl _
  | case2 l _ _ _ _ ih => exact Nat.le_trans ih l.size_advance_le
  | case3 l _ _ _ _ => exact Nat.le_refl _

theorem size_takeNumber_le (l : Lexer) (start : Nat) (text : String) (point : Bool) :
    (l.takeNumber start text point).2.size ≤ l.size := by
  fun_induction takeNumber l start text point with
  | case1 l _ _ _ => exact Nat.le_refl _
  | case2 l _ _ _ _ _ ih => exact Nat.le_trans ih l.size_advance_le
  | case3 l _ _ _ => exact Nat.le_refl _
  | case4 l _ _ _ _ _ ih => exact Nat.le_trans ih l.size_advance_le
  | case5 l _ _ _ _ _ _ _ => exact Nat.le_refl _
  | case6 l _ _ _ _ _ _ _ => exact Nat.le_refl _

theorem size_takeString_le (l start : Lexer) (text : String) :
    (l.takeString start text).2.size ≤ l.size := by
  fun_induction takeString l start text with
  | case1 l _ _ => exact Nat.le_refl _
  | case2 l _ _ => exact Nat.le_refl _
  | case3 l _ _ _ => exact Nat.le_refl _
  | case4 l _ _ _ _ _ ih => exact Nat.le_trans ih l.size_advance_le

theorem size_takeIdentifier_lt {l : Lexer} {c : Char} (hc : l.ch = some c)
    (h : isIdentifierChar c) (text : String) : (l.takeIdentifier text).2.size < l.size := by
  have hle := l.advance.size_takeIdentifier_le (text.push c)
  have hlt := size_advance_lt hc
  rw [takeIdentifier]
  split
  · next hnone => simp [hc] at hnone
  · next hsome =>
    cases hc.symm.trans hsome
    rw [if_pos h]
    omega

theorem size_takeNumber_lt {l : Lexer} {c : Char} (hc : l.ch = some c) (h : c.isDigit)
    (start : Nat) (text : String) (point : Bool) :
    (l.takeNumber start text point).2.size < l.size := by
  have hle := l.advance.size_takeNumber_le start (text.push c) point
  have hlt := size_advance_lt hc
  rw [takeNumber]
  split
  · next hnone => simp [hc] at hnone
  · next hsome =>
    cases hc.symm.trans hsome
    rw [if_pos h]
    omega

theorem size_number_lt {l : Lexer} {c : Char} (hc : l.ch = some c) (h : c = '-' ∨ c.isDigit) :
    l.number.2.size < l.size := by
  have hlt := size_advance_lt hc
  unfold number numberUpTo
  dsimp only
  split
  · have hle := l.advance.size_takeNumber_le l.position "-" false
    omega
  · next hsign =>
    have hdigit := h.resolve_left fun heq => hsign (hc.trans (congrArg some heq))
    exact size_takeNumber_lt hc hdigit _ _ _

theorem size_string_lt {l : Lexer} {c : Char} (hc : l.ch = some c) : l.string.2.size < l.size := by
  have hlt := size_advance_lt hc
  have hle := l.advance.size_takeString_le l ""
  have hstop := (l.advance.takeString l "").2.size_advance_le
  rw [string]
  split
  · next h => simp only [h] at hle ⊢; omega
  · next h => simp only [h] at hle hstop ⊢; omega

theorem size_minus_lt {l : Lexer} (hc : l.ch = some '-') {t : Token} (h : l.minus.1 = .ok t) :
    l.minus.2.size < l.size := by
  revert h
  unfold minus
  split
  · exact fun _ => size_takeIdentifier_lt hc (by decide) ""
  split
  · exact fun _ => size_number_lt hc (.inl rfl)
  split
  · exact fun _ => size_takeIdentifier_lt hc (by decide) ""
  · rintro ⟨⟩

/-- A token takes at least one character. -/
theorem size_tokenAt_lt {l : Lexer} {c : Char} (hc : l.ch = some c) {t : Token}
    (h : (l.tokenAt c).1 = .ok t) : (l.tokenAt c).2.size < l.size := by
  revert h
  unfold tokenAt
  split
  · exact fun _ => size_advance_lt hc
  split
  · split
    · rintro ⟨⟩
    · exact fun _ => size_advance_lt hc
  split
  · split
    · rintro ⟨⟩
    · exact fun _ => size_advance_lt hc
  split
  · exact fun _ => size_string_lt hc
  split
  · next hdigit => exact fun _ => size_number_lt hc (.inr hdigit)
  split
  · next hminus => exact fun h => size_minus_lt (hminus ▸ hc) h
  split
  · next hstart =>
    exact fun _ => size_takeIdentifier_lt hc (by simp [isIdentifierChar, hstart]) ""
  · rintro ⟨⟩

theorem size_lt_of_next {l l' : Lexer} {t : Token} (h : l.next = (.ok (some t), l')) :
    l'.size < l.size := by
  have hle := l.size_skipTrivia_le
  unfold next at h
  dsimp only at h
  split at h
  · split at h <;> simp at h
  · next c hc =>
    cases htoken : (l.skipTrivia.tokenAt c).1 with
    | error e => simp [htoken, Except.map] at h
    | ok t' =>
      have hlt := size_tokenAt_lt hc htoken
      obtain rfl := congrArg Prod.snd h
      exact Nat.lt_of_lt_of_le hlt hle

/-- All tokens ahead, or the first error. -/
def tokens (l : Lexer) : Except LexError (List Token) :=
  match _h : l.next with
  | (.error e, _) => .error e
  | (.ok none, _) => .ok []
  | (.ok (some t), l') => (tokens l').map (t :: ·)
termination_by l.size
decreasing_by exact size_lt_of_next _h

end Lexer

/-- The tokens of a source, or the first error in it. -/
def lex (src : String) : Except LexError (List Token) := (Lexer.ofString src).tokens

/-! ## streams that end at the first error -/

/-- A lexer that gives nothing more once it has met an error or the end. -/
structure TokenStream where
  lexer : Lexer
  finished : Bool
  deriving Repr

def TokenStream.next (s : TokenStream) : Option (Except LexError Token) × TokenStream :=
  if s.finished then (none, s)
  else
    match s.lexer.next with
    | (.error e, l) => (some (.error e), ⟨l, true⟩)
    | (.ok none, l) => (none, ⟨l, true⟩)
    | (.ok (some t), l) => (some (.ok t), ⟨l, false⟩)

end SmallScheme
