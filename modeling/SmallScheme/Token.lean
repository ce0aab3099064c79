/-!
Tokens: the pieces that a source text is cut into. A token keeps its text, the kind of the text
and the place where it stands. A `Span` is a range of byte offsets, a `Position` a line and a
column.
-/

namespace SmallScheme

/-! ## places in a source -/

/-- The bytes of a source from `start` up to, not including, `stop`. -/
structure Span where
  start : Nat
  stop : Nat
  deriving DecidableEq, Repr, Inhabited

namespace Span

/-- The empty span at a byte offset. -/
def point (offset : Nat) : Span := ⟨offset, offset⟩

/-- The least span that holds both. -/
def merge (a b : Span) : Span := ⟨min a.start b.start, max a.stop b.stop⟩

/-- The written form, `start..stop`. -/
def print (s : Span) : String := toString s.start ++ ".." ++ toString s.stop

end Span

/-- A line, counted from one, and a column, counted in characters from zero. -/
structure Position where
  line : Nat
  column : Nat
  deriving DecidableEq, Repr, Inhabited

/-- The written form, `line:column`. -/
def Position.print (p : Position) : String := toString p.line ++ ":" ++ toString p.column

/-! ## tokens -/

inductive TokenKind where
  /-- An opening or a closing parenthesis. -/
  | paren
  | identifier
  | integer
  | float
  | string
  /-- The mark `'` in front of a form. -/
  | quote
  deriving DecidableEq, Repr, Inhabited

def TokenKind.name : TokenKind → String
  | .paren => "Syntax"
  | .identifier => "Identifier"
  | .integer => "Integer"
  | .float => "Float"
  | .string => "String"
  | .quote => "Quote"

/-- A piece of source. The text of a string is what stands between its double quotes. -/
structure Token where
  text : String
  kind : TokenKind
  position : Position
  span : Span
  deriving DecidableEq, Repr, Inhabited

namespace Token

/-- The token as it is written in a source: a string has its double quotes again. -/
def literal (t : Token) : String :=
  if t.kind = .string then "\"" ++ t.text ++ "\"" else t.text

def isOpen (t : Token) : Bool := t.kind = .paren && t.text = "("

def isClose (t : Token) : Bool := t.kind = .paren && t.text = ")"

def isIdentifier (t : Token) (name : String) : Bool := t.kind = .identifier && t.text = name

theorem isOpen_iff {t : Token} : t.isOpen ↔ t.kind = .paren ∧ t.text = "(" := by simp [isOpen]

theorem isClose_iff {t : Token} : t.isClose ↔ t.kind = .paren ∧ t.text = ")" := by simp [isClose]

theorem isIdentifier_iff {t : Token} {name : String} :
    t.isIdentifier name ↔ t.kind = .identifier ∧ t.text = name := by
  simp [isIdentifier]

theorem isOpen_eq_false_of_isClose {t : Token} (h : t.isClose) : t.isOpen = false := by
  simp [isOpen, (isClose_iff.1 h).2]

end Token

end SmallScheme
