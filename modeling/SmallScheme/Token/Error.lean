import SmallScheme.Token

/-!
Why a source cannot be cut into tokens, and the words for it: a short message, a headline and
notes that explain it.
-/

namespace SmallScheme

/-- What is wrong with a text that is no sequence of tokens. -/
inductive LexErrorKind where
  /-- A quote mark is the last character of the source. -/
  | endOfInput
  /-- A string has no closing double quote. -/
  | unclosedString
  /-- A number runs into a character that cannot follow one. -/
  | invalidNumber
  /-- A character starts no token. -/
  | invalidSymbol
  /-- A closing parenthesis has no opening one. -/
  | freeClose
  /-- The source ends with an open parenthesis. -/
  | missingClose
  /-- A minus sign stands before a character that it cannot be followed by. -/
  | loneMinus
  /-- A string has a line break in it. -/
  | lineBreak
  /-- A number has a second decimal point. -/
  | secondPoint
  deriving DecidableEq, Repr, Inhabited

namespace LexErrorKind

def message : LexErrorKind → String
  | endOfInput => "cursor is out of range"
  | unclosedString => "missing matching double quotes"
  | invalidNumber => "invalid numeric literal"
  | invalidSymbol => "invalid symbol"
  | freeClose => "free closing parenthesis"
  | missingClose => "missing matching closing parenthesis"
  | loneMinus => "NaN"
  | lineBreak => "unexpected line break"
  | secondPoint => "unexpected dot symbol"

/-- The headline, which is written beside the offending text. -/
def headline : LexErrorKind → String
  | endOfInput => "Unexpected end of input"
  | unclosedString => "String literal is never closed"
  | invalidNumber => "Invalid numeric literal"
  | invalidSymbol => "Don't know what to do with this symbol"
  | freeClose => "Closing parenthesis has no matching opening one"
  | missingClose => "Missing matching closing parenthesis"
  | loneMinus => "Expected a digit after `-`"
  | lineBreak => "Line break inside a string literal"
  | secondPoint => "Found several dots in a numeric literal"

def notes : LexErrorKind → List String
  | endOfInput => ["A quote must be followed by a form"]
  | invalidNumber => ["A number must end with whitespace, `)` or a comment"]
  | lineBreak => ["Escape sequences are not supported"]
  | _ => []

end LexErrorKind

/-- An error of the lexer: what is wrong, the span it is wrong about, and where it was met. -/
structure LexError where
  kind : LexErrorKind
  span : Span
  position : Position
  deriving DecidableEq, Repr, Inhabited

def LexError.message (e : LexError) : String :=
  "Syntax error at line " ++ toString e.position.line ++ ", position " ++
    toString e.position.column ++ ": " ++ e.kind.message

end SmallScheme
