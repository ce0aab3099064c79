import SmallScheme.Token

/-!
Why a sequence of tokens is no program, and the words for it.
-/

namespace SmallScheme

/-- What is wrong with a sequence of tokens that is no program. -/
inductive ParseErrorKind where
  /-- A closing parenthesis has no opening one. -/
  | freeClose
  /-- A form is never closed. -/
  | missingClose
  /-- A pair of parentheses has nothing in it. -/
  | emptyForm
  /-- A form has a quote mark in front. -/
  | unsupportedQuote
  deriving DecidableEq, Repr, Inhabited

namespace ParseErrorKind

def message : ParseErrorKind → String
  | freeClose => "free closing parenthesis"
  | missingClose => "missing matching closing parenthesis"
  | emptyForm => "empty form"
  | unsupportedQuote => "quoted forms are not supported"

/-- The headline, which is written beside the offending text. -/
def headline : ParseErrorKind → String
  | freeClose => "Closing parenthesis has no matching opening one"
  | missingClose => "Missing matching closing parenthesis"
  | emptyForm => "Empty form"
  | unsupportedQuote => "Quoted forms are not supported yet"

def notes : ParseErrorKind → List String
  | emptyForm => ["A form must start with a function or `define`"]
  | _ => []

end ParseErrorKind

structure ParseError where
  kind : ParseErrorKind
  span : Span
  deriving DecidableEq, Repr, Inhabited

def ParseError.message (e : ParseError) : String :=
  "Parse error at " ++ e.span.print ++ ": " ++ e.kind.message

end SmallScheme
