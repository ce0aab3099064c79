import SmallScheme.Node
import SmallScheme.Node.Error

/-!
The parser: recursive descent over tokens, with one token of look-ahead. `Parser.forms` reads the
forms of one level, `Parser.form` a form in parentheses, and `parse` a whole program.

Each part of a parse says in `Parsed` that no token comes back. This is what the descent ends by.
-/

namespace SmallScheme

/-- A cursor over tokens. -/
structure Parser where
  /-- The token at the cursor. -/
  current : Option Token
  /-- The end of the last token that was passed. -/
  lastEnd : Nat
  /-- The tokens after the one at the cursor. -/
  tokens : List Token
  /-- The cursor is past the end only where no token is left. -/
  tokens_eq_nil : current = none → tokens = []

namespace Parser

def start (lastEnd : Nat) : List Token → Parser
  | [] => ⟨none, lastEnd, [], fun _ => rfl⟩
  | t :: ts => ⟨some t, lastEnd, ts, fun h => absurd h (Option.some_ne_none t)⟩

def ofTokens (ts : List Token) : Parser := start 0 ts

def advance (p : Parser) : Parser :=
  start (p.current.elim p.lastEnd fun t => t.span.stop) p.tokens

/-- The tokens that are not passed yet. -/
def left (p : Parser) : List Token := p.current.toList ++ p.tokens

theorem left_start (lastEnd : Nat) (ts : List Token) : (start lastEnd ts).left = ts := by
  cases ts <;> rfl

theorem left_of_current {p : Parser} {t : Token} (h : p.current = some t) :
    p.left = t :: p.advance.left := by
  rw [left, h, advance, left_start]
  rfl

theorem left_of_end {p : Parser} (h : p.current = none) : p.left = [] := by
  rw [left, h, p.tokens_eq_nil h]
  rfl

theorem length_advance_lt {p : Parser} {t : Token} (h : p.current = some t) :
    p.advance.left.length < p.left.length := by
  rw [left_of_current h]
  exact Nat.lt_succ_self _

theorem length_advance_le (p : Parser) : p.advance.left.length ≤ p.left.length := by
  rw [advance, left_start, left, List.length_append]
  exact Nat.le_add_left _ _

end Parser

/-- What a part of a parse comes to, and a parser that has at most `n` tokens left. -/
structure Parsed (n : Nat) (α : Type) where
  result : Except ParseError α
  parser : Parser
  length_le : parser.left.length ≤ n

/-- Goes on with a result, unless it is an error. -/
@[inline]
def Parsed.bind {m n : Nat} {α β : Type} (r : Parsed m α) (h : m ≤ n)
    (f : α → (p : Parser) → p.left.length ≤ m → Parsed n β) : Parsed n β :=
  match r.result with
  | .error e => ⟨.error e, r.parser, Nat.le_trans r.length_le h⟩
  | .ok a => f a r.parser r.length_le

namespace Parser

/-- Ends a form at its closing parenthesis. -/
def close {n : Nat} (p : Parser) (h : p.left.length ≤ n) (kind : NodeKind) (token opening : Token)
    (children : List Node) : Parsed n Node :=
  let q := p.advance
  let result := match p.current.filter Token.isClose with
    | some t => .ok ⟨kind, some token, children.reverse, opening.span.merge t.span⟩
    | none => .error ⟨.missingClose, ⟨opening.span.start, max q.lastEnd opening.span.stop⟩⟩
  ⟨result, q, Nat.le_trans p.length_advance_le h⟩

mutual

/-- Reads forms after those of `before`, the last one first, up to a closing parenthesis or the end;
neither is passed. -/
def forms {n : Nat} (p : Parser) (h : p.left.length ≤ n) (before : List Node) :
    Parsed n (List Node) :=
  match hcurrent : p.current with
  | none => ⟨.ok before, p, h⟩
  | some t =>
    have hlt := length_advance_lt hcurrent
    if t.isClose then ⟨.ok before, p, h⟩
    else if t.kind = .quote then ⟨.error ⟨.unsupportedQuote, t.span⟩, p, h⟩
    else if t.isOpen then
      (p.advance.form (Nat.le_refl _) t).bind (Nat.le_trans p.length_advance_le h)
        fun node q hq => q.forms (by omega) (node :: before)
    else p.advance.forms (by omega) (Node.leaf t :: before)
termination_by (p.left.length, 0)

/-- Reads a form whose opening parenthesis is passed. -/
def form {n : Nat} (p : Parser) (h : p.left.length ≤ n) (opening : Token) : Parsed n Node :=
  match hcurrent : p.current with
  | none => ⟨.error ⟨.missingClose, opening.span⟩, p, h⟩
  | some head =>
    have hlt := length_advance_lt hcurrent
    if head.isIdentifier "define" then
      (p.advance.forms (Nat.le_refl _) []).bind (by omega)
        fun children q hq => q.close (by omega) .define head opening children
    else if head.isClose then ⟨.error ⟨.emptyForm, opening.span.merge head.span⟩, p, h⟩
    else
      (p.forms (Nat.le_refl _) []).bind h
        fun children q hq => q.close (by omega) .call opening opening children
termination_by (p.left.length, 1)

end

/-- Reads a program. A token at which the forms end is a closing parenthesis. -/
def program (p : Parser) : Except ParseError Node × Parser :=
  let r := p.forms (Nat.le_refl _) []
  match r.result, r.parser.current with
  | .error e, _ => (.error e, r.parser)
  | .ok _, some t => (.error ⟨.freeClose, t.span⟩, r.parser)
  | .ok forms, none => (.ok (Node.program forms.reverse), r.parser)

end Parser

/-- The program that the tokens ahead make, or the first error, and the tokens from the offending
one on. -/
def parseAhead (ts : List Token) : Except ParseError Node × List Token :=
  let (result, p) := (Parser.ofTokens ts).program
  (result, p.left)

/-- The program that the tokens make, or the first error. -/
def parse (ts : List Token) : Except ParseError Node := (parseAhead ts).1

end SmallScheme
