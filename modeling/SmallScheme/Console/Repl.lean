import SmallScheme.Console.Event
import SmallScheme.Program

/-!
The interactive loops. Each takes lines of input one at a time. The evaluating loop keeps its
definitions from one entry to the next, and an entry whose last form is still open at the end of
a line goes on with the next line; the other two show the tokens and the tree of each line.
-/

namespace SmallScheme

/-- The path of what is typed in. -/
def typedPath : String := "<stdin>"

def exitLine : String := ".exit"

/-! ## the evaluating loop -/

/-- The state of the evaluating loop. -/
structure Repl where
  interpreter : Interpreter
  /-- The lines of an entry that is not complete. -/
  pending : String
  deriving Repr

namespace Repl

def start : Repl := ⟨.new .builtins .unlimited, ""⟩

def prompt (r : Repl) : String := if r.pending.isEmpty then "scm> " else "...> "

/-- What is said about the end of an evaluation. -/
def resultEvents : Except Failure (Option Value) → List Event
  | .ok (some v) => [.line v.print]
  | .ok none => []
  | .error f => [.report f]

def evaluateEntry (fuel : Nat) (src : String) (root : Node) (r : Repl) : List Event × Repl :=
  let before := r.interpreter.out.written.length
  let (result, i) := runProgram fuel typedPath src root r.interpreter
  (.output (i.out.written.drop before) :: resultEvents result, ⟨i, ""⟩)

/-- Takes the lines of an entry so far: waits for more if a form is open, and else deals with
the entry. -/
def takeEntry (fuel : Nat) (src : String) (r : Repl) : List Event × Repl :=
  match lex src with
  | .error e =>
    if e.kind = .missingClose then ([], { r with pending := src })
    else ([.report (.lex typedPath src e)], { r with pending := "" })
  | .ok ts =>
    match parse ts with
    | .error e => ([.report (.parse typedPath src e)], { r with pending := "" })
    | .ok root => evaluateEntry fuel src root r

/-- Takes one line. There is no state after the line that ends the loop. -/
def feed (fuel : Nat) (line : String) (r : Repl) : List Event × Option Repl :=
  let word := Text.trim line
  if r.pending.isEmpty && word.isEmpty then ([], some r)
  else if r.pending.isEmpty && word = exitLine then ([], none)
  else
    let (events, r') := takeEntry fuel (r.pending ++ line ++ "\n") r
    (events, some r')

end Repl

/-! ## the loops that show -/

/-- A text with blanks after it up to a width. -/
def padRight (width : Nat) (s : String) : String := s ++ repeated ' ' (width - s.length)

def tokenRow (t : Token) : String :=
  padRight 10 t.kind.name ++ " " ++ padRight 8 t.position.print ++ " " ++ t.literal

/-- A node in a row of its own, indented by its depth. -/
def nodeRow (depth : Nat) (n : Node) : String :=
  repeated ' ' (2 * depth) ++ n.kind.name ++ " " ++ n.token.elim "" Token.literal

def showTokens (line : String) : List Event :=
  match lex line with
  | .error e => [.report (.lex typedPath line e)]
  | .ok ts => ts.map fun t => .line (tokenRow t)

def showTree (line : String) : List Event :=
  match readProgram typedPath line with
  | .error f => [.report f]
  | .ok root => (root.preorder 0).map fun (depth, n) => .line (nodeRow depth n)

def lexPrompt (_ : Unit) : String := "lex> "

def parsePrompt (_ : Unit) : String := "parse> "

/-- Takes one line, about which `shown` is said. -/
def feedShown (shown : String → List Event) (line : String) (_ : Unit) :
    List Event × Option Unit :=
  if line.isEmpty then ([], some ())
  else if line = exitLine then ([], none)
  else (shown line, some ())

/-! ## lines of input -/

/-- Splits input after each line break. -/
def splitInput : List UInt8 → List (List UInt8)
  | [] => []
  | b :: bs =>
    if b = 10 then [b] :: splitInput bs
    else match splitInput bs with
      | [] => [[b]]
      | line :: lines => (b :: line) :: lines

/-- The text of a line of input without what ends it. -/
def lineText (bytes : List UInt8) : Except AccessError String :=
  match ofUtf8? bytes with
  | none => .error .invalidData
  | some s =>
    .ok (String.ofList (s.toList.reverse.dropWhile fun c => c = '\n' || c = '\r').reverse)

/-- The lines of input, each with its text or the reason why it has none. -/
def inputLines (input : List UInt8) : List (Except AccessError String) :=
  (splitInput input).map lineText

/-- Runs a loop on lines of input until they end, a line cannot be read, or the loop is ended.
Gives what was said, the last state, and the error that ended the loop, if one did. -/
def runLoop {σ : Type} (prompt : σ → String) (feed : String → σ → List Event × Option σ) :
    σ → List (Except AccessError String) → List Event × σ × Option AccessError
  | s, [] => ([.prompt (prompt s)], s, none)
  | s, .error e :: _ => ([.prompt (prompt s)], s, some e)
  | s, .ok line :: rest =>
    match feed line s with
    | (events, none) => (.prompt (prompt s) :: events, s, none)
    | (events, some s') =>
      let (more, last) := runLoop prompt feed s' rest
      (.prompt (prompt s) :: (events ++ more), last)

end SmallScheme
