import SmallScheme.Diagnostic
import SmallScheme.Evaluation
import SmallScheme.Node.Parser
import SmallScheme.Token.Lexer

/-!
Programs as texts: from a source to its tree, and from a source to the result of its evaluation.

A `Failure` of a run is a stage that failed with the source it failed on, or a file or stream that
could not be read. `Failure.toDiagnostic` is the report of one.
-/

namespace SmallScheme

/-! ## failures -/

/-- Why a file or stream cannot be read or written. -/
inductive AccessError where
  | notFound
  | permissionDenied
  | alreadyExists
  | brokenPipe
  | invalidInput
  | invalidData
  | unexpectedEnd
  | writeZero
  | interrupted
  | isADirectory
  | notADirectory
  | invalidFilename
  | other
  deriving DecidableEq, Repr

def AccessError.message : AccessError → String
  | notFound => "entity not found"
  | permissionDenied => "permission denied"
  | alreadyExists => "entity already exists"
  | brokenPipe => "broken pipe"
  | invalidInput => "invalid input parameter"
  | invalidData => "invalid data"
  | unexpectedEnd => "unexpected end of file"
  | writeZero => "write zero"
  | interrupted => "operation interrupted"
  | isADirectory => "is a directory"
  | notADirectory => "not a directory"
  | invalidFilename => "invalid filename"
  | other => "other error"

/-- The words of the system for it, with the number of the error. -/
def AccessError.systemMessage : AccessError → String
  | notFound => "No such file or directory (os error 2)"
  | permissionDenied => "Permission denied (os error 13)"
  | alreadyExists => "File exists (os error 17)"
  | brokenPipe => "Broken pipe (os error 32)"
  | invalidInput => "Invalid argument (os error 22)"
  | interrupted => "Interrupted system call (os error 4)"
  | isADirectory => "Is a directory (os error 21)"
  | notADirectory => "Not a directory (os error 20)"
  | invalidFilename => "File name too long (os error 36)"
  | e => e.message

inductive Failure where
  | lex (path src : String) (error : LexError)
  | parse (path src : String) (error : ParseError)
  | eval (path src : String) (error : EvalError)
  /-- The evaluation went deeper than it was allowed to. -/
  | tooDeep (path : String)
  | access (error : AccessError)
  deriving DecidableEq, Repr

namespace Failure

/-- The failure in one line. -/
def message : Failure → String
  | lex path _ error => "failed to tokenize " ++ path ++ ": " ++ error.message
  | parse path _ error => "failed to parse " ++ path ++ ": " ++ error.message
  | eval path _ error => "failed to evaluate " ++ path ++ ": " ++ error.message
  | tooDeep path => "failed to evaluate " ++ path ++ ": too deep"
  | access error => "IO operation failed: " ++ error.message

/-- The span that a report of an error in a source marks. An error at the end of the source is
marked there. -/
def lexSpan (src : String) (error : LexError) : Span :=
  match error.kind with
  | .missingClose | .endOfInput => .point src.utf8ByteSize
  | _ => error.span

def toDiagnostic : Failure → Diagnostic
  | lex path src error =>
    { title := "Syntax error: " ++ error.kind.message
      notes := error.message :: error.kind.notes
      location := some ⟨path, src, lexSpan src error, error.kind.headline⟩ }
  | parse path src error =>
    { title := "Parse error: " ++ error.kind.message
      notes := error.kind.notes
      location := some ⟨path, src, error.span, error.kind.headline⟩ }
  | eval path src error =>
    { title := error.headline
      notes := error.notes
      location := error.span?.map fun span => ⟨path, src, span, error.message⟩ }
  | tooDeep path =>
    { title := "Evaluation too deep"
      notes := [path]
      location := none }
  | access error =>
    { title := "Standard IO error"
      notes := [error.message]
      location := none }

end Failure

/-! ## programs -/

def readProgram (path src : String) : Except Failure Node :=
  match lex src with
  | .error e => .error (.lex path src e)
  | .ok ts => (parse ts).mapError (.parse path src)

def runProgram (fuel : Nat) (path src : String) (root : Node) (i : Interpreter) :
    Except Failure (Option Value) × Interpreter :=
  match evaluate fuel root i with
  | (.value v, i') => (.ok v, i')
  | (.error e, i') => (.error (.eval path src e), i')
  | (.outOfFuel, i') => (.error (.tooDeep path), i')

def runSource (fuel : Nat) (path src : String) (i : Interpreter) :
    Except Failure (Option Value) × Interpreter :=
  match readProgram path src with
  | .error f => (.error f, i)
  | .ok root => runProgram fuel path src root i

end SmallScheme
