import SmallScheme.Console.Directory
import SmallScheme.Console.Dump
import SmallScheme.Console.Repl

/-!
The command line: running a file, the three loops, and the version. A command is carried out on
arguments, standard input and a directory, and leaves an exit code, what was written and the
directory as it is afterwards.
-/

namespace SmallScheme

inductive Command where
  | run (path : String) (lexOut parseOut : Bool)
  | repl
  | lexLoop
  | parseLoop
  | version
  deriving DecidableEq, Repr

namespace Command

/-! ## arguments -/

/-- The flags of a run that were given, and the paths. -/
structure RunArgs where
  lexOut : Bool
  parseOut : Bool
  paths : List String
  deriving Repr

/-- Takes one letter of a group of short flags; a flag is given only once. -/
def RunArgs.short (a : RunArgs) (c : Char) : Option RunArgs :=
  if c = 'L' && !a.lexOut then some { a with lexOut := true }
  else if c = 'P' && !a.parseOut then some { a with parseOut := true }
  else none

/-- Takes the arguments of a run one by one; after `--` all are paths. -/
def RunArgs.take (a : RunArgs) (onlyPaths : Bool) : List String → Option RunArgs
  | [] => some a
  | arg :: rest =>
    if onlyPaths || !arg.startsWith "-" || arg = "-" then
      RunArgs.take { a with paths := a.paths ++ [arg] } onlyPaths rest
    else if arg = "--" then a.take true rest
    else if arg = "--lex-out" then (a.short 'L').bind fun a => a.take false rest
    else if arg = "--parse-out" then (a.short 'P').bind fun a => a.take false rest
    else if arg.startsWith "--" then none
    else (arg.toList.tail.foldlM RunArgs.short a).bind fun a => a.take false rest

/-- The run that the arguments ask for; it has one path, which is not empty. -/
def runOfArgs? (args : List String) : Option Command :=
  match RunArgs.take ⟨false, false, []⟩ false args with
  | some ⟨lexOut, parseOut, [path]⟩ =>
    if path.isEmpty then none else some (.run path lexOut parseOut)
  | _ => none

/-- The argument asks for the version: a group of short flags does so with its first letter,
whatever follows. -/
def asksVersion (arg : String) : Bool := arg = "--version" || arg.startsWith "-V"

/-- The command that the arguments ask for. A loop takes no arguments, but its own may be marked
as ended. -/
def ofArgs? : List String → Option Command
  | [] => none
  | "run" :: args => runOfArgs? args
  | arg :: args =>
    if asksVersion arg then some .version
    else if args ≠ [] && args ≠ ["--"] then none
    else if arg = "repl" then some .repl
    else if arg = "rlpl" then some .lexLoop
    else if arg = "rppl" then some .parseLoop
    else none

/-! ## running a file -/

def lexOutName : String := "lex.out.json"

def parseOutName : String := "parse.out.json"

/-- A dump, with the status line before it. -/
def dumpEvents (name text : String) : List Event := [.status .writing name, .dump name text]

/-- Evaluates the tree of a file; `none` stands for success. -/
def runTree (fuel : Nat) (path src : String) (root : Node) : List Event × Option Failure :=
  let (result, i) := runProgram fuel path src root (.new .builtins .unlimited)
  let failure := match result with
    | .ok _ => none
    | .error f => some f
  ([.output i.out.written], failure)

/-- Reads and evaluates a file with the given contents, with the dumps that are wanted after
each stage. -/
def runFile (fuel : Nat) (path : String) (lexOut parseOut : Bool)
    (contents : Except AccessError (List UInt8)) : List Event × Option Failure :=
  let source := contents.bind fun bytes =>
    match ofUtf8? bytes with
    | some src => .ok src
    | none => .error .invalidData
  match source with
  | .error e => ([], some (.access e))
  | .ok src =>
    match lex src with
    | .error e => ([], some (.lex path src e))
    | .ok ts =>
      let lexed := if lexOut then dumpEvents lexOutName (dumpTokens ts) else []
      match parse ts with
      | .error e => (lexed, some (.parse path src e))
      | .ok root =>
        let parsed := if parseOut then dumpEvents parseOutName (dumpTree root) else []
        let (events, failure) := runTree fuel path src root
        (lexed ++ parsed ++ events, failure)

/-- A number of milliseconds in seconds, with two places after the point. -/
def seconds (milliseconds : Nat) : String :=
  let hundredths := (milliseconds + 5) / 10
  let places := toString (hundredths % 100)
  toString (hundredths / 100) ++ "." ++ repeated '0' (2 - places.length) ++ places ++ "s"

/-! ## carrying a command out -/

/-- What is said at the end of a command that may have failed, and its exit code. -/
def closing (atSuccess : List Event) : Option Failure → List Event × Nat
  | none => (atSuccess, 0)
  | some f => ([.report f], 1)

/-- What a loop says on its input, and its exit code. -/
def loopEvents {σ : Type} (prompt : σ → String) (feed : String → σ → List Event × Option σ)
    (start : σ) (input : List UInt8) : List Event × Nat :=
  let (events, _, error) := runLoop prompt feed start (inputLines input)
  let (last, code) := closing [] (error.map .access)
  (events ++ last, code)

def versionLine : String := "scmc 0.1.0"

/-- What a command says and its exit code, where `contents` gives what a path leads to and
`elapsed` the time that a run takes. -/
def events (fuel : Nat) (elapsed : String) (contents : String → Except AccessError (List UInt8))
    (input : List UInt8) : Command → List Event × Nat
  | run path lexOut parseOut =>
    let (body, failure) := runFile fuel path lexOut parseOut (contents path)
    let (last, code) := closing [.status .finished ("in " ++ elapsed)] failure
    (.status .running path :: (body ++ last), code)
  | repl => loopEvents Repl.prompt (Repl.feed fuel) .start input
  | lexLoop => loopEvents lexPrompt (feedShown showTokens) () input
  | parseLoop => loopEvents parsePrompt (feedShown showTree) () input
  | version => ([.line versionLine], 0)

end Command

/-- What is left when a command is carried out. -/
structure Console where
  stdout : List UInt8
  stderr : String
  directory : Directory
  deriving Repr

namespace Console

/-- A failed dump is only a warning. -/
def warning (name : String) (error : AccessError) : Event :=
  .status .warning ("could not write " ++ name ++ ": " ++ error.systemMessage)

/-- Writes the dumps among some events into a directory, and gives what is said all the same: of a
dump only that it failed. -/
def writeDumps (d : Directory) : List Event → List Event × Directory
  | [] => ([], d)
  | .dump name text :: rest =>
    match d.write name (utf8 text) with
    | .ok d' => writeDumps d' rest
    | .error error =>
      let (said, d') := writeDumps d rest
      (warning name error :: said, d')
  | e :: rest =>
    let (said, d') := writeDumps d rest
    (e :: said, d')

/-- What is left of some events in a directory. -/
def ofEvents (colour : Bool) (d : Directory) (events : List Event) : Console :=
  let (said, d') := writeDumps d events
  ⟨said.flatMap Event.stdout, String.join (said.map (Event.stderr colour)), d'⟩

end Console

/-- What is said when the arguments ask for no command. -/
def usage : String :=
  "Usage: scmc run [-L|--lex-out] [-P|--parse-out] PATH\n       scmc repl | rlpl | rppl\n"

def usageCode : Nat := 2

/-- Carries out what the arguments ask for, and gives the exit code and what is left. -/
def commandLine (fuel : Nat) (elapsed : String) (colour : Bool) (args : List String)
    (input : List UInt8) (directory : Directory) : Nat × Console :=
  match Command.ofArgs? args with
  | none => (usageCode, ⟨[], usage, directory⟩)
  | some command =>
    let (events, code) := command.events fuel elapsed (directory.read input) input
    (code, .ofEvents colour directory events)

end SmallScheme
