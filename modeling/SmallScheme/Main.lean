import SmallScheme.Console.Command

/-!
The program: reads the arguments, the files and the standard input, and writes what the commands
say.
-/

namespace SmallScheme.Main

/-- The code stands for the error with the given number; some calls give it with the other sign. -/
def isError (code number : UInt32) : Bool := code = number || code + number = 0

/-- Why the system refused to read or write something. -/
def accessError : IO.Error → AccessError
  | .noFileOrDirectory .. => .notFound
  | .noSuchThing .. => .notFound
  | .permissionDenied .. => .permissionDenied
  | .alreadyExists .. => .alreadyExists
  | .resourceVanished .. => .brokenPipe
  | .invalidArgument _ code _ => if isError code 36 then .invalidFilename else .invalidInput
  | .unexpectedEof => .unexpectedEnd
  | .interrupted .. => .interrupted
  | .inappropriateType _ code _ => if isError code 20 then .notADirectory else .isADirectory
  | _ => .other

def emit (colour : Bool) (e : Event) : IO Unit := do
  let out ← IO.getStdout
  let err ← IO.getStderr
  match e with
  | .dump name text =>
    try IO.FS.writeFile name text
    catch reason => err.putStr ((Console.warning name (accessError reason)).stderr colour)
  | e =>
    out.write ⟨e.stdout.toArray⟩
    out.flush
    err.putStr (e.stderr colour)

def emitAll (colour : Bool) (events : List Event) : IO Unit := events.forM (emit colour)

def wantsColour : IO Bool := do
  if ((← IO.getEnv "FORCE_COLOR").getD "") ≠ "" then return true
  if !(← (← IO.getStderr).isTty) then return false
  return (← IO.getEnv "NO_COLOR").isNone && ((← IO.getEnv "TERM").getD "dumb") ≠ "dumb"

def runFile (colour : Bool) (path : String) (lexOut parseOut : Bool) : IO UInt32 := do
  emit colour (.status .running path)
  let start ← IO.monoMsNow
  let contents ← try
      pure (Except.ok (← IO.FS.readBinFile path).data.toList)
    catch reason => pure (Except.error (accessError reason))
  let (events, failure) := Command.runFile ampleFuel path lexOut parseOut contents
  emitAll colour events
  let elapsed := Command.seconds ((← IO.monoMsNow) - start)
  let (last, code) := Command.closing [.status .finished ("in " ++ elapsed)] failure
  emitAll colour last
  return code.toUInt32

/-- Reads one line of the standard input; nothing is left of it at the end of the input. -/
partial def readLine (before : Array UInt8) : IO (List UInt8) := do
  let next ← (← IO.getStdin).read 1
  match next.data.toList with
  | [] => return before.toList
  | b :: _ => if b = 10 then return (before.push b).toList else readLine (before.push b)

/-- Runs a loop on the lines of the standard input. -/
partial def loop {σ : Type} (colour : Bool) (prompt : σ → String)
    (feed : String → σ → List Event × Option σ) (s : σ) : IO UInt32 := do
  emit colour (.prompt (prompt s))
  let bytes ← readLine #[]
  if bytes.isEmpty then return 0
  match lineText bytes with
  | .error e =>
    emit colour (.report (.access e))
    return 1
  | .ok line =>
    let (events, next) := feed line s
    emitAll colour events
    match next with
    | none => return 0
    | some s' => loop colour prompt feed s'

end SmallScheme.Main

open SmallScheme in
/-- Carries out what the arguments ask for. -/
def main (args : List String) : IO UInt32 := do
  let colour ← Main.wantsColour
  match Command.ofArgs? args with
  | none =>
    (← IO.getStderr).putStr usage
    return usageCode.toUInt32
  | some (.run path lexOut parseOut) => Main.runFile colour path lexOut parseOut
  | some .repl => Main.loop colour Repl.prompt (Repl.feed ampleFuel) .start
  | some .lexLoop => Main.loop colour lexPrompt (feedShown showTokens) ()
  | some .parseLoop => Main.loop colour parsePrompt (feedShown showTree) ()
  | some .version =>
    Main.emit colour (.line Command.versionLine)
    return 0
