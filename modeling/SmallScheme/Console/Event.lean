import SmallScheme.Program

/-!
What the program says while it runs, as a list of events, and how each event is written: on the
standard output, on the standard error, or into a file.
-/

namespace SmallScheme

inductive Status where
  | running
  | finished
  | writing
  | warning
  deriving DecidableEq, Repr

namespace Status

/-- The word that a status line starts with. -/
def word : Status → String
  | running => "Running"
  | finished => "Finished"
  | writing => "Writing"
  | warning => "Warning"

def colour : Status → Colour
  | running => .magenta
  | finished => .green
  | writing => .cyan
  | warning => .yellow

/-- A status line: the word is set to the right in eleven columns. -/
def ink (s : Status) (text : String) : List Ink :=
  [.style ⟨some s.colour, true, true⟩, .text (repeated ' ' (11 - s.word.length) ++ s.word), .reset,
    .text (" " ++ text ++ "\n")]

end Status

/-- Something that the program says. -/
inductive Event where
  /-- A request for a line of input. -/
  | prompt (text : String)
  /-- What the evaluated program wrote. -/
  | output (bytes : List UInt8)
  /-- A line of text. -/
  | line (text : String)
  | status (s : Status) (text : String)
  /-- A file that is to be written. -/
  | dump (name text : String)
  | report (f : Failure)
  deriving Repr

namespace Event

def stdout : Event → List UInt8
  | prompt text => utf8 text
  | output bytes => bytes
  | line text => utf8 (text ++ "\n")
  | _ => []

def stderr (colour : Bool) : Event → String
  | status s text => Ink.printAll colour (s.ink text)
  | report f => f.toDiagnostic.print colour
  | _ => ""

end Event

end SmallScheme
