import SmallScheme.Diagnostic.Excerpt
import SmallScheme.Token

/-!
Diagnostics: a title, notes and, if the error has a place, an excerpt of the source with the
place marked. A place within one line is marked by carets below it. A place of several lines is
marked by a bar on their left, of which a long one is cut short in the middle.
-/

namespace SmallScheme

/-- A place in a source, with what is to be said about it. -/
structure Location where
  path : String
  src : String
  span : Span
  message : String
  deriving DecidableEq, Repr

/-- The span of a location, cut down to the source. -/
def Location.range (l : Location) : Span :=
  let size := l.src.utf8ByteSize
  let start := min l.span.start size
  ⟨start, max start (min l.span.stop size)⟩

structure Diagnostic where
  title : String
  notes : List String
  location : Option Location
  deriving DecidableEq, Repr

namespace Diagnostic

open Ink (coloured)

def markStyle : Style := ⟨some .red, false, false⟩

/-- The left margin of a row without a number. -/
def margin (pad : Nat) : List Ink := [.text (repeated ' ' (pad + 1))]

/-- The left margin of a row with the number of its line, and the border after it. -/
def numbered (pad : Nat) (l : SourceLine) : List Ink :=
  let number := toString l.number
  coloured .blue (repeated ' ' (pad - number.length) ++ number) ++ .text " " :: coloured .blue "│"

/-- The left margin of a row without a number, and the border after it. -/
def bordered (pad : Nat) : List Ink := margin pad ++ coloured .blue "│"

/-- The bar of a place of several lines, or one of its ends. -/
def bar (part : String) : List Ink := .text " " :: coloured .red part

/-- A row of the source, after its margin. -/
def sourceRow (l : SourceLine) (inside : Glyph → Bool) : List Ink :=
  .text " " :: (highlight markStyle inside Glyph.text false l.glyphs ++ [.text "\n"])

/-! ## places within one line -/

/-- The line, and carets below the bytes from `start` up to `stop`, at least one. -/
def singleLine (pad : Nat) (l : SourceLine) (start stop : Nat) (message : String) : List Ink :=
  let stop := max stop (start + 1)
  let inside (g : Glyph) : Bool := max start g.offset < min stop g.stop
  let caret (g : Glyph) : String :=
    if inside g then repeated '^' g.width
    else if g.offset < stop then repeated ' ' g.width
    else ""
  let tail : List Ink := if message.isEmpty then [] else .text " " :: coloured .red message
  numbered pad l ++ sourceRow l inside ++ bordered pad ++
    .text " " :: (highlight markStyle inside caret false l.places ++ tail ++ [.text "\n"])

/-! ## places of several lines -/

/-- The first line of a place. The bar starts beside the line if the place starts before its
text, and else below it, at the character where the place starts. -/
def firstLine (pad : Nat) (l : SourceLine) (start : Nat) : List Ink :=
  let row := sourceRow l fun g => start ≤ g.offset
  if start ≤ l.indent then numbered pad l ++ bar "╭" ++ row
  else
    numbered pad l ++ .text "  " :: row ++ bordered pad ++ bar "╭" ++
      coloured .red (repeated '─' (l.columnsBefore (start + 1)) ++ "^") ++ [.text "\n"]

/-- A line between the first and the last of a place. -/
def middleLine (pad : Nat) (l : SourceLine) : List Ink :=
  numbered pad l ++ bar "│" ++ sourceRow l fun _ => true

/-- A row that stands for lines that are left out. -/
def gap (pad : Nat) : List Ink := margin pad ++ coloured .blue "·" ++ bar "│" ++ [.text "\n"]

/-- The lines between the first and the last: all, if there are at most five, and else the first
three and the last of them. -/
def middleLines (pad : Nat) (lines : List SourceLine) : List Ink :=
  if lines.length ≤ 5 then lines.flatMap (middleLine pad)
  else
    (lines.take 3).flatMap (middleLine pad) ++ gap pad ++
      (lines.drop (lines.length - 1)).flatMap (middleLine pad)

/-- The last line of a place, and the end of the bar below it. -/
def lastLine (pad : Nat) (l : SourceLine) (stop : Nat) (message : String) : List Ink :=
  let tail := if message.isEmpty then "" else " " ++ message
  numbered pad l ++ bar "│" ++ sourceRow l (fun g => g.stop ≤ stop) ++ bordered pad ++ bar "╰" ++
    coloured .red (repeated '─' (l.columnsBefore stop) ++ "^" ++ tail) ++ [.text "\n"]

/-! ## whole reports -/

/-- The lines of a note: those of a text, without line breaks and without an empty last one. -/
def noteLines (note : String) : List String :=
  ((splitLines note.toList).filter fun l => !l.isEmpty).map fun l =>
    String.ofList (if l.getLast? = some '\n' then
      let body := l.dropLast
      if body.getLast? = some '\r' then body.dropLast else body
    else l)

def noteRows (pad : Nat) (note : String) : List Ink :=
  match noteLines note with
  | [] => []
  | first :: rest =>
    margin pad ++ coloured .blue "=" ++ .text (" " ++ first ++ "\n") ::
      rest.flatMap fun line => margin pad ++ [.text ("  " ++ line ++ "\n")]

/-- A report with an excerpt of the source. -/
def located (d : Diagnostic) (loc : Location) : List Ink :=
  let lines := sourceLines loc.src
  let range := loc.range
  let first := lineAt lines range.start
  let last := lineAt lines range.stop
  let pad := (toString last.number).length
  let several := first.number ≠ last.number
  let edge : List Ink := bordered pad ++ [.text (if several then "  \n" else "\n")]
  let start := range.start - first.start
  let stop := range.stop - last.start
  let place := loc.path ++ ":" ++ toString first.number ++ ":" ++
    toString (first.column range.start)
  let between := lines.filter fun l => first.number < l.number && l.number < last.number
  let excerpt :=
    if several then
      firstLine pad first start ++ middleLines pad between ++ lastLine pad last stop loc.message
    else singleLine pad first start stop loc.message
  let notes := if d.notes.isEmpty then [] else edge ++ d.notes.flatMap (noteRows pad)
  [.style ⟨some .red, true, true⟩, .text "error", .style ⟨none, true, true⟩,
    .text (": " ++ d.title), .reset, .text "\n"] ++
  margin pad ++ coloured .blue "┌─" ++ .text (" " ++ place ++ "\n") :: edge ++ excerpt ++ notes ++
    [.text "\n"]

def unlocated (d : Diagnostic) : List Ink :=
  [.style ⟨some .red, true, false⟩, .text "error", .style ⟨none, true, false⟩,
    .text (": " ++ d.title ++ "\n"), .reset] ++
  d.notes.map fun note => .text ("  = " ++ note ++ "\n")

def ink (d : Diagnostic) : List Ink :=
  match d.location with
  | some loc => d.located loc
  | none => d.unlocated

def print (colour : Bool) (d : Diagnostic) : String := Ink.printAll colour d.ink

end Diagnostic

end SmallScheme
