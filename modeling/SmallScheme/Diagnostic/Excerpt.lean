import SmallScheme.Diagnostic.Ink
import SmallScheme.Text
import SmallScheme.Text.Width

/-!
Excerpts of a source: its lines with their numbers, and the characters of a line with the bytes
they start at and the columns they fill.
-/

namespace SmallScheme

/-! ## lines -/

/-- The lines of a text with their line breaks. A text that ends in a line break has an empty
last line. -/
def splitLines : List Char → List (List Char)
  | [] => [[]]
  | c :: cs =>
    if c = '\n' then [c] :: splitLines cs
    else match splitLines cs with
      | [] => [[c]]
      | line :: lines => (c :: line) :: lines

structure SourceLine where
  /-- Counted from one. -/
  number : Nat
  /-- The byte that the line starts at. -/
  start : Nat
  text : List Char
  deriving Repr, Inhabited

/-- How many characters at the start of a text lie within its first bytes. -/
def charsBefore (bytes : Nat) : List Char → Nat
  | [] => 0
  | c :: cs => if c.utf8Size ≤ bytes then 1 + charsBefore (bytes - c.utf8Size) cs else 0

/-- Numbers lines, the first of which has the given number and starts at the given byte. -/
def numberLines (number start : Nat) : List (List Char) → List SourceLine
  | [] => []
  | text :: rest =>
    ⟨number, start, text⟩ :: numberLines (number + 1) (start + byteLength text) rest

def sourceLines (src : String) : List SourceLine := numberLines 1 0 (splitLines src.toList)

/-- The line that a byte stands on: the last one that starts at it or before. -/
def lineAt (lines : List SourceLine) (byte : Nat) : SourceLine :=
  ((lines.filter fun l => l.start ≤ byte).getLast?).getD default

namespace SourceLine

/-- The text of a line without its line break and what else ends it. -/
def shown (l : SourceLine) : List Char :=
  (l.text.reverse.dropWhile fun c => c = '\n' || c = '\r' || c = '\x00').reverse

/-- The column of a byte of the line, counted in characters from one. -/
def column (l : SourceLine) (byte : Nat) : Nat := 1 + charsBefore (byte - l.start) l.text

/-- How many bytes of white space the shown text of a line starts with. -/
def indent (l : SourceLine) : Nat := byteLength (l.shown.takeWhile Text.isBlank)

end SourceLine

/-! ## the characters of a line -/

/-- A character of a line, or the place after its last one. -/
structure Glyph where
  text : String
  /-- The byte of the line that the character starts at. -/
  offset : Nat
  /-- The byte after the character. -/
  stop : Nat
  /-- The columns that the character fills. -/
  width : Nat
  deriving Repr

/-- The columns between two stops of the tabulator. -/
def tabWidth : Nat := 4

def repeated (c : Char) (count : Nat) : String := String.ofList (List.replicate count c)

/-- The characters of a text that starts at the given column and byte. A tabulator is shown as
blanks up to the next stop. -/
def glyphsFrom (column offset : Nat) : List Char → List Glyph
  | [] => []
  | c :: cs =>
    let width := if c = '\t' then tabWidth - column % tabWidth else Text.width c
    let stop := offset + c.utf8Size
    ⟨if c = '\t' then repeated ' ' width else c.toString, offset, stop, width⟩ ::
      glyphsFrom (column + width) stop cs

namespace SourceLine

/-- The characters that are shown of a line. -/
def glyphs (l : SourceLine) : List Glyph := glyphsFrom 0 0 l.shown

/-- The characters that are shown of a line, and a place of one column after them. -/
def places (l : SourceLine) : List Glyph :=
  let stop := byteLength l.shown
  l.glyphs ++ [⟨"", stop, stop + 1, 1⟩]

/-- The columns that are filled by the characters which start before a byte. -/
def columnsBefore (l : SourceLine) (byte : Nat) : Nat :=
  (l.glyphs.takeWhile fun g => g.offset < byte).foldr (fun g n => g.width + n) 0

end SourceLine

/-- Writes characters, those that are `inside` in a style of their own. -/
def highlight (style : Style) (inside : Glyph → Bool) (write : Glyph → String) :
    Bool → List Glyph → List Ink
  | on, [] => if on then [.reset] else []
  | on, g :: gs =>
    let change : List Ink :=
      if inside g && !on then [.style style] else if !inside g && on then [.reset] else []
    change ++ .text (write g) :: highlight style inside write (inside g) gs

end SmallScheme
