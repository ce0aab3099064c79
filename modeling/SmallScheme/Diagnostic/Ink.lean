/-!
Styled text: pieces of text with changes of style between them, written with terminal escapes or
without any.
-/

namespace SmallScheme

inductive Colour where
  | red
  | green
  | yellow
  | blue
  | magenta
  | cyan
  deriving DecidableEq, Repr

/-- The number of a colour in terminal escapes. -/
def Colour.code : Colour → Nat
  | red => 1
  | green => 2
  | yellow => 3
  | blue => 4
  | magenta => 5
  | cyan => 6

structure Style where
  colour : Option Colour
  bold : Bool
  intense : Bool
  deriving DecidableEq, Repr

/-- A piece of text, or a change of style. -/
inductive Ink where
  | text (s : String)
  | style (s : Style)
  | reset
  deriving DecidableEq, Repr

namespace Ink

/-- The escape that ends every style. -/
def clear : String := "\x1b[0m"

/-- The escapes of a style, which end the one before. -/
def escapes (s : Style) : String :=
  let colour := match s.colour with
    | none => ""
    | some c =>
      if s.intense then "\x1b[38;5;" ++ toString (8 + c.code) ++ "m"
      else "\x1b[3" ++ toString c.code ++ "m"
  clear ++ (if s.bold then "\x1b[1m" else "") ++ colour

/-- A piece as it is written, with escapes if `colour` holds. -/
def print (colour : Bool) : Ink → String
  | text s => s
  | style s => if colour then escapes s else ""
  | reset => if colour then clear else ""

def printAll (colour : Bool) (inks : List Ink) : String := String.join (inks.map (print colour))

def coloured (c : Colour) (s : String) : List Ink := [style ⟨some c, false, false⟩, text s, reset]

end Ink

end SmallScheme
