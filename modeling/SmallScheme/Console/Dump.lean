import SmallScheme.Node

/-!
Tokens and trees as JSON text, indented by two blanks a level.
-/

namespace SmallScheme

/-- A JSON value with naturals for numbers. -/
inductive JsonText where
  | null
  | nat (n : Nat)
  | text (s : String)
  | list (items : List JsonText)
  | fields (items : List (String × JsonText))
  deriving Repr

namespace JsonText

/-- A character inside a JSON string. -/
def escape (c : Char) : String :=
  if c = '"' then "\\\""
  else if c = '\\' then "\\\\"
  else if c = '\x08' then "\\b"
  else if c = '\x0c' then "\\f"
  else if c = '\n' then "\\n"
  else if c = '\r' then "\\r"
  else if c = '\t' then "\\t"
  else if c.toNat < 0x20 then
    let digits := Nat.toDigits 16 c.toNat
    "\\u" ++ String.ofList (List.replicate (4 - digits.length) '0' ++ digits)
  else c.toString

def quote (s : String) : String := "\"" ++ String.join (s.toList.map escape) ++ "\""

/-- The start of a line at a level of nesting. -/
def newLine (level : Nat) : String := "\n" ++ String.ofList (List.replicate (2 * level) ' ')

mutual

/-- The pieces of the text of a value at a level of nesting, in front of other pieces. -/
def pieces (level : Nat) : JsonText → List String → List String
  | .null, after => "null" :: after
  | .nat n, after => toString n :: after
  | .text s, after => quote s :: after
  | .list [], after => "[]" :: after
  | .list (v :: vs), after =>
    "[" :: newLine (level + 1) ::
      pieces (level + 1) v (itemPieces (level + 1) vs (newLine level :: "]" :: after))
  | .fields [], after => "\x7b\x7d" :: after
  | .fields ((name, v) :: rest), after =>
    "\x7b" :: newLine (level + 1) :: quote name :: ": " ::
      pieces (level + 1) v (fieldPieces (level + 1) rest (newLine level :: "\x7d" :: after))

/-- The pieces of list members that follow another one. -/
def itemPieces (level : Nat) : List JsonText → List String → List String
  | [], after => after
  | v :: vs, after => "," :: newLine level :: pieces level v (itemPieces level vs after)

/-- The pieces of object members that follow another one. -/
def fieldPieces (level : Nat) : List (String × JsonText) → List String → List String
  | [], after => after
  | (name, v) :: rest, after =>
    "," :: newLine level :: quote name :: ": " ::
      pieces level v (fieldPieces level rest after)

end

def print (v : JsonText) : String := String.join (v.pieces 0 [])

def ofSpan (s : Span) : JsonText := .fields [("start", .nat s.start), ("end", .nat s.stop)]

def ofToken (t : Token) : JsonText :=
  .fields [("text", .text t.text), ("kind", .text t.kind.name),
    ("position", .fields [("line", .nat t.position.line), ("column", .nat t.position.column)]),
    ("location", ofSpan t.span)]

mutual

def ofNode : Node → JsonText
  | ⟨kind, token, children, span⟩ =>
    .fields [("kind", .text kind.name), ("token", token.elim .null ofToken),
      ("children", .list (ofNodes children)), ("location", ofSpan span)]

def ofNodes : List Node → List JsonText
  | [] => []
  | n :: ns => ofNode n :: ofNodes ns

end

end JsonText

def dumpTokens (ts : List Token) : String := (JsonText.list (ts.map JsonText.ofToken)).print

def dumpTree (root : Node) : String := (JsonText.ofNode root).print

end SmallScheme
