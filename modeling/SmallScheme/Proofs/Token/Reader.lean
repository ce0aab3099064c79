import SmallScheme.Proofs.Token.Lexeme

/-!
What a call of the lexer comes to, in one go. A `Reader` is a place in a source, the text ahead of
it and the number of open parentheses; `Reader.next` cuts the text at the end of the next lexeme,
and `Reader.tokens` goes on to the end. There is no look-ahead to be kept and no loop.

That each token takes at least one character is `Reader.length_rest_lt_of_next`.
-/

namespace SmallScheme

/-! ## places between characters -/

/-- A place between two characters of a source: the bytes before it, its line and column. -/
structure Mark where
  offset : Nat
  position : Position
  deriving DecidableEq, Repr, Inhabited

namespace Mark

/-- The place after one more character. -/
def step (m : Mark) (c : Char) : Mark :=
  ⟨m.offset + c.utf8Size,
    if c = '\n' then ⟨m.position.line + 1, 0⟩ else ⟨m.position.line, m.position.column + 1⟩⟩

def after (m : Mark) (text : List Char) : Mark := text.foldl step m

@[simp]
theorem after_nil (m : Mark) : m.after [] = m := rfl

@[simp]
theorem after_cons (m : Mark) (c : Char) (cs : List Char) :
    m.after (c :: cs) = (m.step c).after cs := rfl

@[simp]
theorem after_append (m : Mark) (a b : List Char) : m.after (a ++ b) = (m.after a).after b :=
  List.foldl_append

theorem offset_after (m : Mark) (text : List Char) :
    (m.after text).offset = m.offset + byteLength text := by
  induction text generalizing m with
  | nil => rfl
  | cons c cs ih => rw [after_cons, ih, byteLength_cons]; simp only [step]; omega

/-- The byte after the first character of the text ahead, or the place itself at the end. -/
def pastNext (m : Mark) : List Char → Nat
  | [] => m.offset
  | c :: _ => m.offset + c.utf8Size

end Mark

/-! ## one token at a time -/

/-- A place in a source and what is ahead. -/
structure Reader where
  mark : Mark
  /-- The text ahead. -/
  rest : List Char
  /-- The number of open parentheses. -/
  depth : Nat
  deriving Repr

/-- The error of a lexeme that starts at `start` and is refused at `here`. A string that is not
closed is at fault from its start; a number is at fault with the character that it runs into;
all other errors are about the character at which they are met. -/
def LexErrorKind.locate (kind : LexErrorKind) (start here : Mark) (rest : List Char) : LexError :=
  match kind with
  | .unclosedString => ⟨kind, ⟨start.offset, here.offset⟩, start.position⟩
  | .invalidNumber => ⟨kind, ⟨start.offset, here.pastNext rest⟩, here.position⟩
  | _ => ⟨kind, ⟨here.offset, here.pastNext rest⟩, here.position⟩

/-- The number of open parentheses after a token. -/
def Token.depthAfter (t : Token) (depth : Nat) : Nat :=
  if t.isOpen then depth + 1 else if t.isClose then depth - 1 else depth

namespace Reader

/-- A reader at the start of a text, whose first character stands at the byte `base`. -/
def ofChars (base : Nat) (text : List Char) : Reader :=
  ⟨⟨if text.isEmpty then 0 else base, ⟨1, 0⟩⟩, text, 0⟩

def ofString (src : String) : Reader := ofChars 0 src.toList

/-- Reads the next token: `none` at the end of the source, if no parenthesis is open there. -/
def next (l : Reader) : Except LexError (Option Token) × Reader :=
  let start := l.mark.after (trivia false l.rest)
  match dropTrivia false l.rest with
  | [] =>
    (if l.depth = 0 then .ok none else .error (LexErrorKind.missingClose.locate start start []),
      ⟨start, [], l.depth⟩)
  | c :: cs =>
    let r := read l.depth c cs
    let stop := start.after r.consumed
    match r.verdict with
    | .ok (kind, text) =>
      let token : Token :=
        ⟨String.ofList text, kind, start.position, ⟨start.offset, stop.offset⟩⟩
      (.ok (some token), ⟨stop, r.rest, token.depthAfter l.depth⟩)
    | .error kind => (.error (kind.locate start stop r.rest), ⟨stop, r.rest, l.depth⟩)

/-! ## all tokens -/

theorem length_rest_lt_of_next {l l' : Reader} {t : Token} (h : l.next = (.ok (some t), l')) :
    l'.rest.length < l.rest.length := by
  have hsplit := trivia_append_dropTrivia l.rest false
  unfold next at h
  dsimp only at h
  split at h
  · split at h <;> simp at h
  · next c cs heq =>
    rw [heq] at hsplit
    have hread := consumed_append_rest_read l.depth c cs
    split at h
    · next hok =>
      have hne := List.length_pos_iff.2 (consumed_ne_nil_of_read hok)
      have hl := congrArg List.length hsplit
      have hr := congrArg List.length hread
      simp only [Prod.mk.injEq] at h
      obtain ⟨-, rfl⟩ := h
      simp at hl hr ⊢
      omega
    · simp at h

def tokens (l : Reader) : Except LexError (List Token) :=
  match _h : l.next with
  | (.error e, _) => .error e
  | (.ok none, _) => .ok []
  | (.ok (some t), l') => (tokens l').map (t :: ·)
termination_by l.rest.length
decreasing_by exact length_rest_lt_of_next _h

theorem tokens_eq (l : Reader) : l.tokens = match l.next with
    | (.error e, _) => .error e
    | (.ok none, _) => .ok []
    | (.ok (some t), l') => l'.tokens.map (t :: ·) := by
  rw [tokens]
  split
  · next h => rw [h]
  · next h => rw [h]
  · next h => rw [h]

end Reader

end SmallScheme
