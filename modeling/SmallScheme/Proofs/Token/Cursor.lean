import Mathlib.Data.List.Induction
import Mathlib.Logic.Function.Iterate
import SmallScheme.Proofs.Token.Fault

/-!
The cursor of the lexer. However often the lexer is called, and also after errors, it stands between
two characters of the source and knows which line and column this is.

* `positionAt? src n` — the line and the column of a byte, by counting line breaks;
* `Lexer.calls n l` — what the next `n` calls give, and the state that they leave; `Reader.calls` is
  the same for a reader, and `Lexer.calls_ofString` relates the two;
* `Reader.At src before r` — the reader has passed the text `before` of a source; `Reader.At.next`
  and `Reader.At.calls`: every call passes a part of the text ahead;
* `Lexer.iterate_advance`: where the cursor is after some characters;
* `Lexer.Placed`, `LexError.Placed`: all that a lexer and an error say about where they are;
* `cursor_stays_placed`: they are right after any number of calls, and fit into 32 bits but for
  `OnlyBreaks src`, where a line does not (`last_line_leaves_bits`).
-/

namespace SmallScheme

/-! ## lines and columns -/

/-- The line and the column of the place after a text: one line more than there are line breaks, and
as many columns as there are characters after the last of them. -/
def positionAfter (text : List Char) : Position :=
  ⟨1 + text.count '\n', (text.reverse.takeWhile (· != '\n')).length⟩

/-- The line and the column of a byte of a source, if it stands between two characters. -/
def positionAt? (src : String) (n : Nat) : Option Position :=
  (splitAt? n src.toList).map fun p => positionAfter p.1

theorem position_after (text : List Char) :
    (Mark.origin.after text).position = positionAfter text := by
  induction text using List.reverseRecOn with
  | nil => rfl
  | append_singleton text c ih =>
    rw [Mark.after_append, Mark.after_cons, Mark.after_nil, Mark.step, ih]
    by_cases hbreak : c = '\n'
    · subst hbreak
      simp [positionAfter, Nat.add_assoc]
    · simp [positionAfter, hbreak]

theorem positionAt?_of_split {src : String} {before rest : List Char}
    (h : src.toList = before ++ rest) :
    positionAt? src (Mark.origin.after before).offset =
      some (Mark.origin.after before).position := by
  rw [positionAt?, Mark.offset_origin, h, splitAt?_append, position_after]
  rfl

theorem length_le_byteLength (text : List Char) : text.length ≤ byteLength text := by
  induction text with
  | nil => exact Nat.le_refl _
  | cons c cs ih =>
    have hpos := c.utf8Size_pos
    rw [List.length_cons, byteLength_cons]
    omega

/-- The column of a place is at most its offset. -/
theorem column_positionAfter_le (text : List Char) :
    (positionAfter text).column ≤ byteLength text := by
  have hprefix := (List.takeWhile_prefix (l := text.reverse) (· != '\n')).length_le
  have hlength := length_le_byteLength text
  rw [List.length_reverse] at hprefix
  exact Nat.le_trans hprefix hlength

/-- The line of a place is at most one more than its offset, and is that only after nothing but line
breaks. -/
theorem line_positionAfter_le (text : List Char) :
    (positionAfter text).line ≤ byteLength text + 1 ∧
    (byteLength text + 1 ≤ (positionAfter text).line → ∀ c ∈ text, c = '\n') := by
  have hcount : text.count '\n' ≤ text.length := List.count_le_length
  have hlength := length_le_byteLength text
  have hline : (positionAfter text).line = 1 + text.count '\n' := rfl
  refine ⟨by omega, fun hle c hc => ?_⟩
  have hall : text.count '\n' = text.length := by omega
  exact (List.count_eq_length.1 hall c hc).symm

/-- The source is nothing but line breaks, as many as a source with offsets of 32 bits can have. -/
def OnlyBreaks (src : String) : Prop :=
  src.utf8ByteSize + 1 = 4294967296 ∧ ∀ c ∈ src.toList, c = '\n'

/-- Lines and columns fit into 32 bits, but for the last line of a source of line breaks. -/
theorem position_fits {src : String} (hsize : src.utf8ByteSize < 4294967296) {n : Nat}
    {p : Position} (h : positionAt? src n = some p) :
    n < 4294967296 ∧ p.column < 4294967296 ∧ (p.line < 4294967296 ∨ OnlyBreaks src) := by
  obtain ⟨⟨before, rest⟩, hsplit, rfl⟩ := Option.map_eq_some_iff.1 h
  obtain ⟨hsrc, rfl⟩ := splitAt?_eq_some_iff.1 hsplit
  have hbytes : src.utf8ByteSize = byteLength before + byteLength rest := by
    rw [utf8ByteSize_eq_byteLength, hsrc, byteLength_append]
  have hcolumn := column_positionAfter_le before
  obtain ⟨hline, hbreaks⟩ := line_positionAfter_le before
  refine ⟨by omega, Nat.lt_of_le_of_lt hcolumn (by omega), ?_⟩
  by_cases hlt : (positionAfter before).line < 4294967296
  · exact .inl hlt
  · -- then there is no room for anything but the line breaks
    have hrest : rest = [] := by
      have hlength := length_le_byteLength rest
      exact List.eq_nil_of_length_eq_zero (by omega)
    refine .inr ⟨by omega, fun c hc => hbreaks (by omega) c ?_⟩
    rwa [hsrc, hrest, List.append_nil] at hc

/-! ## calls -/

/-- What the next `n` calls give, errors included, and the state that they leave. -/
def Lexer.calls : Nat → Lexer → List (Except LexError (Option Token)) × Lexer
  | 0, l => ([], l)
  | n + 1, l => (l.next.1 :: (calls n l.next.2).1, (calls n l.next.2).2)

@[inherit_doc Lexer.calls]
def Reader.calls : Nat → Reader → List (Except LexError (Option Token)) × Reader
  | 0, r => ([], r)
  | n + 1, r => (r.next.1 :: (calls n r.next.2).1, (calls n r.next.2).2)

theorem Lexer.calls_ofReader (n : Nat) : ∀ r : Reader,
    (ofReader r).calls n = ((r.calls n).1, ofReader (r.calls n).2) := by
  induction n with
  | zero => exact fun r => rfl
  | succ n ih =>
    intro r
    rw [calls, next_ofReader, ih]
    rfl

theorem Lexer.calls_ofString (n : Nat) (src : String) : (ofString src).calls n =
    (((Reader.ofString src).calls n).1, ofReader ((Reader.ofString src).calls n).2) := by
  rw [ofString, ofChars_eq, calls_ofReader]
  rfl

/-- The tokens among the results of calls. -/
def returned (rs : List (Except LexError (Option Token))) : List Token :=
  rs.filterMap fun r => r.toOption.join

theorem returned_token (t : Token) (rs : List (Except LexError (Option Token))) :
    returned (.ok (some t) :: rs) = t :: returned rs := rfl

theorem returned_of_not_token {r : Except LexError (Option Token)}
    {rs : List (Except LexError (Option Token))} (h : ¬∃ t, r = .ok (some t)) :
    returned (r :: rs) = returned rs := by
  rcases r with e | _ | t
  · rfl
  · rfl
  · exact absurd ⟨t, rfl⟩ h

namespace Reader

/-- The reader has passed the text `before` of the source, and no more parentheses are open than
there were characters. -/
structure At (src : String) (before : List Char) (l : Reader) : Prop where
  source : src.toList = before ++ l.rest
  mark : l.mark = Mark.origin.after before
  depth : l.depth + l.rest.length ≤ src.toList.length

theorem at_ofString (src : String) : At src [] (ofString src) := by
  rw [ofString_eq]
  exact ⟨rfl, rfl, Nat.le_of_eq (Nat.zero_add _)⟩

/-- A call passes a part of the text ahead. -/
theorem exists_passed (l : Reader) :
    ∃ passed, l.rest = passed ++ l.next.2.rest ∧ l.next.2.mark = l.mark.after passed := by
  have hsplit := trivia_append_dropTrivia l.rest false
  unfold next
  dsimp only
  split
  · next hahead =>
    rw [hahead, List.append_nil] at hsplit
    exact ⟨trivia false l.rest, by rw [hsplit, List.append_nil], rfl⟩
  · next c cs hahead =>
    have hread := consumed_append_rest_read l.depth c cs
    refine ⟨trivia false l.rest ++ (read l.depth c cs).consumed, ?_⟩
    rw [List.append_assoc, Mark.after_append]
    split
    · exact ⟨by rw [hread, ← hahead, hsplit], rfl⟩
    · exact ⟨by rw [hread, ← hahead, hsplit], rfl⟩

theorem depth_next_of_not_token {l : Reader} (h : ¬∃ t, l.next.1 = .ok (some t)) :
    l.next.2.depth = l.depth := by
  unfold next at h ⊢
  dsimp only at h ⊢
  split
  · rfl
  · next c cs hahead =>
    rw [hahead] at h
    dsimp only at h
    split
    · next hok =>
      rw [hok] at h
      exact absurd ⟨_, rfl⟩ h
    · rfl

/-- A parenthesis that is opened takes a character from the text ahead. -/
theorem depth_next_le (l : Reader) :
    l.next.2.depth + l.next.2.rest.length ≤ l.depth + l.rest.length := by
  by_cases htoken : ∃ t, l.next.1 = .ok (some t)
  · obtain ⟨t, ht⟩ := htoken
    have hnext : l.next = (.ok (some t), l.next.2) := by rw [← ht]
    have hcount := depth_add_of_next hnext
    have hlt := length_rest_lt_of_next hnext
    split at hcount <;> split at hcount <;> omega
  · obtain ⟨passed, hrest, -⟩ := l.exists_passed
    have hdepth := depth_next_of_not_token htoken
    have hlength := congrArg List.length hrest
    rw [List.length_append] at hlength
    omega

/-- **One call.** The reader goes on to a later place of the source. -/
theorem At.next {src : String} {before : List Char} {l : Reader} (h : At src before l) :
    ∃ passed, At src (before ++ passed) l.next.2 := by
  obtain ⟨passed, hrest, hmark⟩ := l.exists_passed
  refine ⟨passed, ?_, ?_, Nat.le_trans l.depth_next_le h.depth⟩
  · rw [h.source, hrest, List.append_assoc]
  · rw [hmark, h.mark, Mark.after_append]

end Reader

/-! ## one character after another -/

namespace Lexer

theorem iterate_advance_ofReader (k : Nat) : ∀ (m : Mark) (text : List Char) (depth : Nat),
    advance^[k] (ofReader ⟨m, text, depth⟩) =
      ofReader ⟨m.after (text.take k), text.drop k, depth⟩ := by
  induction k with
  | zero => exact fun m text depth => rfl
  | succ k ih =>
    intro m text depth
    rw [Function.iterate_succ_apply]
    cases text with
    | nil =>
      rw [advance_ofReader_nil, ih]
      simp only [List.take_nil, List.drop_nil]
    | cons c cs =>
      rw [advance_ofReader, ih, List.take_succ_cons, List.drop_succ_cons, Mark.after_cons]

theorem iterate_advance (src : String) (k : Nat) : advance^[k] (ofString src) =
    ofReader ⟨Mark.origin.after (src.toList.take k), src.toList.drop k, 0⟩ := by
  rw [ofString, ofChars_eq, ← Reader.ofString, Reader.ofString_eq, iterate_advance_ofReader]
  rfl

theorem map_snd_charIndices (text : List Char) : ∀ base : Nat,
    (charIndices base text).map Prod.snd = text := by
  induction text with
  | nil => exact fun base => rfl
  | cons c cs ih => exact fun base => congrArg (c :: ·) (ih _)

/-- The cursor and the input hold the text ahead. -/
theorem ahead_ofReader (r : Reader) :
    (ofReader r).ch.toList ++ (ofReader r).nextCh.toList ++ (ofReader r).input.map Prod.snd =
      r.rest := by
  simp only [ofReader, List.map_drop, map_snd_charIndices]
  rcases r.rest with _ | ⟨c, _ | ⟨d, cs⟩⟩ <;> rfl

end Lexer

/-! ## what is said about places -/

/-- The lexer is where it says it is, and knows what it has opened. -/
structure Lexer.Placed (src : String) (ts : List Token) (l : Lexer) : Prop where
  /-- The cursor stands between two characters, and the text ahead is what follows it. -/
  ahead : slice? src ⟨l.position, src.utf8ByteSize⟩ =
    some (String.ofList (l.ch.toList ++ l.nextCh.toList ++ l.input.map Prod.snd))
  char : charAt? src l.position = l.ch
  nextPosition : l.nextPosition = l.position + l.ch.elim 0 Char.utf8Size
  nextChar : charAt? src l.nextPosition = l.nextCh
  here : positionAt? src l.position = some ⟨l.line, l.column⟩
  /-- Of the tokens so far, each opening parenthesis counts one up and each closing one down. -/
  depth : l.depth + ts.countP Token.isClose = ts.countP Token.isOpen

/-- The error is where it says it is. The position is that of its start, but of a number it is that
of the character which the number runs into, the last one of its span. -/
structure LexError.Placed (src : String) (e : LexError) : Prop where
  marks : e.span.Marks src
  position : e.kind ≠ .invalidNumber → positionAt? src e.span.start = some e.position
  number : e.kind = .invalidNumber → ∃ k c, charAt? src k = some c ∧ e.span.start ≤ k ∧
    e.span.stop = k + c.utf8Size ∧ positionAt? src k = some e.position

/-- The counters of the lexer fit into 32 bits. -/
structure Lexer.Fits (src : String) (l : Lexer) : Prop where
  position : l.position < 4294967296
  nextPosition : l.nextPosition < 4294967296
  line : l.line < 4294967296 ∨ OnlyBreaks src
  column : l.column < 4294967296
  depth : l.depth < 4294967296

namespace Reader

section At

variable {src : String} {before : List Char} {r : Reader}

theorem At.offset (h : At src before r) : r.mark.offset = byteLength before := by
  rw [h.mark, Mark.offset_origin]

theorem At.position (h : At src before r) :
    positionAt? src r.mark.offset = some r.mark.position := by
  rw [h.mark]
  exact positionAt?_of_split h.source

theorem At.placed {ts : List Token} (h : At src before r)
    (hdepth : r.depth + ts.countP Token.isClose = ts.countP Token.isOpen) :
    (Lexer.ofReader r).Placed src ts := by
  have hoffset := h.offset
  have hsrc := h.source
  refine ⟨?ahead, ?char, ?nextPosition, ?nextChar, h.position, hdepth⟩
  case ahead =>
    rw [Lexer.ahead_ofReader]
    refine slice?_eq_some_iff.2 ⟨before, [], ?_, hoffset, ?_⟩
    · rw [String.toList_ofList, List.append_nil, hsrc]
    · rw [utf8ByteSize_eq_byteLength, String.toList_ofList, hsrc, byteLength_append]
  case char => exact (congrArg _ hoffset).trans (charAt?_eq_head? hsrc)
  case nextPosition =>
    simp only [Lexer.ofReader]
    cases r.rest <;> rfl
  case nextChar =>
    simp only [Lexer.ofReader]
    cases hrest : r.rest with
    | nil =>
      rw [hrest] at hsrc
      rw [Mark.pastNext, hoffset, charAt?_eq_head? hsrc]
      rfl
    | cons c cs =>
      have hnext : src.toList = before ++ [c] ++ cs := by
        rw [hsrc, hrest, List.append_assoc]
        rfl
      have hbytes : r.mark.offset + c.utf8Size = byteLength (before ++ [c]) := by
        rw [byteLength_append, hoffset]
        rfl
      rw [Mark.pastNext, hbytes, charAt?_eq_head? hnext]
      rfl

theorem At.fits (h : At src before r) (hsize : src.utf8ByteSize < 4294967296) :
    (Lexer.ofReader r).Fits src := by
  obtain ⟨hposition, hcolumn, hline⟩ := position_fits hsize h.position
  have hbytes : src.utf8ByteSize = byteLength before + byteLength r.rest := by
    rw [utf8ByteSize_eq_byteLength, h.source, byteLength_append]
  have hlength := length_le_byteLength src.toList
  rw [← utf8ByteSize_eq_byteLength] at hlength
  have hdepth := h.depth
  have hoffset := h.offset
  refine ⟨hposition, ?_, hline, hcolumn, by rw [Lexer.depth_ofReader]; omega⟩
  simp only [Lexer.ofReader]
  cases hrest : r.rest with
  | nil =>
    rw [Mark.pastNext]
    omega
  | cons c cs =>
    rw [hrest, byteLength_cons] at hbytes
    rw [Mark.pastNext]
    omega

/-- The cursor has come here one character at a time, and only the depth was set. -/
theorem At.iterate (h : At src before r) : Lexer.ofReader r =
    { Lexer.advance^[before.length] (.ofString src) with depth := r.depth } := by
  have hsrc := h.source
  rw [Lexer.iterate_advance, hsrc, List.take_left, List.drop_left, ← h.mark]
  rfl

/-- A token that a call gives has the position of its start. -/
theorem At.position_token (h : At src before r) {t : Token} {r' : Reader}
    (hnext : r.next = (.ok (some t), r')) : positionAt? src t.span.start = some t.position := by
  obtain ⟨c, cs, kind, text, hahead, -, rfl, -⟩ := next_eq_token hnext
  have hsplit : src.toList = before ++ trivia false r.rest ++ dropTrivia false r.rest := by
    rw [List.append_assoc, trivia_append_dropTrivia]
    exact h.source
  have hposition := positionAt?_of_split hsplit
  rw [Mark.after_append, ← h.mark] at hposition
  exact hposition

end At

/-- One character after another, the cursor is always somewhere in the source. -/
theorem at_drop (src : String) (k : Nat) :
    At src (src.toList.take k) ⟨Mark.origin.after (src.toList.take k), src.toList.drop k, 0⟩ where
  source := (List.take_append_drop k src.toList).symm
  mark := rfl
  depth := by simp

end Reader

/-! ## errors -/

/-- The place of a lexeme that starts after `before` and is refused after `consumed`. -/
theorem placed_locate {src : String} {before consumed rest : List Char} {kind : LexErrorKind}
    (h : src.toList = before ++ consumed ++ rest) (hrest : kind = .invalidNumber → rest ≠ []) :
    (kind.locate (Mark.origin.after before) (Mark.origin.after (before ++ consumed)) rest).Placed
      src := by
  have hmarks := marks_span_locate h kind
  have hstart := positionAt?_of_split (h.trans (List.append_assoc _ _ _))
  have hhere := positionAt?_of_split h
  cases kind with
  | unclosedString => exact ⟨hmarks, fun _ => hstart, by rintro ⟨⟩⟩
  | invalidNumber =>
    refine ⟨hmarks, fun hne => absurd rfl hne, fun _ => ?_⟩
    cases rest with
    | nil => exact absurd rfl (hrest rfl)
    | cons c cs =>
      refine ⟨(Mark.origin.after (before ++ consumed)).offset, c, ?_, ?_, rfl, hhere⟩
      · rw [Mark.offset_origin, charAt?_eq_head? h]
        rfl
      · simp only [LexErrorKind.locate, Mark.after_append, Mark.offset_after]
        omega
  | missingClose | endOfInput | invalidSymbol | freeClose | loneMinus | lineBreak | secondPoint =>
    exact ⟨hmarks, fun _ => hhere, by rintro ⟨⟩⟩

namespace Reading

theorem closeNumber_invalid {kind : TokenKind} {lexeme rest : List Char}
    (h : (closeNumber kind lexeme rest).verdict = .error .invalidNumber) : rest ≠ [] := by
  rintro rfl
  cases h

theorem number_invalid {sign cs : List Char}
    (h : (number sign cs).verdict = .error .invalidNumber) : (number sign cs).rest ≠ [] := by
  rw [number_eq] at h ⊢
  split at h
  · next hpoint =>
    rw [if_pos hpoint]
    rw [fraction_eq] at h ⊢
    split at h
    · cases h
    · next hsecond =>
      rw [if_neg hsecond, rest_closeNumber]
      exact closeNumber_invalid h
  · next hpoint =>
    rw [if_neg hpoint, rest_closeNumber]
    exact closeNumber_invalid h

theorem string_not_invalid (cs : List Char) :
    (string cs).verdict ≠ .error .invalidNumber := by
  unfold string
  dsimp only
  split
  · rintro ⟨⟩
  · split
    · rintro ⟨⟩
    · rintro ⟨⟩

theorem minus_invalid {cs : List Char} (h : (minus cs).verdict = .error .invalidNumber) :
    (minus cs).rest ≠ [] := by
  unfold minus at h ⊢
  split at h
  · cases h
  · split at h
    · next hdigit =>
      rw [if_pos hdigit]
      exact number_invalid h
    · split at h <;> cases h

end Reading

/-- A number that is invalid runs into a character. -/
theorem read_invalid {depth : Nat} {c : Char} {cs : List Char}
    (h : (read depth c cs).verdict = .error .invalidNumber) : (read depth c cs).rest ≠ [] := by
  have hstarts := starts_read depth c cs
  generalize read depth c cs = r at h hstarts ⊢
  cases hstarts with
  | opening | closing | freeClose | quote | lastQuote | identifier | symbol => cases h
  | string => exact absurd h (Reading.string_not_invalid cs)
  | number => exact Reading.number_invalid h
  | minus => exact Reading.minus_invalid h

namespace Reader

/-- An error that a call gives is where it says it is. -/
theorem At.placed_error {src : String} {before : List Char} {l l' : Reader} {e : LexError}
    (h : At src before l) (hnext : l.next = (.error e, l')) : e.Placed src := by
  have hsplit := trivia_append_dropTrivia l.rest false
  by_cases hend : dropTrivia false l.rest = []
  · -- the source ends inside a form
    have hfirst := next_of_end hend
    rw [hnext] at hfirst
    by_cases hdepth : l.depth = 0
    · rw [if_pos hdepth] at hfirst
      cases hfirst
    · rw [if_neg hdepth] at hfirst
      cases hfirst
      rw [hend, List.append_nil] at hsplit
      have hsrc : src.toList = before ++ trivia false l.rest ++ [] ++ [] := by
        rw [List.append_nil, List.append_nil, hsplit]
        exact h.source
      have hplaced := @placed_locate _ _ _ _ .missingClose hsrc (by rintro ⟨⟩)
      rw [List.append_nil, Mark.after_append, ← h.mark] at hplaced
      exact hplaced
  · obtain ⟨c, cs, kind, hahead, hverdict, rfl⟩ := next_eq_error hnext hend
    rw [h.mark, ← Mark.after_append, ← Mark.after_append]
    refine placed_locate ?_ fun hkind => read_invalid (hkind ▸ hverdict)
    rw [List.append_assoc, List.append_assoc, consumed_append_rest_read, ← hahead, hsplit]
    exact h.source

/-- **Any number of calls.** They leave the reader at a place of the source, and each of them was
one from such a place. -/
theorem At.calls {src : String} (n : Nat) : ∀ {before : List Char} {l : Reader}, At src before l →
    (∃ before', At src before' (l.calls n).2) ∧
    ∀ r ∈ (l.calls n).1, ∃ before' l', At src before' l' ∧ l'.next.1 = r := by
  induction n with
  | zero =>
    intro before l h
    refine ⟨⟨before, h⟩, ?_⟩
    rintro r ⟨⟩
  | succ n ih =>
    intro before l h
    obtain ⟨passed, hnext⟩ := h.next
    obtain ⟨hlast, hresults⟩ := ih hnext
    refine ⟨hlast, fun r hr => ?_⟩
    rcases List.mem_cons.1 hr with rfl | hr
    · exact ⟨before, l, h, rfl⟩
    · exact hresults r hr

theorem depth_calls (n : Nat) : ∀ l : Reader,
    (l.calls n).2.depth + (returned (l.calls n).1).countP Token.isClose =
      l.depth + (returned (l.calls n).1).countP Token.isOpen := by
  induction n with
  | zero => exact fun l => rfl
  | succ n ih =>
    intro l
    have hrest := ih l.next.2
    rw [calls]
    by_cases htoken : ∃ t, l.next.1 = .ok (some t)
    · obtain ⟨t, ht⟩ := htoken
      have hstep := depth_add_of_next (l := l) (t := t) (by rw [← ht])
      rw [ht, returned_token, List.countP_cons, List.countP_cons]
      dsimp only
      omega
    · rw [returned_of_not_token htoken]
      have hsame := depth_next_of_not_token htoken
      dsimp only
      omega

end Reader

/-- **The cursor stays right.** After any number of calls, errors included, the lexer stands between
two characters of the source, with the two characters ahead of it, the byte after the first, the
line and the column as they are there, and as many parentheses open as the tokens say. Each token
and each error was where it says it was. The cursor has come here one character at a time, and no
counter leaves 32 bits on the way, but for the line at the end of a source of nothing but line
breaks that is as long as can be. -/
theorem cursor_stays_placed {src : String} (hsize : src.utf8ByteSize < 4294967296) {n : Nat}
    {rs : List (Except LexError (Option Token))} {l : Lexer}
    (h : (Lexer.ofString src).calls n = (rs, l)) :
    l.Placed src (returned rs) ∧ l.Fits src ∧
    (∃ k, l = { Lexer.advance^[k] (.ofString src) with depth := l.depth }) ∧
    (∀ k, (Lexer.advance^[k] (.ofString src)).Fits src) ∧
    (∀ t, .ok (some t) ∈ rs → positionAt? src t.span.start = some t.position) ∧
    ∀ e, .error e ∈ rs → e.Placed src := by
  obtain ⟨⟨before, hlast⟩, hresults⟩ := (Reader.at_ofString src).calls n
  have hdepth := (Reader.ofString src).depth_calls n
  have hzero : (Reader.ofString src).depth = 0 := by rw [Reader.ofString_eq]
  rw [hzero, Nat.zero_add] at hdepth
  rw [Lexer.calls_ofString] at h
  obtain ⟨rfl, rfl⟩ := Prod.mk.inj h
  refine ⟨hlast.placed hdepth, hlast.fits hsize, ⟨_, hlast.iterate⟩, fun k => ?_, fun t ht => ?_,
    fun e he => ?_⟩
  · rw [Lexer.iterate_advance]
    exact (Reader.at_drop src k).fits hsize
  · obtain ⟨before', r, hat, hnext⟩ := hresults _ ht
    exact hat.position_token (Prod.ext hnext rfl)
  · obtain ⟨before', r, hat, hnext⟩ := hresults _ he
    exact hat.placed_error (Prod.ext hnext rfl)

/-- A character of two bytes, a comment, a string that breaks off and a number that is none, after
which the lexer goes on. -/
theorem cursor_stays_placed_after_errors :
    "(λ;\n\"a\n1x".utf8ByteSize < 4294967296 ∧
    ∃ rs l, (Lexer.ofString "(λ;\n\"a\n1x").calls 5 = (rs, l) ∧
      returned rs = [⟨"(", .paren, ⟨1, 0⟩, ⟨0, 1⟩⟩, ⟨"λ", .identifier, ⟨1, 1⟩, ⟨1, 3⟩⟩,
        ⟨"x", .identifier, ⟨3, 1⟩, ⟨9, 10⟩⟩] ∧
      l.Placed "(λ;\n\"a\n1x" (returned rs) ∧
      LexError.Placed "(λ;\n\"a\n1x" ⟨.invalidNumber, ⟨8, 10⟩, ⟨3, 1⟩⟩ := by
  have hsize : "(λ;\n\"a\n1x".utf8ByteSize < 4294967296 := by decide
  have hcalls : (Lexer.ofString "(λ;\n\"a\n1x").calls 5 =
      ([.ok (some ⟨"(", .paren, ⟨1, 0⟩, ⟨0, 1⟩⟩),
        .ok (some ⟨"λ", .identifier, ⟨1, 1⟩, ⟨1, 3⟩⟩),
        .error ⟨.lineBreak, ⟨7, 8⟩, ⟨2, 2⟩⟩, .error ⟨.invalidNumber, ⟨8, 10⟩, ⟨3, 1⟩⟩,
        .ok (some ⟨"x", .identifier, ⟨3, 1⟩, ⟨9, 10⟩⟩)], ⟨10, 10, none, none, [], 3, 2, 1⟩) :=
    (Lexer.calls_ofString 5 _).trans rfl
  obtain ⟨hplaced, -, -, -, -, herrors⟩ := cursor_stays_placed hsize hcalls
  exact ⟨hsize, _, _, hcalls, rfl, hplaced, herrors _ (by simp)⟩

/-- Line breaks are passed in one call, and have one byte each. -/
theorem dropTrivia_breaks {text : List Char} (h : ∀ c ∈ text, c = '\n') :
    dropTrivia false text = [] ∧ byteLength text = text.length := by
  induction text with
  | nil => exact ⟨rfl, rfl⟩
  | cons c cs ih =>
    obtain rfl : c = '\n' := h c List.mem_cons_self
    obtain ⟨hdrop, hbytes⟩ := ih fun d hd => h d (List.mem_cons_of_mem _ hd)
    refine ⟨hdrop, ?_⟩
    rw [byteLength_cons, hbytes, List.length_cons, Nat.add_comm]
    rfl

/-- The line of a source of nothing but line breaks leaves 32 bits in the first call, if the source
is as long as can be. -/
theorem line_of_onlyBreaks {src : String} (h : OnlyBreaks src)
    {rs : List (Except LexError (Option Token))} {l : Lexer}
    (hcalls : (Lexer.ofString src).calls 1 = (rs, l)) : l.line = 4294967296 := by
  obtain ⟨hsize, hbreaks⟩ := h
  obtain ⟨hdrop, hbytes⟩ := dropTrivia_breaks hbreaks
  have hall := trivia_append_dropTrivia src.toList false
  rw [hdrop, List.append_nil] at hall
  rw [Lexer.calls_ofString] at hcalls
  obtain ⟨-, rfl⟩ := Prod.mk.inj hcalls
  have hmark : (Reader.ofString src).next.2.mark = Mark.origin.after src.toList := by
    rw [Reader.ofString_eq, Reader.next]
    simp only [hdrop, hall]
    rfl
  have hcount : src.toList.count '\n' = src.toList.length :=
    List.count_eq_length.2 fun c hc => (hbreaks c hc).symm
  have hline : (Reader.ofString src).next.2.mark.position.line = 4294967296 := by
    rw [hmark, position_after, positionAfter, hcount, ← hbytes, ← utf8ByteSize_eq_byteLength,
      Nat.add_comm, hsize]
  exact hline

theorem onlyBreaks_replicate {n : Nat} (hn : n + 1 = 4294967296) :
    OnlyBreaks (String.ofList (List.replicate n '\n')) := by
  have hbreaks : ∀ c ∈ List.replicate n '\n', c = '\n' := fun c hc => List.eq_of_mem_replicate hc
  refine ⟨?_, ?_⟩
  · rw [utf8ByteSize_eq_byteLength, String.toList_ofList, (dropTrivia_breaks hbreaks).2,
      List.length_replicate, hn]
  · rw [String.toList_ofList]
    exact hbreaks

/-- The exception is one: this source has offsets of 32 bits, and its last line is beyond them. -/
theorem last_line_leaves_bits :
    (String.ofList (List.replicate 4294967295 '\n')).utf8ByteSize < 4294967296 ∧
    ∃ rs l, (Lexer.ofString (String.ofList (List.replicate 4294967295 '\n'))).calls 1 = (rs, l) ∧
      ¬l.line < 4294967296 := by
  have hbreaks : OnlyBreaks (String.ofList (List.replicate 4294967295 '\n')) :=
    onlyBreaks_replicate rfl
  have hsize := hbreaks.1
  obtain ⟨rs, l, hcalls⟩ : ∃ rs l,
      (Lexer.ofString (String.ofList (List.replicate 4294967295 '\n'))).calls 1 = (rs, l) :=
    ⟨_, _, rfl⟩
  have hline := line_of_onlyBreaks hbreaks hcalls
  exact ⟨by omega, rs, l, hcalls, by omega⟩

end SmallScheme
