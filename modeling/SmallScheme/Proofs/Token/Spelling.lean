import Mathlib.Data.List.TakeWhile
import SmallScheme.Proofs.Token.Reading

/-!
How tokens are spelled.

* `Filler last gap` — what may stand between two tokens, or at the end of a source: blanks and
  comments;
* `TokenKind.Shape`, `TokenKind.EndsBefore`: the texts of each kind, and what may follow them;
* `read_spelled`: a lexeme that is read is one of its kind, where it can end;
* `Spells n text ts` — the text, which starts at the byte `n`, is the tokens `ts` with fillers
  around them; `spells_of_lex`: so is every source that lexes.
-/

namespace SmallScheme

open Text (isBlank)

/-! ## what stands between tokens -/

/-- Blanks and comments. A comment runs from `;` through the end of its line; the `last` filler of
a source may have one without a line break. -/
inductive Filler : Bool → List Char → Prop
  | nil {last : Bool} : Filler last []
  | blank {last : Bool} {c : Char} {cs : List Char} :
      isBlank c → Filler last cs → Filler last (c :: cs)
  | comment {last : Bool} {text cs : List Char} :
      '\n' ∉ text → Filler last cs → Filler last (';' :: (text ++ '\n' :: cs))
  | lastComment {text : List Char} : '\n' ∉ text → Filler true (';' :: text)

theorem filler_trivia (cs : List Char) :
    Filler (dropTrivia false cs).isEmpty (trivia false cs) ∧
    ((∃ text tail, trivia true cs = text ++ '\n' :: tail ∧ '\n' ∉ text ∧
        Filler (dropTrivia true cs).isEmpty tail) ∨
      ('\n' ∉ trivia true cs ∧ dropTrivia true cs = [])) := by
  induction cs with
  | nil => exact ⟨.nil, Or.inr ⟨by simp [trivia], rfl⟩⟩
  | cons c cs ih =>
    constructor
    · by_cases hcomment : c = ';'
      · subst hcomment
        simp only [trivia, dropTrivia, Bool.false_eq_true, if_true, if_false]
        rcases ih.2 with ⟨text, tail, htrivia, htext, htail⟩ | ⟨htext, hend⟩
        · rw [htrivia]
          exact .comment htext htail
        · rw [hend]
          exact .lastComment htext
      · by_cases hblank : isBlank c
        · simp only [trivia, dropTrivia, Bool.false_eq_true, if_false, hcomment, hblank, if_true]
          exact .blank hblank ih.1
        · simp only [trivia, Bool.false_eq_true, if_false, hcomment, hblank]
          exact .nil
    · simp only [trivia, dropTrivia, if_true]
      by_cases hbreak : c = '\n'
      · subst hbreak
        exact Or.inl ⟨[], trivia false cs, rfl, by simp, ih.1⟩
      · have hopen : (c != '\n') = true := by simpa using hbreak
        rw [hopen]
        rcases ih.2 with ⟨text, tail, htrivia, htext, htail⟩ | ⟨htext, hend⟩
        · refine Or.inl ⟨c :: text, tail, by rw [htrivia]; rfl, ?_, htail⟩
          simp [Ne.symm hbreak, htext]
        · exact Or.inr ⟨by simp [Ne.symm hbreak, htext], hend⟩

/-! ## the kinds of lexeme -/

namespace TokenKind

def spell (kind : TokenKind) (text : List Char) : List Char :=
  if kind = .string then '"' :: (text ++ ['"']) else text

/-- The texts of each kind. -/
def Shape : TokenKind → List Char → Prop
  | .paren, text => text = ['('] ∨ text = [')']
  | .quote, text => text = ['\'']
  | .string, text => '"' ∉ text ∧ '\n' ∉ text
  | .integer, text => ∃ sign digits, text = sign ++ digits ∧ (sign = [] ∨ sign = ['-']) ∧
      digits ≠ [] ∧ ∀ c ∈ digits, c.isDigit
  | .float, text => ∃ sign whole fraction, text = sign ++ whole ++ '.' :: fraction ∧
      (sign = [] ∨ sign = ['-']) ∧ whole ≠ [] ∧ (∀ c ∈ whole, c.isDigit) ∧
      ∀ c ∈ fraction, c.isDigit
  | .identifier, text => ∃ c cs, text = c :: cs ∧ isIdentifierStart c ∧
      (∀ d ∈ cs, isIdentifierChar d) ∧ (c = '-' → ∀ d, cs.head? = some d → ¬d.isDigit)

/-- A token of this kind can stand before the character `next`, or at the end of a source if there
is none. -/
def EndsBefore : TokenKind → Option Char → Prop
  | .quote, next => next ≠ none
  | .identifier, next => ∀ c, next = some c → ¬isIdentifierChar c
  | .integer, next | .float, next => ∀ c, next = some c → isBlank c ∨ c = ')' ∨ c = ';'
  | .paren, _ | .string, _ => True

theorem spell_ne_nil_of_shape {kind : TokenKind} {text : List Char} (h : kind.Shape text) :
    kind.spell text ≠ [] := by
  cases kind with
  | paren => rcases h with rfl | rfl <;> simp [spell]
  | quote => rw [h]; simp [spell]
  | string => simp [spell]
  | integer =>
    obtain ⟨sign, digits, rfl, -, hdigits, -⟩ := h
    simp [spell, hdigits]
  | float =>
    obtain ⟨sign, whole, fraction, rfl, -⟩ := h
    simp [spell]
  | identifier =>
    obtain ⟨c, cs, rfl, -⟩ := h
    simp [spell]

theorem count_point_of_shape {text : List Char} (h : Shape .float text) : text.count '.' = 1 := by
  obtain ⟨sign, whole, fraction, rfl, hsign, -, hwhole, hfraction⟩ := h
  have hnone : ∀ digits : List Char, (∀ c ∈ digits, c.isDigit) → digits.count '.' = 0 := by
    intro digits hdigits
    refine List.count_eq_zero.2 fun hpoint => ?_
    exact absurd (hdigits '.' hpoint) (by decide)
  have hzero : sign.count '.' = 0 := by rcases hsign with rfl | rfl <;> rfl
  rw [List.count_append, List.count_append, List.count_cons, hzero, hnone _ hwhole,
    hnone _ hfraction]
  rfl

end TokenKind

theorem Token.toList_literal (t : Token) : t.literal.toList = t.kind.spell t.text.toList := by
  unfold literal TokenKind.spell
  split
  · rw [String.toList_append, String.toList_append]
    rfl
  · rfl

/-! ## what is read -/

/-- What was read is a lexeme of its kind, where it can end. -/
structure Reading.Spelled (r : Reading) (kind : TokenKind) (text : List Char) : Prop where
  shape : kind.Shape text
  consumed : r.consumed = kind.spell text
  follows : kind.EndsBefore r.rest.head?

namespace Reading

variable {kind : TokenKind} {text : List Char}

theorem string_spelled {cs : List Char} (h : (string cs).verdict = .ok (kind, text)) :
    (string cs).Spelled kind text := by
  unfold string at h ⊢
  dsimp only at h ⊢
  split at h
  · cases h
  · next c rest hrest =>
    split at h
    · next hc =>
      cases h
      rw [if_pos hc]
      refine ⟨⟨fun hmem => ?_, fun hmem => ?_⟩, rfl, trivial⟩
      · exact absurd (List.mem_takeWhile_imp hmem) (by decide)
      · exact absurd (List.mem_takeWhile_imp hmem) (by decide)
    · cases h

theorem closeNumber_spelled {number : TokenKind} {lexeme rest : List Char}
    (hnumber : number = .integer ∨ number = .float) (hshape : number.Shape lexeme)
    (h : (closeNumber number lexeme rest).verdict = .ok (kind, text)) :
    (closeNumber number lexeme rest).Spelled kind text := by
  unfold closeNumber at h ⊢
  by_cases hends : endsNumber rest
  · rw [if_pos hends] at h ⊢
    cases h
    have hfollows : ∀ c, rest.head? = some c → isBlank c ∨ c = ')' ∨ c = ';' := by
      intro c hc
      obtain ⟨cs, rfl⟩ := List.head?_eq_some_iff.1 hc
      simpa [endsNumber, isNumberEnd, or_assoc] using hends
    rcases hnumber with rfl | rfl
    · exact ⟨hshape, rfl, hfollows⟩
    · exact ⟨hshape, rfl, hfollows⟩
  · rw [if_neg hends] at h
    cases h

theorem number_spelled {sign cs : List Char} (hsign : sign = [] ∨ sign = ['-'])
    (hdigits : cs.takeWhile Char.isDigit ≠ []) (h : (number sign cs).verdict = .ok (kind, text)) :
    (number sign cs).Spelled kind text := by
  have hwhole : ∀ c ∈ cs.takeWhile Char.isDigit, c.isDigit := fun c hc => List.mem_takeWhile_imp hc
  rw [number_eq] at h ⊢
  split at h
  · next hpoint =>
    rw [if_pos hpoint]
    rw [fraction_eq] at h ⊢
    split at h
    · cases h
    · next hsecond =>
      rw [if_neg hsecond]
      refine closeNumber_spelled (Or.inr rfl) ?_ h
      exact ⟨sign, _, _, rfl, hsign, hdigits, hwhole, fun c hc => List.mem_takeWhile_imp hc⟩
  · next hpoint =>
    rw [if_neg hpoint]
    exact closeNumber_spelled (Or.inl rfl) ⟨sign, _, rfl, hsign, hdigits, hwhole⟩ h

theorem identifier_spelled {c : Char} {cs : List Char} (hstart : isIdentifierStart c)
    (hminus : c = '-' → ∀ d, cs.head? = some d → ¬d.isDigit)
    (h : (identifier (c :: cs)).verdict = .ok (kind, text)) :
    (identifier (c :: cs)).Spelled kind text := by
  have hc : isIdentifierChar c := by simp [isIdentifierChar, hstart]
  cases h
  refine ⟨⟨c, cs.takeWhile isIdentifierChar, ?_, hstart, ?_, ?_⟩, rfl, ?_⟩
  · exact List.takeWhile_cons_of_pos hc
  · intro d hd
    exact List.mem_takeWhile_imp hd
  · intro hcm d hd
    refine hminus hcm d ?_
    cases cs with
    | nil => cases hd
    | cons e es =>
      by_cases he : isIdentifierChar e
      · rw [List.takeWhile_cons_of_pos he] at hd
        exact hd
      · rw [List.takeWhile_cons_of_neg he] at hd
        cases hd
  · intro d hd
    have hdrop := List.head?_dropWhile_not isIdentifierChar (c :: cs)
    rw [show (c :: cs).dropWhile isIdentifierChar = (identifier (c :: cs)).rest from rfl, hd]
      at hdrop
    simpa using hdrop

theorem minus_spelled {cs : List Char} (h : (minus cs).verdict = .ok (kind, text)) :
    (minus cs).Spelled kind text := by
  cases cs with
  | nil => exact identifier_spelled (by decide) (fun _ d hd => by cases hd) h
  | cons next cs =>
    simp only [minus] at h ⊢
    by_cases hdigit : next.isDigit
    · rw [if_pos hdigit] at h ⊢
      refine number_spelled (Or.inr rfl) ?_ h
      simp [hdigit]
    · rw [if_neg hdigit] at h ⊢
      split at h
      · next hword =>
        rw [if_pos hword]
        refine identifier_spelled (by decide) (fun _ d hd => ?_) h
        cases hd
        exact hdigit
      · cases h

end Reading

theorem read_spelled {depth : Nat} {c : Char} {cs : List Char} {kind : TokenKind}
    {text : List Char} (h : (read depth c cs).verdict = .ok (kind, text)) :
    (read depth c cs).Spelled kind text := by
  have hstarts := starts_read depth c cs
  generalize read depth c cs = r at h hstarts ⊢
  cases hstarts with
  | opening =>
    cases h
    exact ⟨Or.inl rfl, rfl, trivial⟩
  | closing =>
    cases h
    exact ⟨Or.inr rfl, rfl, trivial⟩
  | quote hne =>
    cases h
    refine ⟨rfl, rfl, ?_⟩
    simpa [Reading.plain, TokenKind.EndsBefore] using hne
  | freeClose | lastQuote | symbol => cases h
  | string => exact Reading.string_spelled h
  | number _ _ hdigit => exact Reading.number_spelled (Or.inl rfl) (by simp [hdigit]) h
  | minus => exact Reading.minus_spelled h
  | identifier _ _ _ hminus hstart =>
    exact Reading.identifier_spelled hstart (fun hc => absurd hc hminus) h

/-! ## spelled tokens -/

/-- The text, which starts at the byte `n` of a source, is spelled by the tokens: they stand where
they say they do, and there are only fillers around them. -/
inductive Spells : Nat → List Char → List Token → Prop
  | done {n : Nat} {gap : List Char} : Filler true gap → Spells n gap []
  | token {n : Nat} {gap rest : List Char} {t : Token} {ts : List Token} :
      Filler false gap → t.kind.Shape t.text.toList → t.kind.EndsBefore rest.head? →
      t.span = ⟨n + byteLength gap, n + byteLength gap + byteLength t.literal.toList⟩ →
      Spells t.span.stop rest ts → Spells n (gap ++ t.literal.toList ++ rest) (t :: ts)

namespace Reader

theorem spells_of_reads {l l' : Reader} {ts : List Token} (h : Reads l ts l')
    (hend : dropTrivia false l'.rest = []) : Spells l.mark.offset l.rest ts := by
  induction h with
  | done l =>
    have hall : trivia false l.rest = l.rest := by
      have hsplit := trivia_append_dropTrivia l.rest false
      rwa [hend, List.append_nil] at hsplit
    have hfiller := (filler_trivia l.rest).1
    rw [hend, hall] at hfiller
    exact .done hfiller
  | @token l l' l'' t ts hnext _ ih =>
    obtain ⟨c, cs, kind, text, hahead, hok, ht, rfl⟩ := next_eq_token hnext
    have hspelled := read_spelled hok
    have hfiller := (filler_trivia l.rest).1
    rw [hahead] at hfiller
    have hkind : t.kind = kind := by rw [ht]; rfl
    have htext : t.text.toList = text := by rw [ht, tokenOf, String.toList_ofList]
    have hliteral : t.literal.toList = (read l.depth c cs).consumed := by
      rw [Token.toList_literal, hspelled.consumed, hkind, htext]
    have hrest : l.rest = trivia false l.rest ++ t.literal.toList ++ (read l.depth c cs).rest := by
      rw [hliteral, List.append_assoc, consumed_append_rest_read, ← hahead,
        trivia_append_dropTrivia]
    have hspells : Spells t.span.stop (read l.depth c cs).rest ts := by
      rw [ht]
      exact ih hend
    rw [hrest]
    refine .token hfiller ?_ ?_ ?_ hspells
    · rw [hkind, htext]
      exact hspelled.shape
    · rw [hkind]
      exact hspelled.follows
    · rw [hliteral, ht]
      simp only [tokenOf, Mark.offset_after]

end Reader

theorem spells_of_lex {src : String} {ts : List Token} (h : lex src = .ok ts) :
    Spells 0 src.toList ts := by
  obtain ⟨l, hreads, hend, -⟩ := exists_reads_of_lex h
  have hspells := Reader.spells_of_reads hreads hend
  rwa [Reader.ofString_eq] at hspells

/-! ## parentheses -/

theorem depth_ne_zero_of_read_close {depth : Nat} {c : Char} {cs : List Char}
    (h : (read depth c cs).verdict = .ok (.paren, [')'])) : depth ≠ 0 := by
  have hconsumed := (read_spelled h).consumed
  have hsplit := consumed_append_rest_read depth c cs
  rw [hconsumed] at hsplit
  obtain ⟨rfl, -⟩ := List.cons.inj hsplit
  rintro rfl
  cases h

theorem Token.depthAfter_add (t : Token) {depth : Nat} (h : t.isClose → depth ≠ 0) :
    t.depthAfter depth + (if t.isClose then 1 else 0) = depth + if t.isOpen then 1 else 0 := by
  unfold depthAfter
  by_cases hclose : t.isClose
  · have hdepth := h hclose
    simp only [isOpen_eq_false_of_isClose hclose, hclose, Bool.false_eq_true, if_true, if_false]
    omega
  · by_cases hopen : t.isOpen <;> simp [hopen, hclose]

namespace Reader

theorem depth_ne_zero_of_next {l l' : Reader} {t : Token} (h : l.next = (.ok (some t), l'))
    (hclose : t.isClose) : l.depth ≠ 0 := by
  obtain ⟨c, cs, kind, text, -, hok, ht, -⟩ := next_eq_token h
  simp only [Token.isClose, Bool.and_eq_true, decide_eq_true_eq] at hclose
  have hkind : kind = .paren := by rw [← hclose.1, ht]; rfl
  have htext : text = [')'] := by
    have hlist := congrArg String.toList hclose.2
    rwa [ht, tokenOf, String.toList_ofList] at hlist
  rw [hkind, htext] at hok
  exact depth_ne_zero_of_read_close hok

theorem depth_add_of_next {l l' : Reader} {t : Token} (h : l.next = (.ok (some t), l')) :
    l'.depth + (if t.isClose then 1 else 0) = l.depth + if t.isOpen then 1 else 0 := by
  have hdepth := t.depthAfter_add (depth_ne_zero_of_next h)
  obtain ⟨c, cs, kind, text, -, -, -, rfl⟩ := next_eq_token h
  exact hdepth

theorem depth_add_of_reads {l l' : Reader} {ts : List Token} (h : Reads l ts l') :
    l'.depth + ts.countP Token.isClose = l.depth + ts.countP Token.isOpen := by
  induction h with
  | done l => rfl
  | token hnext _ ih =>
    have hstep := depth_add_of_next hnext
    rw [List.countP_cons, List.countP_cons]
    omega

theorem exists_reads_of_reads_append {us : List Token} : ∀ {ts : List Token} {l l' : Reader},
    Reads l (ts ++ us) l' → ∃ m, Reads l ts m
  | [], l, _, _ => ⟨l, .done l⟩
  | _ :: _, _, _, .token hnext hrest => by
    obtain ⟨m, hm⟩ := exists_reads_of_reads_append hrest
    exact ⟨m, .token hnext hm⟩

end Reader

end SmallScheme
