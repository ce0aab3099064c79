import SmallScheme.Evaluation
import SmallScheme.Proofs.Node.Form
import SmallScheme.Proofs.Token.Recognition

/-!
Which literals have no value. A token that the lexer gives is spelled as its kind asks, so that it
can be read, but for an integer that 64 bits do not hold.

* `integerValue text` — the integer that an optional minus sign and digits spell;
* `readInt_eq_none_iff`: it is not read exactly if it lies outside of the range;
* `exists_readFloat`: digits with a decimal point are always read;
* `literalValue_leaf_error`: so the only literals without a value are such integers.
-/

namespace SmallScheme

/-! ## integers -/

/-- The integer that an optional minus sign and digits spell. -/
def integerValue (text : List Char) : Int :=
  if text.head? = some '-' then -(digitsValue text.tail : Int) else digitsValue text

/-- The integer lies outside of the range of 64 bits. -/
def OutOfRange (n : Int) : Prop := n < -9223372036854775808 ∨ 9223372036854775807 < n

theorem fitsInt64_iff {n : Int} : fitsInt64 n ↔ ¬OutOfRange n := by
  simp only [fitsInt64, OutOfRange, Bool.and_eq_true, decide_eq_true_eq]
  omega

theorem splitSign_of_isDigit {c : Char} (h : c.isDigit) (cs : List Char) :
    splitSign (c :: cs) = (false, c :: cs) := by
  unfold splitSign
  split
  · next heq =>
    obtain ⟨rfl, -⟩ := List.cons.inj heq
    exact absurd h (by decide)
  · next heq =>
    obtain ⟨rfl, -⟩ := List.cons.inj heq
    exact absurd h (by decide)
  · rfl

theorem readDigits_of_shape {text : List Char} (h : TokenKind.Shape .integer text) :
    readDigits text = some (integerValue text) := by
  obtain ⟨sign, digits, rfl, hsign, hne, hdigits⟩ := h
  have hall : digits.all Char.isDigit := List.all_eq_true.2 hdigits
  obtain ⟨c, cs, rfl⟩ := List.exists_cons_of_ne_nil hne
  have hc : c.isDigit := hdigits c List.mem_cons_self
  rcases hsign with rfl | rfl
  · have hminus : c ≠ '-' := by
      rintro rfl
      exact absurd hc (by decide)
    rw [List.nil_append, readDigits, splitSign_of_isDigit hc]
    simp [hall, integerValue, hminus]
  · simp [readDigits, splitSign, hall, integerValue]

theorem readInt_eq_none_iff {text : String} (h : TokenKind.Shape .integer text.toList) :
    readInt text = none ↔ OutOfRange (integerValue text.toList) := by
  rw [readInt, readDigits_of_shape h, Option.bind_some]
  by_cases hrange : OutOfRange (integerValue text.toList)
  · simp [hrange, fitsInt64_iff.not_left.2 hrange]
  · simp [hrange, fitsInt64_iff.2 hrange]

/-! ## numbers with a decimal point -/

theorem exists_decimal {whole fraction : List Char} (hne : whole ≠ [])
    (hwhole : ∀ c ∈ whole, c.isDigit) (hfraction : ∀ c ∈ fraction, c.isDigit) :
    ∃ d, Decimal.read (whole ++ '.' :: fraction) = some d := by
  have hpoint : ∀ c, ('.' :: fraction).head? = some c → ¬c.isDigit := by
    rintro _ ⟨⟩
    decide
  obtain ⟨htake, hdrop⟩ := span_append_of_head hwhole hpoint
  have htake' : fraction.takeWhile Char.isDigit = fraction := List.takeWhile_eq_self_iff.2 hfraction
  have hdrop' : fraction.dropWhile Char.isDigit = [] := List.dropWhile_eq_nil_iff.2 hfraction
  unfold Decimal.read
  simp [htake, hdrop, htake', hdrop', hne, Decimal.readExponent]

theorem exists_readUnsigned {text : List Char} {d : Decimal} (h : Decimal.read text = some d) :
    ∃ x, readUnsigned text = some x := by
  unfold readUnsigned
  dsimp only
  split
  · exact ⟨_, rfl⟩
  · split
    · exact ⟨_, rfl⟩
    · rw [h]
      exact ⟨_, rfl⟩

theorem exists_readFloat {text : String} (h : TokenKind.Shape .float text.toList) :
    ∃ x, readFloat text = some x := by
  obtain ⟨sign, whole, fraction, htext, hsign, hne, hwhole, hfraction⟩ := h
  obtain ⟨d, hd⟩ := exists_decimal hne hwhole hfraction
  obtain ⟨x, hx⟩ := exists_readUnsigned hd
  have hsplit : ∃ negative, splitSign text.toList = (negative, whole ++ '.' :: fraction) := by
    rw [htext]
    rcases hsign with rfl | rfl
    · obtain ⟨c, cs, rfl⟩ := List.exists_cons_of_ne_nil hne
      exact ⟨false, splitSign_of_isDigit (hwhole c List.mem_cons_self) _⟩
    · exact ⟨true, rfl⟩
  obtain ⟨negative, hsplit⟩ := hsplit
  exact ⟨if negative then -x else x, by rw [readFloat, hsplit]; dsimp only; rw [hx]; rfl⟩

/-! ## literals -/

theorem literalValue_error {n : Node} {e : EvalError} (h : literalValue n = .error e) :
    (n.token = none ∧ e = .noValue n.print n.span) ∨
      ∃ t, n.token = some t ∧ e = .invalidLiteral t.text t.kind n.span := by
  unfold literalValue at h
  split at h
  · next hnone =>
    cases h
    exact .inl ⟨hnone, rfl⟩
  · next t ht =>
    dsimp only at h
    split at h
    · cases h
    · cases h
      exact .inr ⟨t, ht, rfl⟩

/-- A literal of a source has a value, unless it is an integer out of range. -/
theorem literalValue_leaf_error {t : Token} (hatom : t.IsAtom)
    (hshape : t.kind.Shape t.text.toList) (hliteral : (Node.leaf t).kind = .literal) {e : EvalError}
    (h : literalValue (Node.leaf t) = .error e) :
    t.kind = .integer ∧ OutOfRange (integerValue t.text.toList) ∧
      e = .invalidLiteral t.text .integer t.span := by
  have hinvalid : e = .invalidLiteral t.text t.kind t.span := by
    rcases literalValue_error h with ⟨hnone, -⟩ | ⟨u, hu, he⟩
    · cases hnone
    · cases hu
      exact he
  cases hkind : t.kind with
  | integer =>
    rw [hkind] at hshape hinvalid
    refine ⟨rfl, (readInt_eq_none_iff hshape).1 ?_, hinvalid⟩
    cases hread : readInt t.text with
    | none => rfl
    | some i => simp [literalValue, Node.leaf, Node.ofToken, hkind, hread] at h
  | float =>
    rw [hkind] at hshape
    obtain ⟨x, hx⟩ := exists_readFloat hshape
    simp [literalValue, Node.leaf, Node.ofToken, hkind, hx] at h
  | string => simp [literalValue, Node.leaf, Node.ofToken, hkind] at h
  | identifier => simp [Node.leaf, Node.ofToken, hkind] at hliteral
  | paren =>
    -- a parenthesis is no form by itself
    rw [hkind] at hshape
    rcases hshape with htext | htext
    · have hopen : t.isOpen := Token.isOpen_iff.2 ⟨hkind, String.toList_injective htext⟩
      rw [hatom.not_isOpen] at hopen
      cases hopen
    · have hclose : t.isClose := Token.isClose_iff.2 ⟨hkind, String.toList_injective htext⟩
      rw [hatom.not_isClose] at hclose
      cases hclose
  | quote => exact absurd hkind hatom.not_quote

end SmallScheme
