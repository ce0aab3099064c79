import SmallScheme.Text
import SmallScheme.Token

/-!
Parts of a source by bytes.

* `splitAt? n text` — the two parts of a text at a byte, if it stands between two characters;
* `slice? src s` — the part of a source that a span marks, and `charAt? src n`, the character at a
  byte; `slice?_eq_some_iff` and `charAt?_eq_head?` say what they are;
* `Span.Marks src s` — the span marks a part of the source; `marks_iff` says so by its two ends.
-/

namespace SmallScheme

/-- The two parts of a text at a byte, if it stands between two characters. -/
def splitAt? : Nat → List Char → Option (List Char × List Char)
  | 0, text => some ([], text)
  | _ + 1, [] => none
  | n + 1, c :: cs =>
    if c.utf8Size ≤ n + 1 then
      (splitAt? (n + 1 - c.utf8Size) cs).map fun p => (c :: p.1, p.2)
    else none

/-- The part of a source that a span marks, if the span is one of whole characters. -/
def slice? (src : String) (s : Span) : Option String :=
  if s.start ≤ s.stop then
    (splitAt? s.start src.toList).bind fun p =>
      (splitAt? (s.stop - s.start) p.2).map fun q => String.ofList q.1
  else none

/-- The character of a source at a byte. -/
def charAt? (src : String) (n : Nat) : Option Char :=
  (splitAt? n src.toList).bind fun p => p.2.head?

theorem splitAt?_append (a b : List Char) : splitAt? (byteLength a) (a ++ b) = some (a, b) := by
  induction a with
  | nil => rw [byteLength_nil, List.nil_append, splitAt?]
  | cons c cs ih =>
    have hpos := c.utf8Size_pos
    obtain ⟨k, hk⟩ : ∃ k, c.utf8Size + byteLength cs = k + 1 :=
      ⟨c.utf8Size + byteLength cs - 1, by omega⟩
    have hrest : k + 1 - c.utf8Size = byteLength cs := by omega
    rw [byteLength_cons, hk, List.cons_append, splitAt?, if_pos (by omega), hrest, ih]
    rfl

theorem splitAt?_eq_some_iff {n : Nat} {text a b : List Char} :
    splitAt? n text = some (a, b) ↔ text = a ++ b ∧ byteLength a = n := by
  constructor
  · intro h
    induction text generalizing n a with
    | nil =>
      cases n with
      | zero => cases h; exact ⟨rfl, rfl⟩
      | succ n => cases h
    | cons c cs ih =>
      cases n with
      | zero => cases h; exact ⟨rfl, rfl⟩
      | succ n =>
        rw [splitAt?] at h
        split at h
        · next hsize =>
          obtain ⟨p, hp, heq⟩ := Option.map_eq_some_iff.1 h
          obtain ⟨rfl, rfl⟩ := Prod.mk.inj heq
          obtain ⟨rfl, hlength⟩ := ih hp
          refine ⟨rfl, ?_⟩
          rw [byteLength_cons]
          omega
        · cases h
  · rintro ⟨rfl, rfl⟩
    exact splitAt?_append a b

theorem slice?_eq_some_iff {src t : String} {s : Span} :
    slice? src s = some t ↔ ∃ a b, src.toList = a ++ t.toList ++ b ∧ s.start = byteLength a ∧
      s.stop = byteLength a + byteLength t.toList := by
  unfold slice?
  constructor
  · intro h
    split at h
    · next hle =>
      obtain ⟨⟨a, rest⟩, hfirst, h⟩ := Option.bind_eq_some_iff.1 h
      obtain ⟨⟨text, b⟩, hsecond, rfl⟩ := Option.map_eq_some_iff.1 h
      obtain ⟨hsrc, hstart⟩ := splitAt?_eq_some_iff.1 hfirst
      obtain ⟨hrest, hlength⟩ := splitAt?_eq_some_iff.1 hsecond
      replace hrest : rest = text ++ b := hrest
      refine ⟨a, b, ?_, hstart.symm, ?_⟩
      · rw [hsrc, hrest, String.toList_ofList, List.append_assoc]
      · simp only [String.toList_ofList]
        omega
    · cases h
  · rintro ⟨a, b, hsrc, hstart, hstop⟩
    have hlength : s.stop - s.start = byteLength t.toList := by omega
    rw [if_pos (by omega), hsrc, hstart, List.append_assoc, splitAt?_append, Option.bind_some,
      ← hstart, hlength, splitAt?_append]
    simp

theorem slice?_append {src s t : String} {a b c : Nat} (hs : slice? src ⟨a, b⟩ = some s)
    (ht : slice? src ⟨b, c⟩ = some t) : slice? src ⟨a, c⟩ = some (s ++ t) := by
  obtain ⟨p, q, hsrc, hstart, hstop⟩ := slice?_eq_some_iff.1 hs
  obtain ⟨p', q', hsrc', hstart', hstop'⟩ := slice?_eq_some_iff.1 ht
  -- the source is cut at `b` in one way only
  have hcut : splitAt? b src.toList = some (p ++ s.toList, q) :=
    splitAt?_eq_some_iff.2 ⟨hsrc, by rw [byteLength_append]; exact hstop.symm⟩
  have hcut' : splitAt? b src.toList = some (p', t.toList ++ q') :=
    splitAt?_eq_some_iff.2 ⟨by rw [hsrc', List.append_assoc], hstart'.symm⟩
  rw [hcut] at hcut'
  cases hcut'
  refine slice?_eq_some_iff.2 ⟨p, q', ?_, hstart, ?_⟩
  · rw [hsrc', String.toList_append, List.append_assoc p]
  · simp only [byteLength_append] at hstart' hstop' ⊢
    rw [String.toList_append, byteLength_append]
    omega

theorem charAt?_eq_head? {src : String} {a b : List Char} (h : src.toList = a ++ b) :
    charAt? src (byteLength a) = b.head? := by
  rw [charAt?, h, splitAt?_append]
  rfl

/-! ## spans of whole characters -/

/-- The byte stands between two characters of the source, or at one of its ends. -/
def IsCut (src : String) (n : Nat) : Prop := ∃ a b, src.toList = a ++ b ∧ n = byteLength a

/-- The span marks a part of the source: it starts and ends between characters, and does not end
before it starts. -/
def Span.Marks (src : String) (s : Span) : Prop := ∃ text, slice? src s = some text

instance (src : String) (s : Span) : Decidable (s.Marks src) :=
  decidable_of_iff (slice? src s).isSome Option.isSome_iff_exists

theorem exists_prefix_of_byteLength_le {a b c d : List Char} (h : a ++ b = c ++ d)
    (hle : byteLength a ≤ byteLength c) : ∃ m, c = a ++ m ∧ b = m ++ d := by
  rcases List.append_eq_append_iff.1 h with ⟨m, hc, hb⟩ | ⟨m, ha, hd⟩
  · exact ⟨m, hc, hb⟩
  · -- the first part is no shorter, so nothing stands between the two ends
    have hzero : byteLength m = 0 := by
      rw [ha, byteLength_append] at hle
      omega
    cases m with
    | nil => exact ⟨[], by rw [ha, List.append_nil, List.append_nil], hd.symm⟩
    | cons e m =>
      have hpos := e.utf8Size_pos
      rw [byteLength_cons] at hzero
      omega

theorem marks_iff {src : String} {s : Span} :
    s.Marks src ↔ s.start ≤ s.stop ∧ IsCut src s.start ∧ IsCut src s.stop := by
  constructor
  · rintro ⟨text, h⟩
    obtain ⟨a, b, hsrc, hstart, hstop⟩ := slice?_eq_some_iff.1 h
    refine ⟨by omega, ⟨a, text.toList ++ b, ?_, hstart⟩, ⟨a ++ text.toList, b, hsrc, ?_⟩⟩
    · rw [hsrc, List.append_assoc]
    · rw [hstop, byteLength_append]
  · rintro ⟨hle, ⟨a, b, hsrc, hstart⟩, ⟨c, d, hsrc', hstop⟩⟩
    obtain ⟨m, rfl, rfl⟩ := exists_prefix_of_byteLength_le (hsrc.symm.trans hsrc') (by omega)
    refine ⟨String.ofList m, slice?_eq_some_iff.2 ⟨a, d, ?_, hstart, ?_⟩⟩
    · rw [hsrc', String.toList_ofList]
    · rw [hstop, String.toList_ofList, byteLength_append]

theorem utf8ByteSize_eq_byteLength (src : String) : src.utf8ByteSize = byteLength src.toList := by
  have hsize : ∀ text : List Char, text.utf8Encode.size = byteLength text := by
    intro text
    induction text with
    | nil => rfl
    | cons c cs ih =>
      rw [List.utf8Encode_cons, ByteArray.size_append, ih, byteLength_cons,
        List.utf8Encode_singleton, List.size_toByteArray, String.length_utf8EncodeChar]
  rw [← String.size_toByteArray, ← String.utf8Encode_toList, hsize]

theorem Span.Marks.stop_le {src : String} {s : Span} (h : s.Marks src) :
    s.stop ≤ src.utf8ByteSize := by
  obtain ⟨-, -, a, b, hsrc, hstop⟩ := marks_iff.1 h
  rw [utf8ByteSize_eq_byteLength, hsrc, byteLength_append]
  omega

theorem Span.Marks.merge {src : String} {s t : Span} (hs : s.Marks src) (ht : t.Marks src) :
    (s.merge t).Marks src := by
  obtain ⟨hle, hstart, hstop⟩ := marks_iff.1 hs
  obtain ⟨hle', hstart', hstop'⟩ := marks_iff.1 ht
  have hmin : min s.start t.start = s.start ∨ min s.start t.start = t.start := by omega
  have hmax : max s.stop t.stop = s.stop ∨ max s.stop t.stop = t.stop := by omega
  refine marks_iff.2 ⟨?_, ?_, ?_⟩
  · simp only [Span.merge]
    omega
  · rcases hmin with h | h
    · simpa only [Span.merge, h] using hstart
    · simpa only [Span.merge, h] using hstart'
  · rcases hmax with h | h
    · simpa only [Span.merge, h] using hstop
    · simpa only [Span.merge, h] using hstop'

end SmallScheme
