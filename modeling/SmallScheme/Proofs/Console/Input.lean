import Mathlib.Data.List.TakeWhile
import SmallScheme.Console.Repl
import SmallScheme.Proofs.Token.Lines

/-!
Lines of input.

* `ofUtf8?_utf8`, `eq_of_lineBreak`: texts as bytes, where only a line break has the byte of one;
* `inputLines_textOf`: input that is made of lines is split into these lines;
* `lex_of_trim_empty`, `lex_of_trim_exit`: what the lexer says about the lines that the evaluating
  loop does not hand to it;
* `Repl.feed_eq_takeEntry`: all other lines are handed to it, after what is pending;
* `Repl.Feeds n line r result` — the loop takes a line, case by case (`Repl.feeds_feed`).
-/

namespace SmallScheme

open Text (isBlank trim)

/-! ## texts as bytes -/

theorem utf8_eq_flatMap (s : String) : utf8 s = s.toList.flatMap String.utf8EncodeChar := by
  rw [utf8, String.toUTF8_eq_toByteArray, ← String.utf8Encode_toList, List.utf8Encode,
    List.toList_data_toByteArray]

theorem ofUtf8?_utf8 (s : String) : ofUtf8? (utf8 s) = some s := by
  have h : (⟨(utf8 s).toArray⟩ : ByteArray) = s.toByteArray := by
    simp [utf8, String.toUTF8_eq_toByteArray]
  rw [ofUtf8?, h, String.fromUTF8?, dif_pos s.isValidUTF8]
  rfl

theorem eq_of_lineBreak {c : Char} (h : (10 : UInt8) ∈ String.utf8EncodeChar c) : c = '\n' := by
  have hbyte (k : Nat) : 10 = UInt8.ofNat k ↔ k % 256 = 10 := by
    rw [← UInt8.toNat_inj, UInt8.toNat_ofNat', eq_comm]
    rfl
  -- every byte of a character beyond the first 128 is at least 128
  have hval : c.val.toNat = 10 := by
    unfold String.utf8EncodeChar at h
    dsimp only at h
    split at h
    · simp only [List.mem_singleton, hbyte] at h
      omega
    · split at h
      · simp only [List.mem_cons, List.not_mem_nil, or_false, hbyte] at h
        omega
      · split at h <;> simp only [List.mem_cons, List.not_mem_nil, or_false, hbyte] at h <;> omega
  exact Char.ext (UInt32.toNat_inj.1 hval)

theorem lineBreak_not_mem_utf8 {s : String} (h : '\n' ∉ s.toList) : 10 ∉ utf8 s := by
  rw [utf8_eq_flatMap, List.mem_flatMap]
  rintro ⟨c, hc, hbyte⟩
  exact h (eq_of_lineBreak hbyte ▸ hc)

/-! ## input as lines -/

/-- The text of some lines, each with a line break after it. -/
def textOf : List String → String
  | [] => ""
  | line :: lines => line ++ "\n" ++ textOf lines

/-- The line has no line break in it, and no carriage return that would go with the line break
after it. -/
def IsLine (line : String) : Prop := '\n' ∉ line.toList ∧ line.toList.getLast? ≠ some '\r'

instance (line : String) : Decidable (IsLine line) := inferInstanceAs (Decidable (_ ∧ _))

theorem splitInput_line {bytes : List UInt8} (h : 10 ∉ bytes) (more : List UInt8) :
    splitInput (bytes ++ 10 :: more) = (bytes ++ [10]) :: splitInput more := by
  induction bytes with
  | nil => rfl
  | cons b bytes ih =>
    obtain ⟨hb, hbytes⟩ := not_or.1 (mt List.mem_cons.2 h)
    rw [List.cons_append, splitInput, if_neg (Ne.symm hb), ih hbytes]
    rfl

theorem lineText_utf8 {line : String} (h : IsLine line) :
    lineText (utf8 (line ++ "\n")) = .ok line := by
  have hkept : (line.toList.reverse.dropWhile fun c => c = '\n' || c = '\r') =
      line.toList.reverse := by
    cases hrev : line.toList.reverse with
    | nil => rfl
    | cons c cs =>
      have hlast : line.toList.getLast? = some c := by
        rw [← List.head?_reverse, hrev]
        rfl
      have hc : c ∈ line.toList := List.mem_of_getLast? hlast
      have hbreak : c ≠ '\n' := fun hcn => h.1 (hcn ▸ hc)
      have hreturn : c ≠ '\r' := fun hcr => h.2 (hcr ▸ hlast)
      simp [hbreak, hreturn]
  rw [lineText, ofUtf8?_utf8]
  simp [hkept]

theorem inputLines_textOf {lines : List String} (h : ∀ line ∈ lines, IsLine line) :
    inputLines (utf8 (textOf lines)) = lines.map .ok := by
  induction lines with
  | nil => rfl
  | cons line lines ih =>
    have hline := h line (by simp)
    have hbreak : utf8 "\n" = [10] := rfl
    have htext := lineText_utf8 hline
    rw [utf8_append, hbreak] at htext
    rw [textOf, utf8_append, utf8_append, hbreak, List.append_assoc, List.singleton_append,
      inputLines, splitInput_line (lineBreak_not_mem_utf8 hline.1), List.map_cons, htext]
    exact congrArg _ (ih fun l hl => h l (by simp [hl]))

/-! ## lines that are not handed to the lexer -/

theorem exists_blanks_of_trim (s : String) : ∃ before after,
    s.toList = before ++ (trim s).toList ++ after ∧
    (∀ c ∈ before, isBlank c) ∧ ∀ c ∈ after, isBlank c := by
  let tail := s.toList.dropWhile isBlank
  refine ⟨s.toList.takeWhile isBlank, (tail.reverse.takeWhile isBlank).reverse, ?_, ?_, ?_⟩
  · have htail : (trim s).toList ++ (tail.reverse.takeWhile isBlank).reverse = tail := by
      rw [trim, String.toList_ofList, ← List.reverse_append, List.takeWhile_append_dropWhile,
        List.reverse_reverse]
    rw [List.append_assoc, htail, List.takeWhile_append_dropWhile]
  · intro c hc
    exact List.mem_takeWhile_imp hc
  · intro c hc
    exact List.mem_takeWhile_imp (List.mem_reverse.1 hc)

theorem dropTrivia_blanks {blanks : List Char} (h : ∀ c ∈ blanks, isBlank c) (cs : List Char) :
    dropTrivia false (blanks ++ cs) = dropTrivia false cs := by
  induction blanks with
  | nil => rfl
  | cons c blanks ih =>
    have hc := h c (by simp)
    have hcomment : c ≠ ';' := by
      rintro rfl
      exact absurd hc (by decide)
    rw [List.cons_append, dropTrivia, if_neg (by simp), if_neg hcomment, if_pos hc]
    exact ih fun d hd => h d (by simp [hd])

theorem lex_of_trim_empty {line : String} (h : (trim line).isEmpty) :
    lex (line ++ "\n") = .ok [] := by
  obtain ⟨before, after, hline, hbefore, hafter⟩ := exists_blanks_of_trim line
  have hnil : (trim line).toList = [] := by simpa using h
  have hend : dropTrivia false (Reader.ofString (line ++ "\n")).rest = [] := by
    rw [Reader.ofString_eq, String.toList_append, hline, hnil]
    simp only [List.append_nil, List.append_assoc]
    rw [dropTrivia_blanks hbefore, dropTrivia_blanks hafter]
    rfl
  rw [lex_eq, Reader.tokens_of_end hend, if_pos]
  rw [Reader.ofString_eq]

theorem lex_of_trim_exit {line : String} (h : trim line = exitLine) :
    ∃ e, lex (line ++ "\n") = .error e ∧ e.kind = .invalidSymbol := by
  obtain ⟨before, after, hline, hbefore, -⟩ := exists_blanks_of_trim line
  have hahead : dropTrivia false (Reader.ofString (line ++ "\n")).rest =
      '.' :: ("exit".toList ++ (after ++ ['\n'])) := by
    rw [Reader.ofString_eq, String.toList_append, hline, h]
    simp only [List.append_assoc]
    rw [dropTrivia_blanks hbefore]
    rfl
  rw [lex_eq, Reader.tokens_eq]
  unfold Reader.next
  rw [hahead]
  exact ⟨_, rfl, rfl⟩

/-! ## the lines that are handed on -/

namespace Repl

variable {n : Nat} {line : String} {r : Repl}

theorem feed_of_blank (hpending : r.pending = "") (hblank : (trim line).isEmpty) :
    feed n line r = ([], some r) := by
  simp [feed, hpending, hblank]

theorem feed_of_exit (hpending : r.pending = "") (hexit : trim line = exitLine) :
    feed n line r = ([], none) := by
  have hword : ¬exitLine.isEmpty := by decide
  simp [feed, hpending, hexit, hword]

theorem feed_eq_takeEntry (hblank : ¬(r.pending = "" ∧ (trim line).isEmpty))
    (hexit : ¬(r.pending = "" ∧ trim line = exitLine)) :
    feed n line r = ((takeEntry n (r.pending ++ line ++ "\n") r).1,
      some (takeEntry n (r.pending ++ line ++ "\n") r).2) := by
  unfold feed
  rw [if_neg (by simpa using hblank), if_neg (by simpa using hexit)]

/-- The line is taken with the events and the state `result`. -/
inductive Feeds (n : Nat) (line : String) (r : Repl) : List Event × Option Repl → Prop
  | blank : r.pending = "" → (trim line).isEmpty → Feeds n line r ([], some r)
  | exit : r.pending = "" → trim line = exitLine → Feeds n line r ([], none)
  | entry : ¬(r.pending = "" ∧ (trim line).isEmpty) → ¬(r.pending = "" ∧ trim line = exitLine) →
      Feeds n line r ((takeEntry n (r.pending ++ line ++ "\n") r).1,
        some (takeEntry n (r.pending ++ line ++ "\n") r).2)

theorem feeds_feed (n : Nat) (line : String) (r : Repl) : Feeds n line r (feed n line r) := by
  by_cases hblank : r.pending = "" ∧ (trim line).isEmpty
  · rw [feed_of_blank hblank.1 hblank.2]
    exact .blank hblank.1 hblank.2
  by_cases hexit : r.pending = "" ∧ trim line = exitLine
  · rw [feed_of_exit hexit.1 hexit.2]
    exact .exit hexit.1 hexit.2
  rw [feed_eq_takeEntry hblank hexit]
  exact .entry hblank hexit

end Repl

end SmallScheme
