import SmallScheme.Proofs.Console.Input
import SmallScheme.Proofs.Token.Continuation

/-!
The evaluating loop waits for more input exactly if more input can help.

* `runLoop_preserves`: what every line keeps is kept by a loop, and what is true of the events of
  every line is true of all events;
* `Repl.pending_takeEntry_cases`, `Repl.report_takeEntry`: what is pending after an entry, and which
  errors of the lexer are reported;
* `Repl.pending_feed_cases`: what is pending after a line;
* `waiting_is_exact`: what this means for whole lines and for whole sessions.
-/

namespace SmallScheme

open Text (trim)

/-! ## loops -/

theorem runLoop_preserves {σ : Type} {prompt : σ → String} {feed : String → σ → List Event × Option σ}
    {P : σ → Prop} {Q : Event → Prop} (hprompt : ∀ s, Q (.prompt (prompt s)))
    (hfeed : ∀ line s, P s → (∀ ev ∈ (feed line s).1, Q ev) ∧ ∀ s', (feed line s).2 = some s' → P s')
    (lines : List (Except AccessError String)) :
    ∀ s, P s → (∀ ev ∈ (runLoop prompt feed s lines).1, Q ev) ∧ P (runLoop prompt feed s lines).2.1 := by
  induction lines with
  | nil =>
    intro s hs
    refine ⟨fun ev hev => ?_, hs⟩
    rw [List.mem_singleton.1 hev]
    exact hprompt s
  | cons line lines ih =>
    intro s hs
    cases line with
    | error e =>
      refine ⟨fun ev hev => ?_, hs⟩
      rw [List.mem_singleton.1 hev]
      exact hprompt s
    | ok line =>
      obtain ⟨hevents, hnext⟩ := hfeed line s hs
      rw [runLoop]
      rcases hf : feed line s with ⟨events, _ | s'⟩
      · rw [hf] at hevents
        refine ⟨fun ev hev => ?_, hs⟩
        rcases List.mem_cons.1 hev with rfl | hev
        · exact hprompt s
        · exact hevents ev hev
      · rw [hf] at hevents hnext
        obtain ⟨hmore, hlast⟩ := ih s' (hnext s' rfl)
        refine ⟨fun ev hev => ?_, hlast⟩
        rcases List.mem_cons.1 hev with rfl | hev
        · exact hprompt s
        · rcases List.mem_append.1 hev with hev | hev
          · exact hevents ev hev
          · exact hmore ev hev

/-! ## entries -/

namespace Repl

variable (fuel : Nat) (src : String) (r : Repl)

theorem pending_takeEntry : (takeEntry fuel src r).2.pending =
    if Standing.ofLexed (lex src) = .waiting then src else "" := by
  unfold takeEntry
  cases lex src with
  | error e =>
    by_cases hkind : e.kind = .missingClose
    · simp [Standing.ofLexed, hkind]
    · simp [Standing.ofLexed, hkind]
  | ok ts =>
    dsimp only
    cases parse ts with
    | error e => rfl
    | ok root => rfl

theorem report_evaluateEntry (root : Node) {path src' : String} {e : LexError} :
    Event.report (.lex path src' e) ∉ (evaluateEntry fuel src root r).1 := by
  unfold evaluateEntry runProgram
  rcases evaluate fuel root r.interpreter with ⟨v | e' | _, i⟩
  · cases v <;> simp [resultEvents]
  · simp [resultEvents]
  · simp [resultEvents]

theorem report_takeEntry {path src' : String} {e : LexError}
    (h : Event.report (.lex path src' e) ∈ (takeEntry fuel src r).1) :
    src' = src ∧ lex src = .error e ∧ e.kind ≠ .missingClose := by
  unfold takeEntry at h
  split at h
  · next e' hlex =>
    split at h
    · cases h
    · next hkind =>
      simp only [List.mem_singleton, Event.report.injEq, Failure.lex.injEq] at h
      obtain ⟨-, rfl, rfl⟩ := h
      exact ⟨rfl, hlex, hkind⟩
  · split at h
    · simp at h
    · exact absurd h (report_evaluateEntry fuel src r _)

/-! ## whole lines -/

/-- More input can complete what is pending. -/
def Waits (r : Repl) : Prop := r.pending = "" ∨ Standing.waiting.Of r.pending

/-- The event reports no error of the lexer that more input could have mended. -/
def Justified (ev : Event) : Prop :=
  ∀ path src e, ev = .report (.lex path src e) → ∀ s, lex (src ++ s) = .error e

theorem pending_takeEntry_cases {src : String} (h : EndsLine src.toList) :
    (Standing.waiting.Of src ∧ (takeEntry fuel src r).2.pending = src) ∨
    (¬Standing.waiting.Of src ∧ (takeEntry fuel src r).2.pending = "") := by
  rw [pending_takeEntry]
  by_cases hwaiting : Standing.ofLexed (lex src) = .waiting
  · rw [if_pos hwaiting]
    have hof := Standing.ofLexed_of h
    rw [hwaiting] at hof
    exact Or.inl ⟨hof, rfl⟩
  · rw [if_neg hwaiting]
    exact Or.inr ⟨fun hof => hwaiting (Standing.eq_ofLexed hof).symm, rfl⟩

theorem takeEntry_justified {src : String} (h : EndsLine src.toList) :
    ∀ ev ∈ (takeEntry fuel src r).1, Justified ev := by
  rintro ev hev path src' e rfl s
  obtain ⟨rfl, hlex, hkind⟩ := report_takeEntry fuel src r hev
  have hbroken := Standing.ofLexed_of h
  simp only [hlex, Standing.ofLexed, hkind, if_false] at hbroken
  obtain ⟨e', he', -, hafter⟩ := hbroken
  rw [hlex] at he'
  cases he'
  exact hafter s

/-- An entry ends with the line break that the loop puts after every line. -/
theorem endsLine_entry (line : String) : EndsLine (r.pending ++ line ++ "\n").toList := by
  rw [String.toList_append]
  exact endsLine_snoc _

/-- The lines that the loop does not hand on wait for nothing. -/
theorem not_waiting_of_trim_empty {line : String} (h : (trim line).isEmpty) :
    ¬Standing.waiting.Of (line ++ "\n") := by
  rintro ⟨⟨e, he, -⟩, -⟩
  rw [lex_of_trim_empty h] at he
  cases he

/-- Only the line that ends the loop does so, and only if nothing is pending. -/
theorem feed_eq_none_iff (line : String) :
    (feed fuel line r).2 = none ↔ r.pending = "" ∧ trim line = exitLine := by
  refine ⟨fun hnone => ?_, fun ⟨hpending, hexit⟩ => by rw [feed_of_exit hpending hexit]⟩
  have hfeeds := feeds_feed fuel line r
  generalize feed fuel line r = result at hnone hfeeds
  cases hfeeds with
  | exit hpending hexit => exact ⟨hpending, hexit⟩
  | blank | entry => cases hnone

/-- **One line.** It is kept, after what is pending, if both together are a waiting entry. -/
theorem pending_feed_cases {line : String} {r r' : Repl} (h : (feed fuel line r).2 = some r') :
    (Standing.waiting.Of (r.pending ++ line ++ "\n") ∧ r'.pending = r.pending ++ line ++ "\n") ∨
    (¬Standing.waiting.Of (r.pending ++ line ++ "\n") ∧ r'.pending = "") := by
  have hfeeds := feeds_feed fuel line r
  generalize feed fuel line r = result at h hfeeds
  cases hfeeds with
  | blank hpending hempty =>
    cases h
    rw [hpending, String.empty_append]
    exact .inr ⟨not_waiting_of_trim_empty hempty, rfl⟩
  | exit => cases h
  | entry =>
    cases h
    exact pending_takeEntry_cases fuel r (endsLine_entry r line)

theorem feed_waits (line : String) (r : Repl) :
    (∀ ev ∈ (feed fuel line r).1, Justified ev) ∧
      ∀ r', (feed fuel line r).2 = some r' → r'.Waits := by
  refine ⟨?_, fun r' hr' => ?_⟩
  · have hfeeds := feeds_feed fuel line r
    generalize feed fuel line r = result at hfeeds ⊢
    cases hfeeds with
    | blank | exit => rintro ev ⟨⟩
    | entry => exact takeEntry_justified fuel r (endsLine_entry r line)
  · rcases pending_feed_cases fuel hr' with ⟨hof, hpending⟩ | ⟨-, hpending⟩
    · rw [Waits, hpending]
      exact .inr hof
    · exact .inl hpending

end Repl

/-- **Waiting is exact.** A text of whole lines is complete, or waits for a number of closing
parentheses that is the only one to complete it, or is broken whatever follows it; and it is one of
these only. The loop keeps an entry of whole lines if it is a waiting one, and drops it otherwise.
An entry is what is pending, the next line and a line break: but for blank lines and the line that
ends the loop, where nothing is pending, every line is taken so. At any time then what is pending
can still be completed, and an entry for which an error of the lexer is reported could not. -/
theorem waiting_is_exact :
    (∀ p : String, EndsLine p.toList → ∃! v : Standing, v.Of p) ∧
    (∀ fuel src r, EndsLine src.toList →
      (Standing.waiting.Of src ∧ (Repl.takeEntry fuel src r).2.pending = src) ∨
      (¬Standing.waiting.Of src ∧ (Repl.takeEntry fuel src r).2.pending = "")) ∧
    (∀ fuel line r,
      (¬(r.pending = "" ∧ (trim line).isEmpty) → ¬(r.pending = "" ∧ trim line = exitLine) →
        Repl.feed fuel line r = ((Repl.takeEntry fuel (r.pending ++ line ++ "\n") r).1,
          some (Repl.takeEntry fuel (r.pending ++ line ++ "\n") r).2)) ∧
      ((Repl.feed fuel line r).2 = none ↔ r.pending = "" ∧ trim line = exitLine) ∧
      ∀ r', (Repl.feed fuel line r).2 = some r' →
        (Standing.waiting.Of (r.pending ++ line ++ "\n") ∧
          r'.pending = r.pending ++ line ++ "\n") ∨
        (¬Standing.waiting.Of (r.pending ++ line ++ "\n") ∧ r'.pending = "")) ∧
    ∀ fuel lines,
      ((runLoop Repl.prompt (Repl.feed fuel) .start lines).2.1.pending ≠ "" →
        Standing.waiting.Of (runLoop Repl.prompt (Repl.feed fuel) .start lines).2.1.pending) ∧
      ∀ path src e,
        Event.report (.lex path src e) ∈ (runLoop Repl.prompt (Repl.feed fuel) .start lines).1 →
        ∀ s, lex (src ++ s) = .error e := by
  refine ⟨fun p hp => ?_, fun fuel src r hsrc => ?_, fun fuel line r => ?_, fun fuel lines => ?_⟩
  · exact ⟨_, Standing.ofLexed_of hp, fun w hw => Standing.eq_ofLexed hw⟩
  · exact Repl.pending_takeEntry_cases fuel r hsrc
  · exact ⟨Repl.feed_eq_takeEntry, Repl.feed_eq_none_iff fuel r line,
      fun r' => Repl.pending_feed_cases fuel⟩
  · have hprompt : ∀ r : Repl, Repl.Justified (.prompt r.prompt) := by
      rintro r path src e ⟨⟩
    obtain ⟨hevents, hlast⟩ := runLoop_preserves hprompt
      (fun line r _ => Repl.feed_waits fuel line r) lines .start (Or.inl rfl)
    refine ⟨fun hpending => hlast.resolve_left hpending, ?_⟩
    intro path src e hev s
    exact hevents _ hev path src e rfl s

/-- A quote mark in an open form, and a closing parenthesis in a comment. -/
theorem waiting_is_exact_quote :
    EndsLine "('a;)\n".toList ∧ ∃! d, 1 ≤ d ∧ ∃ ts, lex ("('a;)\n" ++ closers d) = .ok ts := by
  have hline : EndsLine "('a;)\n".toList := endsLine_snoc "('a;)".toList
  have hlex : lex "('a;)\n" = .error ⟨.missingClose, ⟨6, 6⟩, ⟨2, 0⟩⟩ := lex_eq_of_within 9 rfl
  refine ⟨hline, ?_⟩
  obtain ⟨v, hv, -⟩ := waiting_is_exact.1 "('a;)\n" hline
  cases v with
  | complete =>
    obtain ⟨ts, hts⟩ := hv
    rw [hlex] at hts
    cases hts
  | waiting => exact hv.2
  | broken =>
    obtain ⟨e, he, ⟨hkind, -⟩, -⟩ := hv
    rw [hlex] at he
    cases he
    exact absurd rfl hkind

end SmallScheme
