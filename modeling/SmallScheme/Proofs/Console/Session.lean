import SmallScheme.Proofs.Console.Input
import SmallScheme.Proofs.Evaluation.Fuel
import SmallScheme.Proofs.Program

/-!
Sessions of the evaluating loop. The loop cuts its input after every line where no form is open,
and evaluates the pieces one by one.

* `Repl.Ahead m target r lines` — what is pending and the lines ahead are a program that ends in
  `target` from the present state;
* `Repl.Ahead.advances`: one line keeps this, without a report, or reports the error of the program;
* `Repl.Ahead.run_of_value`, `Repl.Ahead.run_of_error`: so it is for all lines.
-/

namespace SmallScheme

open Text (trim)

/-! ## sessions -/

def Event.failure? : Event → Option Failure
  | .report f => some f
  | _ => none

def reports (events : List Event) : List Failure := events.filterMap Event.failure?

theorem reports_append (a b : List Event) : reports (a ++ b) = reports a ++ reports b :=
  List.filterMap_append

/-- The evaluating loop from its start, on the bytes of some lines. -/
def session (fuel : Nat) (lines : List String) : List Event × Repl × Option AccessError :=
  runLoop Repl.prompt (Repl.feed fuel) .start (inputLines (utf8 (textOf lines)))

namespace Repl

def run (fuel : Nat) (r : Repl) (lines : List String) : List Event × Repl × Option AccessError :=
  runLoop prompt (feed fuel) r (lines.map .ok)

theorem session_eq_run {lines : List String} (h : ∀ line ∈ lines, IsLine line) (fuel : Nat) :
    session fuel lines = run fuel .start lines := by
  rw [session, inputLines_textOf h, run]

section Run

variable {n : Nat} {line : String} {r r' : Repl} {events : List Event}

theorem run_nil (n : Nat) (r : Repl) : run n r [] = ([.prompt r.prompt], r, none) := rfl

theorem run_cons (h : feed n line r = (events, some r')) (rest : List String) :
    run n r (line :: rest) =
      (.prompt r.prompt :: (events ++ (run n r' rest).1), (run n r' rest).2) := by
  rw [run, List.map_cons, runLoop, h]
  rfl

theorem reports_run_cons (h : feed n line r = (events, some r')) (rest : List String) :
    reports (run n r (line :: rest)).1 = reports events ++ reports (run n r' rest).1 := by
  rw [run_cons h, ← reports_append]
  rfl

end Run

/-! ## one line -/

/-- What is pending and the lines ahead are a program that ends in `target` from the present
state, and a form is open in what is pending. -/
structure Ahead (m : Nat) (target : Outcome Unit × Interpreter) (r : Repl) (lines : List String) :
    Prop where
  accepts : r.interpreter.out.Accepts
  pending : r.pending = "" ∨ ∃ e, lex r.pending = .error e ∧ e.kind = .missingClose
  program : ∃ root, readProgram typedPath (r.pending ++ textOf lines) = .ok root ∧
    endOf m root r.interpreter = target

variable {m n : Nat} {target : Outcome Unit × Interpreter} {r : Repl} {line : String}
  {rest : List String}

theorem append_textOf_cons (text line : String) (rest : List String) :
    text ++ textOf (line :: rest) = text ++ line ++ "\n" ++ textOf rest := by
  simp only [textOf, String.append_assoc]

theorem takeEntry_of_open {src : String} {e : LexError} (h : lex src = .error e)
    (hkind : e.kind = .missingClose) : takeEntry n src r = ([], { r with pending := src }) := by
  rw [takeEntry, h]
  exact if_pos hkind

theorem takeEntry_of_readProgram {src : String} {root : Node}
    (h : readProgram typedPath src = .ok root) :
    takeEntry n src r = evaluateEntry n src root r := by
  obtain ⟨ts, hlex, hparse⟩ := readProgram_eq_ok_iff.1 h
  simp only [takeEntry, hlex, hparse]

theorem evaluateEntry_of_value (src : String) {root : Node} {v : Option Value} {i : Interpreter}
    (h : evaluate n root r.interpreter = (.value v, i)) :
    reports (evaluateEntry n src root r).1 = [] ∧ (evaluateEntry n src root r).2 = ⟨i, ""⟩ := by
  simp only [evaluateEntry, runProgram, h, and_true]
  cases v <;> rfl

theorem evaluateEntry_of_error (src : String) {root : Node} {e : EvalError} {i : Interpreter}
    (h : evaluate n root r.interpreter = (.error e, i)) :
    reports (evaluateEntry n src root r).1 = [.eval typedPath src e] ∧
      (evaluateEntry n src root r).2 = ⟨i, ""⟩ := by
  simp only [evaluateEntry, runProgram, h, and_true]
  rfl

theorem not_exit_of_lex
    (h : ∀ e, lex (r.pending ++ line ++ "\n") = .error e → e.kind = .missingClose) :
    ¬(r.pending = "" ∧ trim line = exitLine) := by
  rintro ⟨hpending, hword⟩
  obtain ⟨e, he, hkind⟩ := lex_of_trim_exit hword
  rw [hpending, String.empty_append] at h
  rw [h e he] at hkind
  cases hkind

/-- A line after which a form is open. -/
theorem Ahead.feed_of_open {e : LexError} (h : Ahead m target r (line :: rest))
    (he : lex (r.pending ++ line ++ "\n") = .error e) (hkind : e.kind = .missingClose) :
    ∃ r', Repl.feed n line r = ([], some r') ∧ Ahead m target r' rest := by
  have hblank : ¬(r.pending = "" ∧ (trim line).isEmpty) := by
    rintro ⟨hpending, hblank⟩
    rw [hpending, String.empty_append, lex_of_trim_empty hblank] at he
    cases he
  have hexit : ¬(r.pending = "" ∧ trim line = exitLine) := by
    refine not_exit_of_lex fun e' he' => ?_
    rw [he] at he'
    cases he'
    exact hkind
  refine ⟨{ r with pending := r.pending ++ line ++ "\n" }, ?_, h.accepts, Or.inr ⟨e, he, hkind⟩, ?_⟩
  · rw [feed_eq_takeEntry hblank hexit, takeEntry_of_open he hkind]
  · rw [← append_textOf_cons]
    exact h.program

/-- The line is taken without a report, and the rest of the program is ahead; or the error of the
program is reported. -/
def Advances (m n : Nat) (target : Outcome Unit × Interpreter) (r : Repl) (line : String)
    (rest : List String) : Prop :=
  ∃ events r', Repl.feed n line r = (events, some r') ∧
    ((reports events = [] ∧ Ahead m target r' rest) ∨
      ∃ src e, reports events = [.eval typedPath src e] ∧
        target = (.error e.erase, r'.interpreter.erase))

section Closed

-- after the line no form is open: `first` is what it completes, and `second` is ahead
variable {first second : Node} (haccepts : r.interpreter.out.Accepts)
  (hfirst : readProgram typedPath (r.pending ++ line ++ "\n") = .ok first)
  (hsecond : readProgram typedPath (textOf rest) = .ok second)
  (htarget : target = endAfter m second (evaluate m first r.interpreter))
  (hend : target.1 ≠ .outOfFuel)
include haccepts hfirst hsecond htarget hend

theorem advances_of_blank (hpending : r.pending = "") (hblank : (trim line).isEmpty) :
    Advances m n target r line rest := by
  -- the line is skipped, and there is nothing in it to evaluate
  rw [hpending, String.empty_append] at hfirst
  obtain rfl := eq_of_readProgram_empty (lex_of_trim_empty hblank) hfirst
  have hev := evaluate_empty haccepts (ne_outOfFuel_of_endAfter (htarget ▸ hend))
  rw [hev] at htarget
  refine ⟨[], r, feed_of_blank hpending hblank, Or.inl ⟨rfl, haccepts, Or.inl hpending, ?_⟩⟩
  rw [hpending, String.empty_append]
  exact ⟨second, hsecond, htarget.symm⟩

theorem advances_of_entry (hmn : m ≤ n) (hblank : ¬(r.pending = "" ∧ (trim line).isEmpty)) :
    Advances m n target r line rest := by
  have hexit : ¬(r.pending = "" ∧ trim line = exitLine) := by
    obtain ⟨ts, hlex, -⟩ := readProgram_eq_ok_iff.1 hfirst
    refine not_exit_of_lex fun e he => ?_
    rw [hlex] at he
    cases he
  have haccepts' := accepts_of_evaluate m (kind_of_readProgram hfirst) haccepts
  have hfuel := evaluate_refines hmn first r.interpreter
    (ne_outOfFuel_of_endAfter (htarget ▸ hend))
  refine ⟨_, _, feed_eq_takeEntry hblank hexit, ?_⟩
  rw [takeEntry_of_readProgram hfirst]
  rcases hev : evaluate m first r.interpreter with ⟨v | e | _, j⟩
  · rw [hev] at hfuel htarget haccepts'
    obtain ⟨hreports, hstate⟩ := evaluateEntry_of_value (r.pending ++ line ++ "\n") hfuel
    rw [hstate]
    refine Or.inl ⟨hreports, haccepts', Or.inl rfl, second, ?_, htarget.symm⟩
    rwa [String.empty_append]
  · rw [hev] at hfuel htarget
    obtain ⟨hreports, hstate⟩ := evaluateEntry_of_error (r.pending ++ line ++ "\n") hfuel
    rw [hstate]
    exact Or.inr ⟨_, e, hreports, htarget⟩
  · rw [hev] at htarget
    exact absurd (congrArg Prod.fst htarget) hend

end Closed

/-- **One line of a session.** -/
theorem Ahead.advances (hmn : m ≤ n) (hend : target.1 ≠ .outOfFuel)
    (h : Ahead m target r (line :: rest)) : Advances m n target r line rest := by
  obtain ⟨root, hroot, htarget⟩ := h.program
  rw [append_textOf_cons] at hroot
  have hwhole : EndsLine (r.pending ++ line ++ "\n").toList := by
    rw [String.toList_append]
    exact endsLine_snoc _
  rcases readProgram_append hwhole hroot with
    ⟨e, he, hkind⟩ | ⟨first, second, hfirst, hsecond, hchildren⟩
  · obtain ⟨r', hfeed, hnext⟩ := h.feed_of_open (n := n) he hkind
    exact ⟨[], r', hfeed, Or.inl ⟨rfl, hnext⟩⟩
  · have hparts := endOf_append m (kind_of_readProgram hroot)
      (kind_of_readProgram hfirst) (kind_of_readProgram hsecond) hchildren h.accepts
    rw [htarget] at hparts
    by_cases hblank : r.pending = "" ∧ (trim line).isEmpty
    · exact advances_of_blank h.accepts hfirst hsecond hparts hend hblank.1 hblank.2
    · exact advances_of_entry h.accepts hfirst hsecond hparts hend hmn hblank

/-! ## all lines -/

theorem Ahead.end_of_nil (hend : target.1 ≠ .outOfFuel) (h : Ahead m target r []) :
    r.pending = "" ∧ target = (.value (), r.interpreter.erase) := by
  obtain ⟨root, hroot, rfl⟩ := h.program
  rw [textOf, String.append_empty] at hroot
  have hpending : r.pending = "" := by
    rcases h.pending with hpending | ⟨e, he, -⟩
    · exact hpending
    · obtain ⟨ts, hlex, -⟩ := readProgram_eq_ok_iff.1 hroot
      rw [he] at hlex
      cases hlex
  rw [hpending] at hroot
  have hlex : lex "" = .ok [] := lex_eq_of_within 1 rfl
  obtain rfl := eq_of_readProgram_empty hlex hroot
  have hends : (evaluate m (Node.program []) r.interpreter).1 ≠ .outOfFuel := by
    intro hout
    refine hend ?_
    rw [endOf, endState, hout]
    rfl
  rw [endOf, evaluate_empty h.accepts hends]
  exact ⟨hpending, rfl⟩

theorem Ahead.run_of_value (hmn : m ≤ n) {i : Interpreter} {lines : List String} :
    ∀ {r : Repl}, Ahead m (.value (), i) r lines →
      reports (run n r lines).1 = [] ∧ (run n r lines).2.2 = none ∧
      (run n r lines).2.1.pending = "" ∧ (run n r lines).2.1.interpreter.erase = i := by
  induction lines with
  | nil =>
    intro r h
    obtain ⟨hpending, htarget⟩ := h.end_of_nil (by simp)
    rw [run_nil]
    exact ⟨rfl, rfl, hpending, (congrArg Prod.snd htarget).symm⟩
  | cons line rest ih =>
    intro r h
    obtain ⟨events, r', hfeed, ⟨hreports, hnext⟩ | ⟨src, e, -, htarget⟩⟩ := h.advances hmn (by simp)
    · rw [reports_run_cons hfeed, run_cons hfeed, hreports]
      exact ih hnext
    · cases htarget

theorem Ahead.run_of_error (hmn : m ≤ n) {e : EvalError} {i : Interpreter} {lines : List String} :
    ∀ {r : Repl}, Ahead m (.error e, i) r lines →
      ∃ done line todo src e', lines = done ++ line :: todo ∧
        reports (run n r done).1 = [] ∧
        reports (run n r (done ++ [line])).1 = [.eval typedPath src e'] ∧
        (reports (run n r lines).1).head? = some (.eval typedPath src e') ∧
        e'.erase = e ∧ (run n r (done ++ [line])).2.1.interpreter.erase = i := by
  induction lines with
  | nil =>
    intro r h
    obtain ⟨-, htarget⟩ := h.end_of_nil (by simp)
    cases htarget
  | cons line rest ih =>
    intro r h
    obtain ⟨events, r', hfeed, ⟨hreports, hnext⟩ | ⟨src, e', hreports, htarget⟩⟩ :=
      h.advances hmn (by simp)
    · obtain ⟨done, last, todo, src, e', rfl, hdone, hlast, hall, he', hi⟩ := ih hnext
      refine ⟨line :: done, last, todo, src, e', rfl, ?_, ?_, ?_, he', ?_⟩
      · rw [reports_run_cons hfeed, hreports, hdone]
        rfl
      · rw [List.cons_append, reports_run_cons hfeed, hreports, hlast]
        rfl
      · rw [reports_run_cons hfeed, hreports, List.nil_append, hall]
      · rw [List.cons_append, run_cons hfeed]
        exact hi
    · obtain ⟨he, hi⟩ := Prod.mk.inj htarget
      refine ⟨[], line, rest, src, e', rfl, rfl, ?_, ?_, (Outcome.error.inj he).symm, ?_⟩
      · rw [List.nil_append, reports_run_cons hfeed, hreports]
        rfl
      · rw [reports_run_cons hfeed, hreports]
        rfl
      · rw [List.nil_append, run_cons hfeed]
        exact hi.symm

end Repl

/-- **A session agrees with the program.** Take lines whose text as a whole is a program that ends
by itself. If it ends well, a session on these lines reports nothing, has nothing pending at its
end, and has written the same bytes and left the same scopes up to places. If it fails, the first
report of the session is that error, and what is written and the scopes at that moment are those of
the program. -/
theorem session_agrees_with_program {lines : List String} (hlines : ∀ line ∈ lines, IsLine line)
    {ts : List Token} {root : Node} (hlex : lex (textOf lines) = .ok ts)
    (hparse : parse ts = .ok root) {m n : Nat} (hmn : m ≤ n) :
    (∀ v i, evaluate m root (.new .builtins .unlimited) = (.value v, i) →
      reports (session n lines).1 = [] ∧ (session n lines).2.2 = none ∧
      (session n lines).2.1.pending = "" ∧
      (session n lines).2.1.interpreter.out.written = i.out.written ∧
      (session n lines).2.1.interpreter.scopes.erase = i.scopes.erase) ∧
    ∀ e i, evaluate m root (.new .builtins .unlimited) = (.error e, i) →
      ∃ done line todo src e', lines = done ++ line :: todo ∧
        reports (session n done).1 = [] ∧
        reports (session n (done ++ [line])).1 = [.eval typedPath src e'] ∧
        (reports (session n lines).1).head? = some (.eval typedPath src e') ∧
        e'.erase = e.erase ∧ e'.message = e.message ∧
        (session n (done ++ [line])).2.1.interpreter.out.written = i.out.written ∧
        (session n (done ++ [line])).2.1.interpreter.scopes.erase = i.scopes.erase := by
  have hstart : Repl.Ahead m (endOf m root (.new .builtins .unlimited)) .start lines := by
    refine ⟨Sink.accepts_unlimited, Or.inl rfl, root, ?_, rfl⟩
    rw [show Repl.start.pending = "" from rfl, String.empty_append]
    exact readProgram_eq_ok_iff.2 ⟨ts, hlex, hparse⟩
  constructor
  · intro v i hev
    rw [endOf, hev] at hstart
    obtain ⟨hreports, hstop, hpending, hstate⟩ := hstart.run_of_value hmn
    obtain ⟨hscopes, hout⟩ := Interpreter.mk.inj hstate
    rw [Repl.session_eq_run hlines]
    exact ⟨hreports, hstop, hpending, congrArg Sink.written hout, hscopes⟩
  · intro e i hev
    rw [endOf, hev] at hstart
    obtain ⟨done, line, todo, src, e', rfl, hdone, hline, hall, he, hstate⟩ :=
      hstart.run_of_error hmn
    obtain ⟨hscopes, hout⟩ := Interpreter.mk.inj hstate
    have hlines₁ : ∀ l ∈ done, IsLine l := fun l hl => hlines l (by simp [hl])
    have hlines₂ : ∀ l ∈ done ++ [line], IsLine l := by
      intro l hl
      refine hlines l ?_
      simp only [List.mem_append, List.mem_singleton] at hl
      rcases hl with hl | rfl <;> simp [*]
    refine ⟨done, line, todo, src, e', rfl, ?_⟩
    rw [Repl.session_eq_run hlines, Repl.session_eq_run hlines₁, Repl.session_eq_run hlines₂]
    exact ⟨hdone, hline, hall, he, EvalError.message_eq_of_erase he, congrArg Sink.written hout,
      hscopes⟩

/-- A definition over two lines, and a call of an unbound name over two lines after one that
writes. -/
theorem session_agrees_with_program_two_lines :
    (reports (session 3 ["(define (f)", "f)"]).1 = [] ∧
      (session 3 ["(define (f)", "f)"]).2.1.pending = "") ∧
    ∃ done line todo src e, ["(newline)", "(f", ")"] = done ++ line :: todo ∧
      reports (session 3 (done ++ [line])).1 = [.eval typedPath src e] ∧
      e.message = (EvalError.notDefined "f" ⟨11, 12⟩).message ∧
      (session 3 (done ++ [line])).2.1.interpreter.out.written = [10] := by
  constructor
  · have hlex : lex (textOf ["(define (f)", "f)"]) = .ok
        [⟨"(", .paren, ⟨1, 0⟩, ⟨0, 1⟩⟩, ⟨"define", .identifier, ⟨1, 1⟩, ⟨1, 7⟩⟩,
          ⟨"(", .paren, ⟨1, 8⟩, ⟨8, 9⟩⟩, ⟨"f", .identifier, ⟨1, 9⟩, ⟨9, 10⟩⟩,
          ⟨")", .paren, ⟨1, 10⟩, ⟨10, 11⟩⟩, ⟨"f", .identifier, ⟨2, 0⟩, ⟨12, 13⟩⟩,
          ⟨")", .paren, ⟨2, 1⟩, ⟨13, 14⟩⟩] :=
      lex_eq_of_within 9 rfl
    obtain ⟨hreports, -, hpending, -⟩ := (session_agrees_with_program (by decide) hlex
      (parse_eq_of_run rfl) (Nat.le_refl 3)).1 none _ rfl
    exact ⟨hreports, hpending⟩
  · have hlex : lex (textOf ["(newline)", "(f", ")"]) = .ok
        [⟨"(", .paren, ⟨1, 0⟩, ⟨0, 1⟩⟩, ⟨"newline", .identifier, ⟨1, 1⟩, ⟨1, 8⟩⟩,
          ⟨")", .paren, ⟨1, 8⟩, ⟨8, 9⟩⟩, ⟨"(", .paren, ⟨2, 0⟩, ⟨10, 11⟩⟩,
          ⟨"f", .identifier, ⟨2, 1⟩, ⟨11, 12⟩⟩, ⟨")", .paren, ⟨3, 0⟩, ⟨13, 14⟩⟩] :=
      lex_eq_of_within 9 rfl
    obtain ⟨done, line, todo, src, e, hsplit, -, hline, -, -, hmessage, hwritten, -⟩ :=
      (session_agrees_with_program (by decide) hlex (parse_eq_of_run rfl) (Nat.le_refl 3)).2
        (.notDefined "f" ⟨11, 12⟩) _ rfl
    exact ⟨done, line, todo, src, e, hsplit, hline, hmessage, hwritten⟩

end SmallScheme
