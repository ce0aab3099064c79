import SmallScheme.Proofs.Console.Session
import SmallScheme.Proofs.Diagnostic.Location

/-!
What the reports of a session point at. Functions outlive the entry that defined them, and their
bodies keep their places in its text, so that a report can bring together the text of one entry and
a place in another.

* `Interpreter.Knows srcs i` — the functions of the interpreter are made of the bodies that the
  entries `srcs` define;
* `Repl.feed_traced`: one line keeps this, and what it reports is traced to the entry or to such a
  body;
* `Repl.entries` — the texts of the entries of a session;
* `reports_trace_to_their_entry`: so it is for all lines, and `report_beside_other_entry` is a
  session where the place is not one of the text that is reported.
-/

namespace SmallScheme

open Text (trim)

/-! ## bodies -/

/-- The node is within the body of a function that is defined within the trees. -/
def Node.WithinBody (ns : List Node) (n : Node) : Prop :=
  ∃ d f, Within ns d ∧ d.Defines f ∧ Within f.body.children n

namespace Node.WithinBody

variable {ns : List Node} {n : Node}

theorem within (h : WithinBody ns n) : Within ns n := by
  obtain ⟨d, f, hd, hdefines, hn⟩ := h
  induction hn with
  | top hmem => exact .child hd (hdefines.mem_children hmem)
  | child _ hmem ih => exact .child ih hmem

theorem child {m : Node} (h : WithinBody ns n) (hm : m ∈ n.children) : WithinBody ns m := by
  obtain ⟨d, f, hd, hdefines, hn⟩ := h
  exact ⟨d, f, hd, hdefines, .child hn hm⟩

end Node.WithinBody

/-- The node is within the body of a function that one of the sources defines. -/
def StoredBy (srcs : List String) (n : Node) : Prop :=
  ∃ src ∈ srcs, ∃ root, readProgram typedPath src = .ok root ∧ Node.WithinBody root.children n

theorem StoredBy.append {srcs : List String} {n : Node} (h : StoredBy srcs n) (more : List String) :
    StoredBy (srcs ++ more) n := by
  obtain ⟨src, hsrc, h⟩ := h
  exact ⟨src, List.mem_append_left more hsrc, h⟩

/-- An entry after others can evaluate its own nodes and the bodies that they have defined. -/
theorem covers_entry {src : String} {root : Node} (hread : readProgram typedPath src = .ok root)
    (srcs : List String) :
    Covers (fun n => Node.Within root.children n ∨ StoredBy srcs n) (StoredBy (srcs ++ [src])) where
  child := by
    rintro n m (hn | ⟨old, hold, tree, htree, hn⟩) hm
    · exact .inl (.child hn hm)
    · exact .inr ⟨old, hold, tree, htree, hn.child hm⟩
  stored := by
    rintro n ⟨old, hold, tree, htree, hn⟩
    rcases List.mem_append.1 hold with hold | hold
    · exact .inr ⟨old, hold, tree, htree, hn⟩
    · -- what the entry itself defines is a part of it
      rw [List.mem_singleton.1 hold, hread] at htree
      cases htree
      exact .inl hn.within
  body := by
    rintro d f m (hd | ⟨old, hold, tree, htree, hd⟩) hdefines hm
    · exact ⟨src, by simp, root, hread, d, f, hd, hdefines, .top hm⟩
    · exact StoredBy.append ⟨old, hold, tree, htree, d, f, hd.within, hdefines, .top hm⟩ [src]

/-! ## one line -/

/-- If the error has a place, it points at a node of the source, or else at one in the body of a
function that an earlier entry defined. -/
def EvalError.Traced (earlier : List String) (src : String) (e : EvalError) : Prop :=
  e.span? ≠ none → e.PointsAt Node.Within src ∨ ∃ old ∈ earlier, e.PointsAt Node.WithinBody old

/-- The functions of the interpreter are made of the bodies that the entries define. -/
def Interpreter.Knows (srcs : List String) (i : Interpreter) : Prop :=
  i.scopes.AllBound (·.MadeOf (StoredBy srcs))

theorem Interpreter.Knows.append {srcs : List String} {i : Interpreter} (h : i.Knows srcs)
    (more : List String) : i.Knows (srcs ++ more) :=
  h.mono fun _ hv => hv.mono fun _ hn => hn.append more

namespace Repl

variable {fuel : Nat} {srcs : List String} {src line : String} {r r' : Repl} {events : List Event}

theorem report_evaluateEntry_iff {root : Node} {f : Failure} :
    .report f ∈ (evaluateEntry fuel src root r).1 ↔
      (runProgram fuel typedPath src root r.interpreter).1 = .error f := by
  unfold evaluateEntry
  rcases runProgram fuel typedPath src root r.interpreter with ⟨g | _ | v, i⟩
  · simp [resultEvents, eq_comm]
  · simp [resultEvents]
  · simp [resultEvents]

theorem evaluateEntry_traced (hr : r.interpreter.Knows srcs) {root : Node}
    (hread : readProgram typedPath src = .ok root) :
    (evaluateEntry fuel src root r).2.interpreter.Knows (srcs ++ [src]) ∧
      ∀ path src' e, .report (.eval path src' e) ∈ (evaluateEntry fuel src root r).1 →
        path = typedPath ∧ src' = src ∧ e.Traced srcs src := by
  obtain ⟨hknows, hraised⟩ := runProgram_raisedIn (covers_entry hread srcs) (hr.append [src]) hread
    (fun n hn => .inl (.top hn)) fuel
  refine ⟨hknows, fun path src' e hreport => ?_⟩
  rcases hraised _ (report_evaluateEntry_iff.1 hreport) with heq | ⟨e', heq, hin⟩
  · cases heq
  · cases heq
    refine ⟨rfl, rfl, fun hspan => ?_⟩
    rcases hin with ⟨cause, rfl⟩ | ⟨n, hn | ⟨old, hold, tree, htree, hn⟩, hraises⟩
    · exact absurd rfl hspan
    · exact .inl (hraises.pointsAt hread hn hn)
    · exact .inr ⟨old, hold, hraises.pointsAt htree hn hn.within⟩

/-- The entry that the loop is done with, if nothing is pending. -/
def doneWith (src : String) (r : Repl) : List String := if r.pending = "" then [src] else []

theorem takeEntry_traced (hr : r.interpreter.Knows srcs) :
    (takeEntry fuel src r).2.interpreter.Knows (srcs ++ doneWith src (takeEntry fuel src r).2) ∧
      ∀ path src' e, .report (.eval path src' e) ∈ (takeEntry fuel src r).1 →
        path = typedPath ∧ doneWith src (takeEntry fuel src r).2 = [src'] ∧ e.Traced srcs src' := by
  -- only an entry that can be read changes the interpreter
  unfold takeEntry
  split
  · split
    · exact ⟨hr.append _, by simp⟩
    · exact ⟨hr.append _, by simp⟩
  · next ts hlex =>
    split
    · exact ⟨hr.append _, by simp⟩
    · next root hparse =>
      have hread : readProgram typedPath src = .ok root :=
        readProgram_eq_ok_iff.2 ⟨ts, hlex, hparse⟩
      obtain ⟨hknows, hreports⟩ := evaluateEntry_traced hr hread
      refine ⟨hknows, fun path src' e hreport => ?_⟩
      obtain ⟨rfl, rfl, htraced⟩ := hreports path src' e hreport
      exact ⟨rfl, rfl, htraced⟩

theorem eq_nil_of_feed_none (hfeed : feed fuel line r = (events, none)) : events = [] := by
  have hfeeds := feeds_feed fuel line r
  rw [hfeed] at hfeeds
  cases hfeeds
  rfl

/-- What one line of a session reports. -/
theorem feed_traced (hr : r.interpreter.Knows srcs) (hfeed : feed fuel line r = (events, some r')) :
    r'.interpreter.Knows (srcs ++ doneWith (r.pending ++ line ++ "\n") r') ∧
      ∀ path src e, .report (.eval path src e) ∈ events →
        path = typedPath ∧ doneWith (r.pending ++ line ++ "\n") r' = [src] ∧ e.Traced srcs src := by
  have hfeeds := feeds_feed fuel line r
  rw [hfeed] at hfeeds
  cases hfeeds with
  | blank => exact ⟨hr.append _, by simp⟩
  | entry => exact takeEntry_traced hr

/-! ## all lines -/

/-- The texts of the entries of a session: what has been typed each time when nothing is pending. -/
def entries (fuel : Nat) : Repl → List (Except AccessError String) → List String
  | _, [] => []
  | _, .error _ :: _ => []
  | r, .ok line :: rest =>
    match (feed fuel line r).2 with
    | none => []
    | some r' => doneWith (r.pending ++ line ++ "\n") r' ++ entries fuel r' rest

theorem runLoop_traced (lines : List (Except AccessError String)) :
    ∀ {srcs : List String} {r : Repl}, r.interpreter.Knows srcs → ∀ {path src e},
      .report (.eval path src e) ∈ (runLoop prompt (feed fuel) r lines).1 →
        path = typedPath ∧ ∃ earlier later, entries fuel r lines = earlier ++ src :: later ∧
          e.Traced (srcs ++ earlier) src := by
  -- `srcs` are the entries before the present state, to which each line adds what it is done with
  induction lines with
  | nil =>
    intro srcs r hr path src e hreport
    simp [runLoop] at hreport
  | cons line rest ih =>
    intro srcs r hr path src e hreport
    cases line with
    | error cause => simp [runLoop] at hreport
    | ok line =>
      rw [runLoop] at hreport
      rw [entries]
      rcases hfeed : feed fuel line r with ⟨events, _ | r'⟩
      · rw [hfeed, eq_nil_of_feed_none hfeed] at hreport
        simp at hreport
      · rw [hfeed] at hreport
        obtain ⟨hknows, hreports⟩ := feed_traced hr hfeed
        simp only [List.mem_cons, reduceCtorEq, List.mem_append, false_or] at hreport
        rcases hreport with hreport | hreport
        · obtain ⟨rfl, hdone, htraced⟩ := hreports path src e hreport
          refine ⟨rfl, [], entries fuel r' rest, ?_, ?_⟩
          · simp only [hdone, List.nil_append, List.singleton_append]
          · rwa [List.append_nil]
        · obtain ⟨rfl, earlier, later, hentries, htraced⟩ := ih hknows hreport
          refine ⟨rfl, doneWith (r.pending ++ line ++ "\n") r' ++ earlier, later, ?_, ?_⟩
          · simp only [hentries, List.append_assoc]
          · rwa [← List.append_assoc]

end Repl

/-! ## a call in another entry than the definition -/

theorem mem_reports {events : List Event} {f : Failure} :
    f ∈ reports events ↔ .report f ∈ events := by
  constructor
  · intro h
    obtain ⟨ev, hev, hf⟩ := List.mem_filterMap.1 h
    cases ev with
    | report g =>
      cases hf
      exact hev
    | _ => cases hf
  · intro h
    exact List.mem_filterMap.2 ⟨.report f, h, rfl⟩

theorem Repl.reports_run_entry {n : Nat} {r : Repl} {line : String} {root : Node}
    (hread : readProgram typedPath (line ++ "\n") = .ok root) (hblank : (trim line).isEmpty = false)
    (hexit : trim line ≠ exitLine) (hpending : r.pending = "") (rest : List String) :
    reports (run n r (line :: rest)).1 = reports (evaluateEntry n (line ++ "\n") root r).1 ++
      reports (run n (evaluateEntry n (line ++ "\n") root r).2 rest).1 := by
  have hfeed : feed n line r = _ :=
    feed_eq_takeEntry (fun h => by simp [hblank] at h) (fun h => hexit h.2)
  rw [hpending, String.empty_append, takeEntry_of_readProgram hread] at hfeed
  exact reports_run_cons hfeed rest

theorem reports_define_then_call :
    reports (Repl.run 5 .start ["(define (f) missing)", "(f)"]).1 =
      [.eval typedPath "(f)\n" (.notDefined "missing" ⟨12, 19⟩)] := by
  have hlex₁ : lex ("(define (f) missing)" ++ "\n") = .ok
      [⟨"(", .paren, ⟨1, 0⟩, ⟨0, 1⟩⟩, ⟨"define", .identifier, ⟨1, 1⟩, ⟨1, 7⟩⟩,
        ⟨"(", .paren, ⟨1, 8⟩, ⟨8, 9⟩⟩, ⟨"f", .identifier, ⟨1, 9⟩, ⟨9, 10⟩⟩,
        ⟨")", .paren, ⟨1, 10⟩, ⟨10, 11⟩⟩, ⟨"missing", .identifier, ⟨1, 12⟩, ⟨12, 19⟩⟩,
        ⟨")", .paren, ⟨1, 19⟩, ⟨19, 20⟩⟩] :=
    lex_eq_of_within 9 rfl
  have hlex₂ : lex ("(f)" ++ "\n") = .ok
      [⟨"(", .paren, ⟨1, 0⟩, ⟨0, 1⟩⟩, ⟨"f", .identifier, ⟨1, 1⟩, ⟨1, 2⟩⟩,
        ⟨")", .paren, ⟨1, 2⟩, ⟨2, 3⟩⟩] :=
    lex_eq_of_within 5 rfl
  have hread₁ : readProgram typedPath ("(define (f) missing)" ++ "\n") = .ok _ :=
    readProgram_eq_ok_iff.2 ⟨_, hlex₁, parse_eq_of_run rfl⟩
  have hread₂ : readProgram typedPath ("(f)" ++ "\n") = .ok _ :=
    readProgram_eq_ok_iff.2 ⟨_, hlex₂, parse_eq_of_run rfl⟩
  rw [Repl.reports_run_entry hread₁ (by decide) (by decide) rfl,
    Repl.reports_run_entry hread₂ (by decide) (by decide) rfl]
  rfl

/-! ## reports of sessions -/

/-- **Reports of a session trace to their entries.** An error of the evaluation is reported with
the text of an entry of the session. If it has a place, this is the place of a node of the entry, or
else of a node in the body of a function that an earlier entry defined; it is a part of the text of
that entry, and the error quotes what stands there. -/
theorem reports_trace_to_their_entry {fuel : Nat} {lines : List (Except AccessError String)}
    {path src : String} {e : EvalError}
    (h : .report (.eval path src e) ∈ (runLoop Repl.prompt (Repl.feed fuel) .start lines).1)
    (hspan : e.span? ≠ none) :
    path = typedPath ∧ ∃ earlier later, Repl.entries fuel .start lines = earlier ++ src :: later ∧
      (e.PointsAt Node.Within src ∨ ∃ old ∈ earlier, e.PointsAt Node.WithinBody old) := by
  have hstart : Repl.start.interpreter.Knows [] := allBound_new _ _
  obtain ⟨hpath, earlier, later, hentries, htraced⟩ := Repl.runLoop_traced lines hstart h
  exact ⟨hpath, earlier, later, hentries, htraced hspan⟩

/-- The call of a function that an earlier entry defined. -/
theorem reports_trace_to_their_entry_call :
    .report (.eval typedPath "(f)\n" (.notDefined "missing" ⟨12, 19⟩)) ∈
      (Repl.run 5 .start ["(define (f) missing)", "(f)"]).1 ∧
    ∃ earlier later,
      Repl.entries 5 .start [.ok "(define (f) missing)", .ok "(f)"] = earlier ++ "(f)\n" :: later ∧
      ∃ old ∈ earlier, (EvalError.notDefined "missing" ⟨12, 19⟩).PointsAt Node.WithinBody old := by
  have hreport := mem_reports.1 (reports_define_then_call ▸ List.mem_singleton_self _)
  obtain ⟨-, earlier, later, hentries, hpoints⟩ := reports_trace_to_their_entry hreport nofun
  refine ⟨hreport, earlier, later, hentries, hpoints.resolve_left ?_⟩
  rintro ⟨-, -, n, -, -, -, hspan, hmarks, -⟩
  rw [← Option.some.inj hspan] at hmarks
  exact absurd hmarks (by decide)

/-- The place of the body in its own entry is reported with the text of the entry that calls it,
which is not even as long. -/
theorem report_beside_other_entry :
    reports (session 5 ["(define (f) missing)", "(f)"]).1 =
      [.eval typedPath "(f)\n" (.notDefined "missing" ⟨12, 19⟩)] ∧
    (EvalError.notDefined "missing" ⟨12, 19⟩).span? = some ⟨12, 19⟩ ∧
    ¬(⟨12, 19⟩ : Span).Marks "(f)\n" := by
  refine ⟨?_, rfl, by decide⟩
  rw [Repl.session_eq_run (by decide)]
  exact reports_define_then_call

end SmallScheme
