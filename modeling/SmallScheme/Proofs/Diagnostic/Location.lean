import SmallScheme.Proofs.Evaluation.Origin
import SmallScheme.Proofs.Node.Place
import SmallScheme.Proofs.Program
import SmallScheme.Proofs.Token.Fault

/-!
Reports point at the text they talk about.

* `EvalError.QuotesIn src e` — the text that the error quotes stands in the source where the error
  says;
* `EvalError.PointsAt Part src e` — the error stands where a node of the source does, and quotes
  what stands there;
* `Node.Raises.pointsAt`: so it is for every error that is raised at a node of a source;
* `errors_point_at_their_text`: hence in a run of one source every place that is reported is one of
  the source, and an error of the evaluation stands where a node of the program does.
-/

namespace SmallScheme

/-! ## what errors quote -/

/-- The part of the source is a program of one form that prints as `text`. -/
def Span.PrintsAs (src : String) (s : Span) (text : String) : Prop :=
  ∃ part ts root form, slice? src s = some part ∧ lex part = .ok ts ∧ parse ts = .ok root ∧
    root.children = [form] ∧ form.print = text

/-- The text that the error quotes is the part of the source that it marks: word for word, or as
the form there is printed. -/
def EvalError.QuotesIn (src : String) : EvalError → Prop
  | notDefined name span => slice? src span = some name
  | invalidLiteral text _ span => slice? src span = some text
  | notCallable text span | noValue text span | invalidParameter text span =>
    span.PrintsAs src text
  | _ => True

theorem Node.StandsIn.printsAs {src : String} {n : Node} (h : n.StandsIn src) :
    n.span.PrintsAs src n.print := by
  obtain ⟨text, ts, root, form, hslice, hlex, hparse, hform, hsame⟩ := h
  refine ⟨text, ts, root, form, hslice, hlex, hparse, hform, ?_⟩
  rw [← Node.print_erase, hsame, Node.print_erase]

theorem EvalError.CalledAt.span?_eq {span : Span} {e : EvalError} (h : e.CalledAt span) :
    e.span? = some span := by
  cases h <;> rfl

theorem EvalError.CalledAt.quotesIn {span : Span} {e : EvalError} (h : e.CalledAt span)
    (src : String) : e.QuotesIn src := by
  cases h <;> trivial

section Source

variable {src : String} {ts : List Token} {root n : Node} (hlex : lex src = .ok ts)
  (hparse : parse ts = .ok root) (hn : Node.Within root.children n)
include hlex hparse hn

/-- A variable or a literal is a token of the source by itself. -/
theorem exists_leaf_of_within (hkind : n.kind = .variable ∨ n.kind = .literal) :
    ∃ t, n = Node.leaf t ∧ slice? src t.span = some t.literal := by
  obtain ⟨ns, hyields, rfl⟩ := parse_eq_ok_iff_yields.1 hparse
  obtain ⟨pre, seg, post, rfl, hseg⟩ := hyields.exists_segment hn
  cases hseg with
  | @leaf t _ _ _ _ => exact ⟨t, rfl, slice?_of_lex hlex t (by simp)⟩
  | call => rcases hkind with hkind | hkind <;> cases hkind
  | define => rcases hkind with hkind | hkind <;> cases hkind

theorem quotesIn_of_literal_error {e : EvalError} (hkind : n.kind = .literal)
    (he : literalValue n = .error e) : e.span? = some n.span ∧ e.QuotesIn src := by
  obtain ⟨t, rfl, hslice⟩ := exists_leaf_of_within hlex hparse hn (.inr hkind)
  unfold literalValue at he
  simp only [Node.leaf, Node.ofToken] at he
  split at he
  · cases he
  · next hread =>
    cases he
    refine ⟨rfl, ?_⟩
    -- a string is its own value, so that the token is written as its text
    have hstring : t.kind ≠ .string := by
      intro hstring
      rw [hstring] at hread
      cases hread
    rw [Token.literal, if_neg hstring] at hslice
    exact hslice

/-- An error that is raised at a node of the source stands where the node does, and quotes what
stands there. -/
theorem Node.Raises.quotesIn {e : EvalError} (h : n.Raises e) :
    e.span? = some n.span ∧ e.QuotesIn src := by
  have hprints := (standsIn_of_within hlex hparse hn).printsAs
  cases h with
  | noValue => exact ⟨rfl, hprints⟩
  | literal hkind he => exact quotesIn_of_literal_error hlex hparse hn hkind he
  | notDefined hkind =>
    obtain ⟨t, rfl, hslice⟩ := exists_leaf_of_within hlex hparse hn (.inl hkind)
    have hidentifier : t.kind = .identifier := by
      by_contra hne
      rw [Node.leaf, if_neg hne] at hkind
      cases hkind
    have hname : (Node.leaf t).identifier = some t.text :=
      Node.identifier_leaf.2 (Token.isIdentifier_iff.2 ⟨hidentifier, rfl⟩)
    rw [Token.literal, if_neg (by rw [hidentifier]; decide)] at hslice
    rw [hname]
    exact ⟨rfl, hslice⟩
  | notCallable => exact ⟨rfl, hprints⟩
  | call _ he => exact ⟨he.span?_eq, he.quotesIn src⟩
  | parameter => exact ⟨rfl, hprints⟩
  | definition | noName | noTarget => exact ⟨rfl, trivial⟩

end Source

/-- The error points at a node of the source, one that `Part` picks out of the forms of the program,
and quotes what stands there. -/
def EvalError.PointsAt (Part : List Node → Node → Prop) (src : String) (e : EvalError) : Prop :=
  ∃ ts root n, lex src = .ok ts ∧ parse ts = .ok root ∧ Part root.children n ∧
    e.span? = some n.span ∧ n.span.Marks src ∧ e.QuotesIn src

theorem Node.Raises.pointsAt {Part : List Node → Node → Prop} {path src : String} {root n : Node}
    {e : EvalError} (hread : readProgram path src = .ok root) (hpart : Part root.children n)
    (hn : Node.Within root.children n) (h : n.Raises e) : e.PointsAt Part src := by
  obtain ⟨ts, hlex, hparse⟩ := readProgram_eq_ok_iff.1 hread
  obtain ⟨hspan, hquotes⟩ := h.quotesIn hlex hparse hn
  have hmarks := (standsIn_of_within hlex hparse hn).marks
  exact ⟨ts, root, n, hlex, hparse, hpart, hspan, hmarks, hquotes⟩

/-! ## runs of one source -/

theorem Location.range_of_marks {loc : Location} (h : loc.span.Marks loc.src) :
    loc.range = loc.span := by
  have hle := (marks_iff.1 h).1
  have hstop := h.stop_le
  obtain ⟨path, src, ⟨start, stop⟩, message⟩ := loc
  simp only [range, Span.mk.injEq] at hle hstop ⊢
  omega

theorem readProgram_eq_error {path src : String} {f : Failure}
    (h : readProgram path src = .error f) :
    (∃ e, lex src = .error e ∧ f = .lex path src e) ∨
      ∃ ts e, lex src = .ok ts ∧ parse ts = .error e ∧ f = .parse path src e := by
  unfold readProgram at h
  split at h
  · next e hlex =>
    cases h
    exact .inl ⟨e, hlex, rfl⟩
  · next ts hlex =>
    cases hparse : parse ts with
    | error e =>
      rw [hparse] at h
      cases h
      exact .inr ⟨ts, e, hlex, hparse, rfl⟩
    | ok root =>
      rw [hparse] at h
      cases h

theorem allBound_new (Stored : Node → Prop) (out : Sink) :
    (Interpreter.new .builtins out).scopes.AllBound (·.MadeOf Stored) :=
  Scopes.AllBound.builtins (by rintro p f ⟨⟩)

theorem runProgram_raisedIn {Code Stored : Node → Prop} (hcovers : Covers Code Stored)
    {i : Interpreter} (hi : i.scopes.AllBound (·.MadeOf Stored)) {path src : String} {root : Node}
    (hread : readProgram path src = .ok root) (hcode : ∀ n ∈ root.children, Code n) (fuel : Nat) :
    (runProgram fuel path src root i).2.scopes.AllBound (·.MadeOf Stored) ∧
      ∀ f, (runProgram fuel path src root i).1 = .error f →
        f = .tooDeep path ∨ ∃ e, f = .eval path src e ∧ e.RaisedIn Code := by
  obtain ⟨hbound, hraised⟩ := evaluate_raisedIn hcovers hi (kind_of_readProgram hread) hcode fuel
  unfold runProgram
  rcases hev : evaluate fuel root i with ⟨v | e | _, j⟩
  · rw [hev] at hbound
    exact ⟨hbound, nofun⟩
  · rw [hev] at hbound hraised
    refine ⟨hbound, ?_⟩
    rintro _ ⟨⟩
    exact .inr ⟨e, rfl, hraised e rfl⟩
  · rw [hev] at hbound
    refine ⟨hbound, ?_⟩
    rintro _ ⟨⟩
    exact .inl rfl

theorem covers_within (ns : List Node) : Covers (Node.Within ns) (Node.Within ns) where
  child hn hm := .child hn hm
  stored _ h := h
  body hn hdefines hm := .child hn (hdefines.mem_children hm)

/-- **Reports point at the text they talk about.** Where a source cannot be read, or its evaluation
by a new interpreter fails, the place in the report is a part of the source, and needs not be cut
down to it. An error of the evaluation stands where a node of the program does. It quotes the name
or the literal there word for word, and other forms as they print. -/
theorem errors_point_at_their_text {fuel : Nat} {path src : String} {out : Sink} {f : Failure}
    (h : (runSource fuel path src (.new .builtins out)).1 = .error f) :
    (∀ loc, f.toDiagnostic.location = some loc →
      loc.src = src ∧ loc.span.Marks src ∧ loc.range = loc.span) ∧
    ∀ p s e, f = .eval p s e → e.span? ≠ none → e.PointsAt Node.Within src := by
  have hlocated : ∀ {loc : Location}, loc.src = src → loc.span.Marks src →
      loc.src = src ∧ loc.span.Marks src ∧ loc.range = loc.span := fun hsrc hmarks =>
    ⟨hsrc, hmarks, Location.range_of_marks (hsrc.symm ▸ hmarks)⟩
  unfold runSource at h
  split at h
  · next g hread =>
    cases h
    rcases readProgram_eq_error hread with ⟨e, hlex, rfl⟩ | ⟨ts, e, hlex, hparse, rfl⟩
    · refine ⟨?_, nofun⟩
      rintro _ ⟨⟩
      exact hlocated rfl (marks_of_lex_error hlex)
    · refine ⟨?_, nofun⟩
      rintro _ ⟨⟩
      exact hlocated rfl (marks_of_parse_error hlex hparse)
  · next root hread =>
    obtain ⟨-, hraised⟩ := runProgram_raisedIn (covers_within root.children) (allBound_new _ out)
      hread (fun n hn => .top hn) fuel
    rcases hraised f h with rfl | ⟨e, rfl, ⟨cause, rfl⟩ | ⟨n, hn, hraises⟩⟩
    · exact ⟨nofun, nofun⟩
    · refine ⟨nofun, ?_⟩
      rintro _ _ _ ⟨⟩ hspan
      exact absurd rfl hspan
    · have hpoints : e.PointsAt Node.Within src := hraises.pointsAt hread hn hn
      refine ⟨?_, ?_⟩
      · intro loc hloc
        obtain ⟨-, -, m, -, -, -, hspan, hmarks, -⟩ := hpoints
        obtain ⟨span, hspan', rfl⟩ := Option.map_eq_some_iff.1 hloc
        obtain rfl : m.span = span := Option.some.inj (hspan.symm.trans hspan')
        exact hlocated rfl hmarks
      · rintro _ _ _ ⟨⟩ -
        exact hpoints

/-- The body of a function is at fault, which is called after its definition was left. -/
theorem errors_point_at_their_text_body :
    (runSource 5 "f.scm" "(define (f x) (é x))\n(f 1)" (.new .builtins .unlimited)).1 =
      .error (.eval "f.scm" "(define (f x) (é x))\n(f 1)" (.notDefined "é" ⟨15, 17⟩)) ∧
    (EvalError.notDefined "é" ⟨15, 17⟩).PointsAt Node.Within "(define (f x) (é x))\n(f 1)" := by
  have hlex : lex "(define (f x) (é x))\n(f 1)" = .ok
      [⟨"(", .paren, ⟨1, 0⟩, ⟨0, 1⟩⟩, ⟨"define", .identifier, ⟨1, 1⟩, ⟨1, 7⟩⟩,
        ⟨"(", .paren, ⟨1, 8⟩, ⟨8, 9⟩⟩, ⟨"f", .identifier, ⟨1, 9⟩, ⟨9, 10⟩⟩,
        ⟨"x", .identifier, ⟨1, 11⟩, ⟨11, 12⟩⟩, ⟨")", .paren, ⟨1, 12⟩, ⟨12, 13⟩⟩,
        ⟨"(", .paren, ⟨1, 14⟩, ⟨14, 15⟩⟩, ⟨"é", .identifier, ⟨1, 15⟩, ⟨15, 17⟩⟩,
        ⟨"x", .identifier, ⟨1, 17⟩, ⟨18, 19⟩⟩, ⟨")", .paren, ⟨1, 18⟩, ⟨19, 20⟩⟩,
        ⟨")", .paren, ⟨1, 19⟩, ⟨20, 21⟩⟩, ⟨"(", .paren, ⟨2, 0⟩, ⟨22, 23⟩⟩,
        ⟨"f", .identifier, ⟨2, 1⟩, ⟨23, 24⟩⟩, ⟨"1", .integer, ⟨2, 3⟩, ⟨25, 26⟩⟩,
        ⟨")", .paren, ⟨2, 4⟩, ⟨26, 27⟩⟩] :=
    lex_eq_of_within 16 rfl
  have hread : readProgram "f.scm" "(define (f x) (é x))\n(f 1)" = .ok _ :=
    readProgram_eq_ok_iff.2 ⟨_, hlex, parse_eq_of_run rfl⟩
  have hrun : (runSource 5 "f.scm" "(define (f x) (é x))\n(f 1)" (.new .builtins .unlimited)).1 =
      .error (.eval "f.scm" "(define (f x) (é x))\n(f 1)" (.notDefined "é" ⟨15, 17⟩)) := by
    rw [runSource, hread]
    rfl
  exact ⟨hrun, (errors_point_at_their_text hrun).2 _ _ _ rfl nofun⟩

end SmallScheme
