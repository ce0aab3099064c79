import SmallScheme.Program
import SmallScheme.Proofs.Evaluation.Effect
import SmallScheme.Proofs.Place.Layout
import SmallScheme.Proofs.Token.Lines

/-!
Programs in parts. A source that is cut after a line where no form is open is two programs, and it
does what the two do in turn.

* `readProgram_append`: the two sources have trees, and the forms of the whole are theirs;
* `Sink.Accepts` — the output is never refused, which an evaluation does not change;
* `endOf fuel root i` — how a program ends, without its result and up to places;
* `endOf_append`: the end of a program whose forms are those of two.
-/

namespace SmallScheme

/-! ## sources in parts -/

theorem readProgram_eq_ok_iff {path src : String} {root : Node} :
    readProgram path src = .ok root ↔ ∃ ts, lex src = .ok ts ∧ parse ts = .ok root := by
  unfold readProgram
  cases lex src with
  | error e => simp
  | ok ts =>
    simp only [Except.ok.injEq, exists_eq_left']
    cases parse ts with
    | error e => simp
    | ok root' => simp

theorem kind_of_readProgram {path src : String} {root : Node}
    (h : readProgram path src = .ok root) : root.kind = .root := by
  obtain ⟨ts, -, hparse⟩ := readProgram_eq_ok_iff.1 h
  obtain ⟨b, -, -, rfl⟩ := parse_eq_ok_iff.1 hparse
  rfl

theorem eq_of_readProgram_empty {path src : String} {root : Node} (hlex : lex src = .ok [])
    (h : readProgram path src = .ok root) : root = Node.program [] := by
  obtain ⟨ts, hts, hparse⟩ := readProgram_eq_ok_iff.1 h
  rw [hlex] at hts
  cases hts
  rw [parse_eq_of_run rfl] at hparse
  exact (Except.ok.inj hparse).symm

/-- **Reading in two parts.** Where a source has a tree and its first part is made of whole lines,
either a form is still open after them, or both parts have trees, and the forms of the whole are
the forms of the two up to places. -/
theorem readProgram_append {path p s : String} {root : Node} (hp : EndsLine p.toList)
    (h : readProgram path (p ++ s) = .ok root) :
    (∃ e, lex p = .error e ∧ e.kind = .missingClose) ∨
    ∃ first second, readProgram path p = .ok first ∧ readProgram path s = .ok second ∧
      root.erase.children = first.erase.children ++ second.erase.children := by
  obtain ⟨ts, hlex, hparse⟩ := readProgram_eq_ok_iff.1 h
  rcases lex_append hp hlex with hopen | ⟨ts₁, ts₂, hp₁, hs₂, rfl⟩
  · exact Or.inl hopen
  · obtain ⟨first, shifted, hfirst, hshifted, hchildren⟩ := parse_append hparse (depth_of_lex hp₁)
    have herase : (ts₂.map (Token.shift (byteLength p.toList) (p.toList.count '\n'))).map
        Token.erase = ts₂.map Token.erase := by
      simp only [List.map_map, Function.comp_def, Token.erase_shift]
    rcases parse_alike herase with ⟨e, e', he, -, -⟩ | ⟨root₁, second, hroot₁, hsecond, hsame⟩
    · rw [hshifted] at he
      cases he
    · rw [hshifted] at hroot₁
      cases hroot₁
      rw [hsame] at hchildren
      exact Or.inr ⟨first, second, readProgram_eq_ok_iff.2 ⟨ts₁, hp₁, hfirst⟩,
        readProgram_eq_ok_iff.2 ⟨ts₂, hs₂, hsecond⟩, hchildren⟩

/-! ## output that is accepted -/

/-- No output is refused. -/
def Sink.Accepts (s : Sink) : Prop := s.room = none ∧ s.refusesFlush = false

theorem Sink.accepts_unlimited : Sink.unlimited.Accepts := ⟨rfl, rfl⟩

theorem Sink.Accepts.write {s : Sink} (h : s.Accepts) (bytes : List UInt8) :
    (s.write bytes).2.Accepts := by
  unfold Sink.write
  rw [h.1]
  exact ⟨rfl, h.2⟩

theorem accepts_guarantee : Guarantee fun _ i j => i.out.Accepts → j.out.Accepts where
  refl _ _ h := h
  trans hij hjk h := hjk (hij h)
  bind _ _ _ _ h := h
  write _ _ bytes h := h.write bytes
  inner hinner h := hinner h

section Accepts

variable {fuel : Nat} {root : Node} {i : Interpreter}

theorem evaluate_of_accepts (hroot : root.kind = .root) (h : i.out.Accepts) :
    evaluate fuel root i = evaluateNode fuel root Scopes.global i := by
  have hflush : ∀ j : Interpreter, j.out.Accepts → Eval.flush j = (.value (), j) := by
    intro j hj
    simp [Eval.flush, Sink.flush, hj.2]
  have hafter := accepts_guarantee.evaluateNode fuel root Scopes.global i h
  unfold evaluate
  rw [if_pos hroot, Eval.bind_apply]
  rcases hend : evaluateNode fuel root Scopes.global i with ⟨r | e | _, j⟩
  · rw [hend] at hafter
    dsimp only
    rw [Eval.bind_apply, hflush j hafter]
    rfl
  · rfl
  · rfl

theorem accepts_of_evaluate (fuel : Nat) (hroot : root.kind = .root) (h : i.out.Accepts) :
    (evaluate fuel root i).2.out.Accepts := by
  rw [evaluate_of_accepts hroot h]
  exact accepts_guarantee.evaluateNode fuel root Scopes.global i h

theorem evaluate_eq_sequence (hroot : root.kind = .root) (h : i.out.Accepts) :
    evaluate (fuel + 1) root i =
      (evaluateNode fuel).sequence Scopes.global none root.children i := by
  rw [evaluate_of_accepts hroot h, evaluateNode, evaluateStep, hroot]

theorem evaluate_empty (h : i.out.Accepts)
    (hend : (evaluate fuel (Node.program []) i).1 ≠ .outOfFuel) :
    evaluate fuel (Node.program []) i = (.value none, i) := by
  cases fuel with
  | zero => exact absurd (by rw [evaluate_of_accepts rfl h]; rfl) hend
  | succ fuel => rw [evaluate_eq_sequence rfl h]; rfl

end Accepts

/-! ## forms in parts -/

theorem Evaluator.sequence_append (ev : Evaluator) (s : ScopeId) (ns ms : List Node) :
    ∀ last i, ev.sequence s last (ns ++ ms) i =
      match ev.sequence s last ns i with
      | (.value r, j) => ev.sequence s r ms j
      | (.error e, j) => (.error e, j)
      | (.outOfFuel, j) => (.outOfFuel, j) := by
  induction ns with
  | nil => intro last i; rfl
  | cons n ns ih =>
    intro last i
    rw [List.cons_append, sequence, sequence, Eval.bind_apply, Eval.bind_apply]
    rcases ev n s i with ⟨r | e | _, j⟩
    · exact ih r j
    · rfl
    · rfl

/-! ## how a program ends -/

/-- How a computation ended: without its value, and up to places. -/
def endState (r : Outcome (Option Value) × Interpreter) : Outcome Unit × Interpreter :=
  (r.1.erase fun _ => (), r.2.erase)

theorem endState_congr {r r' : Outcome (Option Value) × Interpreter} (h : r.1.Alike r'.1)
    (hstate : r.2.erase = r'.2.erase) : endState r = endState r' := by
  obtain ⟨o, i⟩ := r
  obtain ⟨o', i'⟩ := r'
  refine Prod.ext ?_ hstate
  cases h with
  | value => rfl
  | error he => exact congrArg Outcome.error he
  | outOfFuel => rfl

theorem endState_sequence_last (ev : Evaluator) (s : ScopeId) (ns : List Node)
    (last last' : Option Value) (i : Interpreter) :
    endState (ev.sequence s last ns i) = endState (ev.sequence s last' ns i) := by
  cases ns <;> rfl

theorem endState_sequence_erase (fuel : Nat) (s : ScopeId) {ns ms : List Node}
    (h : ns.map Node.erase = ms.map Node.erase) (i : Interpreter) :
    endState ((evaluateNode fuel).sequence s none ns i) =
      endState ((evaluateNode fuel).sequence s none ms i) := by
  have hns := Evaluator.sequence_erases (evaluateNode_erases fuel) s ns none i
  have hms := Evaluator.sequence_erases (evaluateNode_erases fuel) s ms none i
  rw [h, hms] at hns
  obtain ⟨houtcome, hstate⟩ := Prod.mk.inj hns
  exact endState_congr (Outcome.alike_of_erase houtcome.symm) hstate.symm

/-- How a program ends, without its result and up to places. -/
def endOf (fuel : Nat) (root : Node) (i : Interpreter) : Outcome Unit × Interpreter :=
  endState (evaluate fuel root i)

/-- How a program ends that goes on with `second` after a first part that ended as `r`. -/
def endAfter (fuel : Nat) (second : Node) (r : Outcome (Option Value) × Interpreter) :
    Outcome Unit × Interpreter :=
  match r with
  | (.value _, j) => endOf fuel second j
  | (.error e, j) => (.error e.erase, j.erase)
  | (.outOfFuel, j) => (.outOfFuel, j.erase)

theorem ne_outOfFuel_of_endAfter {fuel : Nat} {second : Node}
    {r : Outcome (Option Value) × Interpreter} (h : (endAfter fuel second r).1 ≠ .outOfFuel) :
    r.1 ≠ .outOfFuel := by
  intro hr
  obtain ⟨o, j⟩ := r
  cases hr
  exact h rfl

/-- **Evaluation in two parts.** -/
theorem endOf_append (fuel : Nat) {root first second : Node} {i : Interpreter}
    (hroot : root.kind = .root) (hfirst : first.kind = .root) (hsecond : second.kind = .root)
    (hchildren : root.erase.children = first.erase.children ++ second.erase.children)
    (h : i.out.Accepts) :
    endOf fuel root i = endAfter fuel second (evaluate fuel first i) := by
  unfold endOf
  cases fuel with
  | zero =>
    rw [evaluate_of_accepts hroot h, evaluate_of_accepts hfirst h]
    rfl
  | succ fuel =>
    have hj := accepts_of_evaluate (fuel + 1) hfirst h
    have hforms : root.children.map Node.erase =
        (first.children ++ second.children).map Node.erase := by
      rw [← Node.children_erase, hchildren, Node.children_erase, Node.children_erase,
        List.map_append]
    rw [evaluate_eq_sequence hroot h, endState_sequence_erase fuel _ hforms,
      Evaluator.sequence_append, ← evaluate_eq_sequence hfirst h]
    rcases hend : evaluate (fuel + 1) first i with ⟨r | e | _, j⟩
    · rw [hend] at hj
      rw [endAfter, endOf, evaluate_eq_sequence hsecond hj]
      exact endState_sequence_last _ _ _ r none j
    · rfl
    · rfl

end SmallScheme
