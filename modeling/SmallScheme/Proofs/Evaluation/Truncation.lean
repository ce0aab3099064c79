import SmallScheme.Proofs.Program

/-!
Output that does not fit. A sink that is full cuts the output of a program off and ends the program,
but has no other influence on it.

* `Eval.Made` — the computations that are put together from the effects of the interpreter, with
  `evaluateNode_made` and `evaluate_made`: evaluations are;
* `Eval.Outputs x a o r b` — for every sink, `x` is in effect one write of `o`: if that is accepted,
  it ends with `r` and the arena `b`, and if it is refused, it fails with that;
* `Eval.Made.exists_outputs`: each such computation has an output in this sense;
* `full_sink_truncates`: runs with a sink that accepts everything and with one that does not.
-/

namespace SmallScheme

/-! ## computations made of effects -/

namespace Eval

/-- The computation is put together from effects: it looks names up and binds them, opens scopes and
writes, and has no other access to the state. -/
inductive Made : {α : Type} → Eval α → Prop
  | pure {α : Type} (a : α) : Made (Pure.pure a : Eval α)
  | bind {α β : Type} {x : Eval α} {f : α → Eval β} : Made x → (∀ a, Made (f a)) → Made (x >>= f)
  | fail {α : Type} (e : EvalError) : Made (Eval.fail e : Eval α)
  | exhausted {α : Type} : Made (Eval.exhausted : Eval α)
  | find (s : ScopeId) (name : String) : Made (Eval.find s name)
  | bindName (s : ScopeId) (name : String) (v : Value) : Made (Eval.bindName s name v)
  | spawn (p : ScopeId) : Made (Eval.spawn p)
  | write (text : String) : Made (Eval.write text)
  | flush : Made Eval.flush

theorem Made.ofExcept {α : Type} (r : Except EvalError α) : (Eval.ofExcept r).Made := by
  cases r with
  | ok a => exact .pure a
  | error e => exact .fail e

end Eval

theorem Primitive.apply_made (p : Primitive) (args : List Value) (span : Span) :
    (p.apply args span).Made := by
  cases p with
  | plus | multiply | minus | divide => exact .ofExcept _
  | display | displayln | newline =>
    exact .bind (.ofExcept _) fun text => .bind (.write text) fun _ => .pure none

theorem variableValue_made (n : Node) (s : ScopeId) : (variableValue n s).Made := by
  refine .bind (.find s _) fun r => ?_
  cases r with
  | some v => exact .pure v
  | none => exact .fail _

theorem bindAll_made (s : ScopeId) (bs : List (String × Value)) : (bindAll s bs).Made := by
  induction bs with
  | nil => exact .pure ()
  | cons b bs ih => exact .bind (.bindName s b.1 b.2) fun _ => ih

theorem defineFunction_made (n target : Node) (rest : List Node) (s : ScopeId) :
    (defineFunction n target rest s).Made := by
  unfold defineFunction
  split
  · exact .fail _
  · refine .bind (.ofExcept _) fun names => ?_
    cases names with
    | nil => exact .fail _
    | cons name params =>
      exact .bind (.spawn s) fun _ => .bind (.bindName s name _) fun _ => .pure none

section Step

variable {ev : Evaluator} (hev : ∀ n s, (ev n s).Made)
include hev

theorem Evaluator.value_made (n : Node) (s : ScopeId) : (ev.value n s).Made := by
  refine .bind (hev n s) fun r => ?_
  cases r with
  | some v => exact .pure v
  | none => exact .fail _

theorem Evaluator.values_made (s : ScopeId) (ns : List Node) : (ev.values s ns).Made := by
  induction ns with
  | nil => exact .pure []
  | cons n ns ih => exact .bind (value_made hev n s) fun v => .bind ih fun vs => .pure (v :: vs)

theorem Evaluator.sequence_made (s : ScopeId) (ns : List Node) : ∀ last,
    (ev.sequence s last ns).Made := by
  induction ns with
  | nil => intro last; exact .pure last
  | cons n ns ih => intro last; exact .bind (hev n s) ih

theorem applyWith_made (c : Callable) (args : List Value) (span : Span) :
    (applyWith ev c args span).Made := by
  cases c with
  | primitive p => exact p.apply_made args span
  | closure f =>
    simp only [applyWith, callClosure]
    split
    · exact .bind (.spawn f.scope) fun s => .bind (bindAll_made s _) fun _ => hev f.body s
    · exact .fail _

theorem evaluateCall_made (n : Node) (s : ScopeId) : (evaluateCall ev n s).Made := by
  unfold evaluateCall
  split
  · exact .fail _
  · refine .bind (Evaluator.value_made hev _ s) fun v => ?_
    cases v with
    | callable c =>
      exact .bind (Evaluator.values_made hev s _) fun args => applyWith_made hev c args n.span
    | number | string => exact .fail _

theorem evaluateDefine_made (n : Node) (s : ScopeId) : (evaluateDefine ev n s).Made := by
  unfold evaluateDefine
  split
  · exact .fail _
  · split
    · unfold defineVariable
      split
      · refine .bind (Evaluator.value_made hev _ s) fun v => ?_
        exact .bind (.bindName s _ v) fun _ => .pure none
      · exact .fail _
    · exact defineFunction_made n _ _ s
    · exact .fail _

theorem evaluateStep_made (n : Node) (s : ScopeId) : (evaluateStep ev n s).Made := by
  unfold evaluateStep
  split
  · exact Evaluator.sequence_made hev s _ none
  · exact Evaluator.sequence_made hev s _ none
  · exact .ofExcept _
  · exact .bind (variableValue_made n s) fun v => .pure (some v)
  · exact evaluateCall_made hev n s
  · exact evaluateDefine_made hev n s

end Step

theorem evaluateNode_made (fuel : Nat) : ∀ n s, (evaluateNode fuel n s).Made := by
  induction fuel with
  | zero => intro n s; exact .exhausted
  | succ fuel ih => exact evaluateStep_made ih

theorem evaluate_made (fuel : Nat) (root : Node) : (evaluate fuel root).Made := by
  unfold evaluate
  split
  · exact .bind (evaluateNode_made fuel root _) fun r => .bind .flush fun _ => .pure r
  · exact .fail _

/-! ## writes in parts -/

namespace Sink

theorem write_nil (s : Sink) : s.write [] = (.ok (), s) := by
  obtain ⟨reversed, _ | n, refuses⟩ := s
  · rfl
  · simp [write]

theorem refusesFlush_write (s : Sink) (o : List UInt8) :
    (s.write o).2.refusesFlush = s.refusesFlush := by
  unfold write
  split <;> rfl

/-- Two writes are one of both texts, as long as the first is accepted. -/
theorem write_append_of_ok {s t : Sink} {o : List UInt8} (h : s.write o = (.ok (), t))
    (p : List UInt8) : s.write (o ++ p) = t.write p := by
  obtain ⟨reversed, _ | n, refuses⟩ := s
  · cases h
    simp [write, List.reverseAux_eq]
  · by_cases hle : o.length ≤ n
    · simp only [write, if_pos hle, Prod.mk.injEq, true_and] at h
      subst h
      have htake : o.take n = o := List.take_of_length_le hle
      have hfits : o.length + p.length ≤ n ↔ p.length ≤ n - o.length := by omega
      simp [write, List.reverseAux_eq, List.take_append, htake, hfits, Nat.sub_add_eq]
    · simp [write, if_neg hle] at h

/-- A write that is refused leaves no room for more. -/
theorem write_append_of_error {s t : Sink} {o : List UInt8} {e : SinkError}
    (h : s.write o = (.error e, t)) (p : List UInt8) : s.write (o ++ p) = (.error e, t) := by
  obtain ⟨reversed, _ | n, refuses⟩ := s
  · cases h
  · by_cases hle : o.length ≤ n
    · simp [write, if_pos hle] at h
    · have hnot : ¬o.length + p.length ≤ n := by omega
      have htake : (o ++ p).take n = o.take n := List.take_append_of_le_length (by omega)
      have hroom : n - (o.length + p.length) = n - o.length := by omega
      rw [← h]
      simp [write, hle, hnot, htake, hroom]

end Sink

theorem Eval.write_append (a b : String) :
    Eval.write (a ++ b) = (do Eval.write a; Eval.write b) := by
  funext ⟨scopes, out⟩
  rw [Eval.bind_apply, Eval.write, Eval.write, utf8_append]
  rcases hwrite : out.write (utf8 a) with ⟨e | ⟨⟩, t⟩
  · simp only [Sink.write_append_of_error hwrite]
  · simp only [Sink.write_append_of_ok hwrite]
    rfl

/-- A value and the line break after it are two writes, and the second is not tried if the first is
refused. -/
theorem Primitive.apply_displayln (v : Value) (span : Span) : displayln.apply [v] span =
    (do Eval.write v.print; Eval.write "\n"; return none) := by
  have hone : displayln.apply [v] span = (do Eval.write (v.print ++ "\n"); return none) := rfl
  rw [hone, Eval.write_append, bind_assoc]

/-! ## the output of a computation -/

/-- From the arena `a`, and for every sink that can be flushed, the computation is in effect one
write of `o`: if it is accepted, the computation ends with `r` and the arena `b`, and if it is
refused, the computation fails with that. -/
def Eval.Outputs {α : Type} (x : Eval α) (a : Scopes) (o : List UInt8) (r : Outcome α)
    (b : Scopes) : Prop :=
  ∀ s : Sink, s.refusesFlush = false →
    (∀ t, s.write o = (.ok (), t) → x ⟨a, s⟩ = (r, ⟨b, t⟩)) ∧
    ∀ e t, s.write o = (.error e, t) → ∃ c, x ⟨a, s⟩ = (.error (.output e), ⟨c, t⟩)

namespace Eval.Outputs

variable {α β : Type} {a b c : Scopes} {o p : List UInt8}

theorem silent {x : Eval α} {r : Outcome α}
    (h : ∀ s : Sink, s.refusesFlush = false → x ⟨a, s⟩ = (r, ⟨b, s⟩)) : x.Outputs a [] r b := by
  intro s hs
  rw [s.write_nil]
  refine ⟨?_, ?_⟩
  · rintro _ ⟨⟩
    exact h s hs
  · rintro e t ⟨⟩

theorem write (text : String) : (Eval.write text).Outputs a (utf8 text) (.value ()) a := by
  intro s _
  unfold Eval.write
  refine ⟨fun t ht => ?_, fun e t ht => ⟨a, ?_⟩⟩
  · simp only [ht]
  · simp only [ht]

/-- Where the first part ends with a value, the outputs follow each other. -/
theorem andThen {x : Eval α} {f : α → Eval β} {v : α} {r : Outcome β}
    (hx : x.Outputs a o (.value v) b) (hf : (f v).Outputs b p r c) :
    (x >>= f).Outputs a (o ++ p) r c := by
  intro s hs
  obtain ⟨hok, herror⟩ := hx s hs
  rcases hwrite : s.write o with ⟨e | ⟨⟩, t⟩
  · -- the first part is cut off
    obtain ⟨d, hd⟩ := herror e t hwrite
    rw [Sink.write_append_of_error hwrite]
    refine ⟨?_, ?_⟩
    · rintro _ ⟨⟩
    · rintro _ _ ⟨⟩
      exact ⟨d, by rw [bind_apply, hd]⟩
  · have ht : t.refusesFlush = false := by
      have hkeep := s.refusesFlush_write o
      rw [hwrite] at hkeep
      exact hkeep.trans hs
    have hbind : (x >>= f) ⟨a, s⟩ = f v ⟨b, t⟩ := by rw [bind_apply, hok t hwrite]
    rw [Sink.write_append_of_ok hwrite, hbind]
    exact hf t ht

/-- Where the first part ends without a value, nothing follows. -/
theorem stop {x : Eval α} {f : α → Eval β} {r : Outcome α} {r' : Outcome β}
    (hx : x.Outputs a o r b)
    (hstop : ∀ i j, x i = (r, j) → (x >>= f) i = (r', j)) : (x >>= f).Outputs a o r' b := by
  intro s hs
  obtain ⟨hok, herror⟩ := hx s hs
  refine ⟨fun t ht => hstop _ _ (hok t ht), fun e t ht => ?_⟩
  obtain ⟨d, hd⟩ := herror e t ht
  exact ⟨d, by rw [bind_apply, hd]⟩

end Eval.Outputs

/-- **Computations made of effects have an output,** whatever sink it goes to. -/
theorem Eval.Made.exists_outputs {α : Type} {x : Eval α} (h : x.Made) :
    ∀ a, ∃ o r b, x.Outputs a o r b := by
  induction h with
  | pure v => intro a; exact ⟨[], .value v, a, .silent fun _ _ => rfl⟩
  | fail e => intro a; exact ⟨[], .error e, a, .silent fun _ _ => rfl⟩
  | exhausted => intro a; exact ⟨[], .outOfFuel, a, .silent fun _ _ => rfl⟩
  | find s name => intro a; exact ⟨[], .value (a.find s name), a, .silent fun _ _ => rfl⟩
  | bindName s name v => intro a; exact ⟨[], .value (), a.bind s name v, .silent fun _ _ => rfl⟩
  | spawn p => intro a; exact ⟨[], .value a.size, (a.spawn p).2, .silent fun _ _ => rfl⟩
  | write text => intro a; exact ⟨utf8 text, .value (), a, .write text⟩
  | flush =>
    intro a
    refine ⟨[], .value (), a, .silent fun s hs => ?_⟩
    simp [Eval.flush, Sink.flush, hs]
  | @bind _ _ x f _ _ ihx ihf =>
    intro a
    obtain ⟨o, r, b, hx⟩ := ihx a
    cases r with
    | value v =>
      obtain ⟨p, r, c, hf⟩ := ihf v b
      exact ⟨o ++ p, r, c, hx.andThen hf⟩
    | error e =>
      exact ⟨o, .error e, b, hx.stop fun i j hi => by rw [Eval.bind_apply, hi]⟩
    | outOfFuel =>
      exact ⟨o, .outOfFuel, b, hx.stop fun i j hi => by rw [Eval.bind_apply, hi]⟩

/-- **A full sink truncates the output and nothing else.** A program that writes `o` into a sink
that accepts everything is run again from the same arena, with a sink that has room for `n` bytes.
If `o` fits, the run ends in the same way, with the same arena, and has written `o`. Otherwise it
fails because the sink is full, and has written the first `n` bytes of `o`. -/
theorem full_sink_truncates {i : Interpreter} (hi : i.out.Accepts) {t : Sink} {n : Nat}
    (hroom : t.room = some n) (hflush : t.refusesFlush = false) (fuel : Nat) (root : Node) :
    ∃ o, (evaluate fuel root i).2.out.written = i.out.written ++ o ∧
      (o.length ≤ n →
        (evaluate fuel root ⟨i.scopes, t⟩).1 = (evaluate fuel root i).1 ∧
        (evaluate fuel root ⟨i.scopes, t⟩).2.scopes = (evaluate fuel root i).2.scopes ∧
        (evaluate fuel root ⟨i.scopes, t⟩).2.out.written = t.written ++ o) ∧
      (n < o.length →
        (evaluate fuel root ⟨i.scopes, t⟩).1 = .error (.output .full) ∧
        (evaluate fuel root ⟨i.scopes, t⟩).2.out.written = t.written ++ o.take n) := by
  obtain ⟨a, s⟩ := i
  obtain ⟨o, r, b, houtputs⟩ := (evaluate_made fuel root).exists_outputs a
  obtain ⟨hunlimited, hthrough⟩ : s.room = none ∧ s.refusesFlush = false := hi
  have hfree : s.write o = (.ok (), (s.write o).2) := by simp [Sink.write, hunlimited]
  have hfull : t.write o =
      (if o.length ≤ n then .ok () else .error .full, (t.write o).2) := by
    simp [Sink.write, hroom]
  have hwritten : (t.write o).2.written = t.written ++ o.take n := by
    rw [t.written_write, hroom]
    rfl
  rw [(houtputs s hthrough).1 _ hfree]
  refine ⟨o, ?_, ?_, ?_⟩
  · rw [s.written_write, hunlimited]
    rfl
  · intro hle
    rw [if_pos hle] at hfull
    rw [(houtputs t hflush).1 _ hfull]
    refine ⟨rfl, rfl, ?_⟩
    rw [hwritten, List.take_of_length_le hle]
  · intro hlt
    rw [if_neg (Nat.not_le.2 hlt)] at hfull
    obtain ⟨c, hc⟩ := (houtputs t hflush).2 _ _ hfull
    rw [hc]
    exact ⟨rfl, hwritten⟩

/-- A program that calls a function, which writes twice. -/
def greeting : Node :=
  .program [⟨.define, none, [⟨.call, none, [.leaf ⟨"f", .identifier, ⟨1, 0⟩, ⟨0, 0⟩⟩], ⟨0, 0⟩⟩,
      ⟨.call, none, [.leaf ⟨"displayln", .identifier, ⟨1, 0⟩, ⟨0, 0⟩⟩,
        .leaf ⟨"é", .string, ⟨1, 0⟩, ⟨0, 0⟩⟩], ⟨0, 0⟩⟩,
      ⟨.call, none, [.leaf ⟨"display", .identifier, ⟨1, 0⟩, ⟨0, 0⟩⟩,
        .leaf ⟨"b", .string, ⟨1, 0⟩, ⟨0, 0⟩⟩], ⟨0, 0⟩⟩], ⟨0, 0⟩⟩,
    ⟨.call, none, [.leaf ⟨"f", .identifier, ⟨1, 0⟩, ⟨0, 0⟩⟩], ⟨0, 0⟩⟩]

/-- The sink is full in the middle of the first letter, and the second text is not written. -/
theorem full_sink_truncates_letter :
    (evaluate 9 greeting (.new .builtins .unlimited)).2.out.written = [195, 169, 10, 98] ∧
    (evaluate 9 greeting (.new .builtins ⟨[], some 1, false⟩)).1 = .error (.output .full) ∧
    (evaluate 9 greeting (.new .builtins ⟨[], some 1, false⟩)).2.out.written = [195] := by
  have hwritten : (evaluate 9 greeting (.new .builtins .unlimited)).2.out.written =
      [195, 169, 10, 98] := by rfl
  obtain ⟨o, ho, -, hlong⟩ := full_sink_truncates (i := .new .builtins .unlimited)
    (t := ⟨[], some 1, false⟩) Sink.accepts_unlimited rfl rfl 9 greeting
  obtain rfl : [195, 169, 10, 98] = o := hwritten.symm.trans ho
  exact ⟨hwritten, hlong (by decide)⟩

end SmallScheme
