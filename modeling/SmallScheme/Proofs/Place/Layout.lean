import SmallScheme.Program
import SmallScheme.Proofs.Node.Building
import SmallScheme.Proofs.Place.Evaluation
import SmallScheme.Proofs.Token.Reading

/-!
Layout does not influence meaning: sources with the same lexemes, whatever stands between them,
have the same tree up to places or are refused for the same reason (`parse_alike`), and trees that
are the same up to places do the same (`evaluate_alike`).
-/

namespace SmallScheme

/-! ## trees -/

theorem parse_alike {ts ts' : List Token} (h : ts.map Token.erase = ts'.map Token.erase) :
    (∃ e e', parse ts = .error e ∧ parse ts' = .error e' ∧ e.kind = e'.kind) ∨
    ∃ root root', parse ts = .ok root ∧ parse ts' = .ok root' ∧ root.erase = root'.erase := by
  have hparse := parse_erase ts
  rw [h, parse_erase] at hparse
  cases hts : parse ts with
  | error e =>
    cases hts' : parse ts' with
    | error e' =>
      rw [hts, hts'] at hparse
      have herr : e'.erase = e.erase := Except.error.inj hparse
      have hkind : e'.erase.kind = e.erase.kind := congrArg ParseError.kind herr
      exact Or.inl ⟨e, e', rfl, rfl, hkind.symm⟩
    | ok root' => rw [hts, hts'] at hparse; cases hparse
  | ok root =>
    cases hts' : parse ts' with
    | error e' => rw [hts, hts'] at hparse; cases hparse
    | ok root' =>
      rw [hts, hts'] at hparse
      exact Or.inr ⟨root, root', rfl, rfl, (Except.ok.inj hparse).symm⟩

/-! ## evaluations -/

/-- Two ends of an evaluation that differ at most in places: one runs out of fuel if the other
does. -/
inductive Outcome.Alike : Outcome (Option Value) → Outcome (Option Value) → Prop
  | value {v w : Option Value} : v.map Value.erase = w.map Value.erase → Alike (.value v) (.value w)
  | error {d e : EvalError} : d.erase = e.erase → d.message = e.message →
      Alike (.error d) (.error e)
  | outOfFuel : Alike .outOfFuel .outOfFuel

theorem EvalError.message_eq_of_erase {d e : EvalError} (h : d.erase = e.erase) :
    d.message = e.message := by
  rw [← d.message_erase, h, e.message_erase]

theorem Outcome.alike_of_erase {o o' : Outcome (Option Value)}
    (h : o.erase (Option.map Value.erase) = o'.erase (Option.map Value.erase)) : o.Alike o' := by
  cases o with
  | value v =>
    cases o' with
    | value w => exact .value (Outcome.value.inj h)
    | error e => injection h
    | outOfFuel => injection h
  | error d =>
    cases o' with
    | value w => injection h
    | error e =>
      have he : d.erase = e.erase := Outcome.error.inj h
      exact .error he (EvalError.message_eq_of_erase he)
    | outOfFuel => injection h
  | outOfFuel =>
    cases o' with
    | value w => injection h
    | error e => injection h
    | outOfFuel => exact .outOfFuel

theorem evaluate_alike {root root' : Node} {i j : Interpreter} (hroot : root.erase = root'.erase)
    (hij : i.erase = j.erase) (fuel : Nat) :
    (evaluate fuel root i).1.Alike (evaluate fuel root' j).1 ∧
    (evaluate fuel root i).2.erase = (evaluate fuel root' j).2.erase := by
  have hi := evaluate_erases fuel root i
  have hj := evaluate_erases fuel root' j
  rw [hroot, hij, hj] at hi
  obtain ⟨houtcome, hstate⟩ := Prod.mk.inj hi
  exact ⟨Outcome.alike_of_erase houtcome.symm, hstate.symm⟩

/-! ## sources -/

/-- **Layout does not influence meaning.** Two sources with the same lexemes are both refused by
the parser, for the same reason, or both have trees that are equal up to places. From states that
are equal up to places these trees are then evaluated to like ends: with the same output, with
scopes that are equal up to places, and with results that are, or with the same error. -/
theorem layout_irrelevant {src src' : String} {ts ts' : List Token} (h : lex src = .ok ts)
    (h' : lex src' = .ok ts')
    (hsame : ts.map (fun t => (t.kind, t.text)) = ts'.map fun t => (t.kind, t.text))
    (path path' : String) :
    (∃ e e', readProgram path src = .error (.parse path src e) ∧
      readProgram path' src' = .error (.parse path' src' e') ∧ e.kind = e'.kind) ∨
    ∃ root root', readProgram path src = .ok root ∧ readProgram path' src' = .ok root' ∧
      root.erase = root'.erase ∧
      ∀ i j : Interpreter, i.scopes.erase = j.scopes.erase → i.out = j.out → ∀ fuel,
        (evaluate fuel root i).1.Alike (evaluate fuel root' j).1 ∧
        (evaluate fuel root i).2.out = (evaluate fuel root' j).2.out ∧
        (evaluate fuel root i).2.scopes.erase = (evaluate fuel root' j).2.scopes.erase := by
  have herase : ts.map Token.erase = ts'.map Token.erase := by
    have hmap := congrArg (List.map fun p => (⟨p.2, p.1, ⟨0, 0⟩, ⟨0, 0⟩⟩ : Token)) hsame
    rwa [List.map_map, List.map_map] at hmap
  rcases parse_alike herase with ⟨e, e', he, he', hkind⟩ | ⟨root, root', hr, hr', hroot⟩
  · left
    refine ⟨e, e', ?_, ?_, hkind⟩
    · simp only [readProgram, h, he]; rfl
    · simp only [readProgram, h', he']; rfl
  · right
    refine ⟨root, root', ?_, ?_, hroot, ?_⟩
    · simp only [readProgram, h, hr]; rfl
    · simp only [readProgram, h', hr']; rfl
    · intro i j hscopes hout fuel
      have hij : i.erase = j.erase := by rw [Interpreter.erase, Interpreter.erase, hscopes, hout]
      obtain ⟨hend, hstate⟩ := evaluate_alike hroot hij fuel
      obtain ⟨hscopes', hout'⟩ := Interpreter.mk.inj hstate
      exact ⟨hend, hout', hscopes'⟩

/-- One call on one line, and on two lines with a comment. -/
theorem layout_irrelevant_call :
    ∃ ts ts', lex "(+ 1)" = .ok ts ∧ lex "(+;\n1)" = .ok ts' ∧
      ts.map (fun t => (t.kind, t.text)) = ts'.map (fun t => (t.kind, t.text)) ∧
      ∃ root root', readProgram "a" "(+ 1)" = .ok root ∧ readProgram "b" "(+;\n1)" = .ok root' ∧
        ∀ fuel, (evaluate fuel root (.new .builtins .unlimited)).1.Alike
          (evaluate fuel root' (.new .builtins .unlimited)).1 := by
  have h : lex "(+ 1)" = .ok
      [⟨"(", .paren, ⟨1, 0⟩, ⟨0, 1⟩⟩, ⟨"+", .identifier, ⟨1, 1⟩, ⟨1, 2⟩⟩,
        ⟨"1", .integer, ⟨1, 3⟩, ⟨3, 4⟩⟩, ⟨")", .paren, ⟨1, 4⟩, ⟨4, 5⟩⟩] :=
    lex_eq_of_within 9 rfl
  have h' : lex "(+;\n1)" = .ok
      [⟨"(", .paren, ⟨1, 0⟩, ⟨0, 1⟩⟩, ⟨"+", .identifier, ⟨1, 1⟩, ⟨1, 2⟩⟩,
        ⟨"1", .integer, ⟨2, 0⟩, ⟨4, 5⟩⟩, ⟨")", .paren, ⟨2, 1⟩, ⟨5, 6⟩⟩] :=
    lex_eq_of_within 9 rfl
  refine ⟨_, _, h, h', rfl, ?_⟩
  rcases layout_irrelevant h h' rfl "a" "b" with
    ⟨e, e', he, -, -⟩ | ⟨root, root', hr, hr', -, hrun⟩
  · simp only [readProgram, h, parse_eq] at he
    cases he
  · exact ⟨root, root', hr, hr', fun fuel => (hrun _ _ rfl rfl fuel).1⟩

end SmallScheme
