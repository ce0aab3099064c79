import Mathlib.Algebra.Ring.Int.Defs
import SmallScheme.Proofs.Node.Literal

/-!
What the arithmetic primitives compute. They take their arguments from left to right, and the first
that cannot be taken decides: it is no number, or all arguments up to it are integers and what they
come to exactly is no integer of 64 bits. After a double nothing can overflow.

* `Value.int?` — the integer that a value is; `args.mapM Value.int?` are those of all arguments, if
  all of them are integers;
* `Amounts exact args n` — the number that the arguments come to: exact for integers, else a double;
* `Offends p span exact args k e` — the argument at the place `k` cannot be taken, for which the
  error is `e`;
* `Accumulates`, `Primitive.fold_accumulates`: a fold over arguments fails at the first that
  offends, and otherwise gives what they come to;
* `arithmetic_is_exact`: the four primitives on all arguments.
-/

namespace SmallScheme

/-! ## integers of 64 bits -/

theorem not_outOfRange_toInt (n : Int64) : ¬OutOfRange n.toInt := by
  have hmin := n.le_toInt
  have hmax := n.toInt_lt
  unfold OutOfRange
  omega

/-- Only the least of them has no opposite. -/
theorem outOfRange_neg {n : Int64} : OutOfRange (-n.toInt) ↔ n = Int64.minValue := by
  have hmin := n.le_toInt
  have hmax := n.toInt_lt
  rw [OutOfRange, ← Int64.toInt_inj, Int64.toInt_minValue]
  omega

/-- Only the least of them has a quotient that is none of them, which is by minus one. -/
theorem outOfRange_tdiv {m n : Int64} (hn : n.toInt ≠ 0) :
    OutOfRange (m.toInt.tdiv n.toInt) ↔ m = Int64.minValue ∧ n = -1 := by
  have hminus : (-1 : Int64).toInt = -1 := rfl
  rw [← Int64.toInt_inj (x := n), hminus]
  by_cases hone : n.toInt = -1
  · rw [hone, Int.tdiv_neg, Int.tdiv_one, outOfRange_neg, and_iff_left rfl]
  · refine ⟨fun h => ?_, fun h => absurd h.2 hone⟩
    -- by any other integer a quotient is either the dividend or at most half as large
    by_cases hsame : n.toInt = 1
    · rw [hsame, Int.tdiv_one] at h
      exact absurd h (not_outOfRange_toInt m)
    · have habs : (m.toInt.tdiv n.toInt).natAbs = m.toInt.natAbs / n.toInt.natAbs :=
        Int.natAbs_tdiv m.toInt n.toInt
      have hhalf : m.toInt.natAbs / n.toInt.natAbs ≤ m.toInt.natAbs / 2 :=
        Nat.div_le_div_left (by omega) (by decide)
      have hmin := m.le_toInt
      have hmax := m.toInt_lt
      unfold OutOfRange at h
      omega

namespace Number

theorem ofInt_of_outOfRange {x : Int} (h : OutOfRange x) : ofInt x = .error .overflow := by
  rw [ofInt, if_neg fun hfits => fitsInt64_iff.1 hfits h]

theorem exists_ofInt {x : Int} (h : ¬OutOfRange x) :
    ∃ m : Int64, ofInt x = .ok (.int m) ∧ m.toInt = x := by
  refine ⟨Int64.ofInt x, by rw [ofInt, if_pos (fitsInt64_iff.2 h)], ?_⟩
  unfold OutOfRange at h
  exact Int64.toInt_ofInt_of_le (by omega) (by omega)

end Number

/-! ## exact values -/

def Value.int? : Value → Option Int
  | number (.int n) => some n.toInt
  | _ => none

theorem eq_number_of_number? {v : Value} {n : Number} (h : v.number? = some n) :
    v = .number n := by
  cases v with
  | number m => cases h; rfl
  | string | callable => cases h

theorem mapM_int?_concat (vs : List Value) (v : Value) : (vs ++ [v]).mapM Value.int? =
    (vs.mapM Value.int?).bind fun ns => v.int?.map fun n => ns ++ [n] := by
  rw [List.mapM_append]
  cases h : v.int? <;> simp [h]

theorem length_of_mapM_int? {vs : List Value} : ∀ {ns : List Int}, vs.mapM Value.int? = some ns →
    ns.length = vs.length := by
  induction vs with
  | nil => rintro ns ⟨⟩; rfl
  | cons v vs ih =>
    intro ns h
    rw [List.mapM_cons] at h
    obtain ⟨n, -, hrest⟩ := Option.bind_eq_some_iff.1 h
    obtain ⟨ms, hms, hns⟩ := Option.bind_eq_some_iff.1 hrest
    cases hns
    rw [List.length_cons, List.length_cons, ih hms]

/-- The first of some integers less all others. -/
def differenceOf : List Int → Int
  | [] => 0
  | n :: ns => n - ns.sum

theorem differenceOf_concat {ns : List Int} (h : ns ≠ []) (n : Int) :
    differenceOf (ns ++ [n]) = differenceOf ns - n := by
  cases ns with
  | nil => exact absurd rfl h
  | cons m ns =>
    rw [List.cons_append, differenceOf, differenceOf, List.sum_append, List.sum_singleton]
    omega

/-- The number that some arguments come to: `exact` says what integers come to, and all else comes
to a double. -/
inductive Amounts (exact : List Int → Int) (args : List Value) : Number → Prop
  | int {ns : List Int} {m : Int64} : args.mapM Value.int? = some ns → m.toInt = exact ns →
      Amounts exact args (.int m)
  | float {x : Float} : args.mapM Value.int? = none → Amounts exact args (.float x)

theorem Amounts.not_outOfRange {exact : List Int → Int} {args : List Value} {n : Number}
    {ns : List Int} (h : Amounts exact args n) (hns : args.mapM Value.int? = some ns) :
    ¬OutOfRange (exact ns) := by
  cases h with
  | @int ms m hms hm =>
    obtain rfl : ms = ns := Option.some.inj (hms.symm.trans hns)
    rw [← hm]
    exact not_outOfRange_toInt m
  | float hnone =>
    rw [hnone] at hns
    cases hns

/-! ## the first argument that offends -/

/-- The argument at the place `k`, counted from zero, cannot be taken: it is no number, or it and
those before it are integers which come to none of 64 bits. -/
inductive Offends (p : Primitive) (span : Span) (exact : List Int → Int) (args : List Value)
    (k : Nat) : EvalError → Prop
  | notANumber {v : Value} : args[k]? = some v → v.number? = none →
      Offends p span exact args k (.notANumber p (k + 1) v.type span)
  | overflow {ns : List Int} : k < args.length → (args.take (k + 1)).mapM Value.int? = some ns →
      OutOfRange (exact ns) → Offends p span exact args k (.integerOverflow p span)

section Offends

variable {p : Primitive} {span : Span} {exact : List Int → Int} {args : List Value} {k : Nat}
  {e e' : EvalError}

theorem Offends.lt_length (h : Offends p span exact args k e) : k < args.length := by
  cases h with
  | notANumber hv _ => exact (List.getElem?_eq_some_iff.1 hv).1
  | overflow hk _ _ => exact hk

/-- An argument that is no number ends a row of integers. -/
theorem mapM_int?_take_eq_none {v : Value} (hv : args[k]? = some v) (hnumber : v.number? = none) :
    (args.take (k + 1)).mapM Value.int? = none := by
  have hint : v.int? = none := by
    cases v with
    | number n => cases hnumber
    | string | callable => rfl
  rw [List.take_add_one, hv, Option.toList_some, mapM_int?_concat, hint]
  cases (args.take k).mapM Value.int? <;> rfl

theorem Offends.unique (h : Offends p span exact args k e) (h' : Offends p span exact args k e') :
    e = e' := by
  cases h with
  | notANumber hv hnumber =>
    cases h' with
    | notANumber hv' _ =>
      rw [hv] at hv'
      cases hv'
      rfl
    | overflow _ hns _ =>
      rw [mapM_int?_take_eq_none hv hnumber] at hns
      cases hns
  | overflow _ hns _ =>
    cases h' with
    | notANumber hv hnumber =>
      rw [mapM_int?_take_eq_none hv hnumber] at hns
      cases hns
    | overflow _ _ _ => rfl

end Offends

/-- The result of a primitive that takes any number of arguments. It fails with the error of the
first argument that offends; if none does, it gives what the arguments come to. -/
structure Accumulates (p : Primitive) (span : Span) (exact : List Int → Int) (args : List Value)
    (r : Except EvalError Number) : Prop where
  error : ∀ e, r = .error e ↔
    ∃ k, Offends p span exact args k e ∧ ∀ j < k, ∀ e', ¬Offends p span exact args j e'
  value : (∀ k e, ¬Offends p span exact args k e) →
    ∃ n, r = .ok n ∧ Amounts exact args n

namespace Accumulates

variable {p : Primitive} {span : Span} {exact : List Int → Int} {args : List Value}

theorem of_offends {k : Nat} {e : EvalError} (h : Offends p span exact args k e)
    (hfirst : ∀ j < k, ∀ e', ¬Offends p span exact args j e') :
    Accumulates p span exact args (.error e) := by
  refine ⟨fun e' => ⟨?_, ?_⟩, fun hnone => absurd h (hnone k e)⟩
  · rintro ⟨⟩
    exact ⟨k, h, hfirst⟩
  · rintro ⟨j, h', hfirst'⟩
    rcases Nat.lt_trichotomy j k with hlt | rfl | hlt
    · exact absurd h' (hfirst j hlt e')
    · rw [h.unique h']
    · exact absurd h (hfirst' k hlt e)

theorem of_amounts {n : Number} (h : Amounts exact args n)
    (hnone : ∀ k e, ¬Offends p span exact args k e) :
    Accumulates p span exact args (.ok n) := by
  refine ⟨fun e => ⟨?_, ?_⟩, fun _ => ⟨n, rfl, h⟩⟩
  · rintro ⟨⟩
  · rintro ⟨k, hoffends, -⟩
    exact absurd hoffends (hnone k e)

end Accumulates

namespace Primitive

variable {p : Primitive} {span : Span} {op : Operator} {exact : List Int → Int}

theorem fold_cons (acc : Number) (index : Nat) (v : Value) (rest : List Value) :
    p.fold span op acc index (v :: rest) = (p.operand span index v).bind fun n =>
      (p.operate span op acc n).bind fun acc => p.fold span op acc (index + 1) rest := rfl

/-- One more number is taken into what the arguments before it come to, unless all are integers and
come to none of 64 bits. -/
theorem operate_amounts (p : Primitive) (span : Span) {pre : List Value} {acc n : Number}
    (hacc : Amounts exact pre acc)
    (hop : ∀ ns m, pre.mapM Value.int? = some ns →
      Number.applyInt op (exact ns) m = Number.ofInt (exact (ns ++ [m]))) :
    (∃ acc', p.operate span op acc n = .ok acc' ∧ Amounts exact (pre ++ [.number n]) acc') ∨
    (p.operate span op acc n = .error (.integerOverflow p span) ∧
      ∃ ns, (pre ++ [Value.number n]).mapM Value.int? = some ns ∧ OutOfRange (exact ns)) := by
  have hints := mapM_int?_concat pre (.number n)
  cases hacc with
  | float hnone =>
    rw [hnone] at hints
    exact .inl ⟨_, rfl, .float hints⟩
  | @int ns a hns ha =>
    rw [hns] at hints
    cases n with
    | float x => exact .inl ⟨_, rfl, .float hints⟩
    | int b =>
      have happly : p.operate span op (.int a) (.int b) =
          (Number.ofInt (exact (ns ++ [b.toInt]))).mapError (p.arithmeticError span) := by
        rw [operate, Number.apply, ha, hop ns b.toInt hns]
      by_cases hrange : OutOfRange (exact (ns ++ [b.toInt]))
      · refine .inr ⟨?_, _, hints, hrange⟩
        rw [happly, Number.ofInt_of_outOfRange hrange]
        rfl
      · obtain ⟨m, hm, hexact⟩ := Number.exists_ofInt hrange
        refine .inl ⟨.int m, ?_, .int hints hexact⟩
        rw [happly, hm]
        rfl

/-- **A fold over arguments.** Where the arguments `pre` are taken already and none of them offends,
the fold over the rest fails at the first argument that offends, and otherwise gives what all
arguments come to. -/
theorem fold_accumulates (rest : List Value) : ∀ {pre args : List Value} {acc : Number},
    args = pre ++ rest → Amounts exact pre acc →
    (∀ j < pre.length, ∀ e, ¬Offends p span exact args j e) →
    (∀ ns m, pre.length ≤ ns.length →
      Number.applyInt op (exact ns) m = Number.ofInt (exact (ns ++ [m]))) →
    Accumulates p span exact args (p.fold span op acc (pre.length + 1) rest) := by
  induction rest with
  | nil =>
    intro pre args acc hargs hacc hfree _
    rw [List.append_nil] at hargs
    subst hargs
    exact .of_amounts hacc fun k e he => hfree k he.lt_length e he
  | cons v rest ih =>
    intro pre args acc hargs hacc hfree hop
    have hat : args[pre.length]? = some v := by simp [hargs]
    have htake : args.take (pre.length + 1) = pre ++ [v] := by
      simp [hargs, List.take_append, List.take_of_length_le (Nat.le_succ pre.length)]
    rw [fold_cons, operand]
    cases hnumber : v.number? with
    | none => exact .of_offends (.notANumber hat hnumber) hfree
    | some n =>
      obtain rfl : v = .number n := eq_number_of_number? hnumber
      have hop' : ∀ ns m, pre.mapM Value.int? = some ns →
          Number.applyInt op (exact ns) m = Number.ofInt (exact (ns ++ [m])) := fun ns m hns =>
        hop ns m (Nat.le_of_eq (length_of_mapM_int? hns).symm)
      rcases operate_amounts p span hacc hop' with
        ⟨acc', hok, hacc'⟩ | ⟨herror, ns, hns, hrange⟩
      · -- the argument is taken, so that it does not offend either
        have hfree' : ∀ j < (pre ++ [Value.number n]).length, ∀ e,
            ¬Offends p span exact args j e := by
          intro j hj e he
          rw [List.length_append, List.length_singleton] at hj
          rcases Nat.lt_succ_iff_lt_or_eq.1 hj with hj | rfl
          · exact hfree j hj e he
          · cases he with
            | notANumber hv hnone =>
              rw [hat] at hv
              cases hv
              cases hnone
            | overflow _ hns hrange =>
              rw [htake] at hns
              exact hacc'.not_outOfRange hns hrange
        have hrest := ih (by rw [hargs, List.append_assoc]; rfl) hacc' hfree'
          fun ns m hle => hop ns m (by simp at hle; omega)
        rw [List.length_append, List.length_singleton] at hrest
        simpa only [Except.bind, hok] using hrest
      · simp only [Except.bind, herror]
        exact .of_offends (.overflow (by simp [hargs]) (by rw [htake]; exact hns) hrange) hfree

end Primitive

/-! ## the primitives -/

/-- How an arithmetic primitive ends that gives the number or the error `r`. -/
def numberOutcome : Except EvalError Number → Outcome (Option Value)
  | .ok n => .value (some (.number n))
  | .error e => .error e

/-- One argument of the primitive that subtracts changes its sign. -/
def Negates (span : Span) (r : Except EvalError Number) : Value → Prop
  | .number (.int n) =>
    (r = .error (.integerOverflow .minus span) ↔ n = Int64.minValue) ∧
    (n ≠ Int64.minValue → ∃ m : Int64, r = .ok (.int m) ∧ m.toInt = -n.toInt)
  | .number (.float x) => r = .ok (.float (-x))
  | v => r = .error (.notANumber .minus 1 v.type span)

/-- The result of the primitive that subtracts. It wants an argument, and takes all others from the
first. -/
def Subtracts (span : Span) (r : Except EvalError Number) : List Value → Prop
  | [] => r = .error (.primitiveArity .minus (.atLeast 1) 0 span)
  | [v] => Negates span r v
  | args => Accumulates .minus span differenceOf args r

/-- The quotient of two numbers. That of integers is cut off towards zero. -/
def QuotientOf (span : Span) (r : Except EvalError Number) : Number → Number → Prop
  | .int m, .int n =>
    (r = .error (.divisionByZero .divide span) ↔ n = 0) ∧
    (r = .error (.integerOverflow .divide span) ↔ m = Int64.minValue ∧ n = -1) ∧
    (n ≠ 0 → ¬(m = Int64.minValue ∧ n = -1) →
      ∃ q : Int64, r = .ok (.int q) ∧ q.toInt = m.toInt.tdiv n.toInt)
  | a, b => r = .ok (.float (a.toFloat / b.toFloat))

/-- The result of the primitive that divides. It wants two arguments, and both are to be numbers. -/
def Divides (span : Span) (r : Except EvalError Number) (args : List Value) : Prop :=
  (args.length ≠ 2 → r = .error (.primitiveArity .divide (.exactly 2) args.length span)) ∧
  ∀ a b, args = [a, b] →
    (a.number? = none → r = .error (.notANumber .divide 1 a.type span)) ∧
    ∀ m, a.number? = some m →
      (b.number? = none → r = .error (.notANumber .divide 2 b.type span)) ∧
      ∀ n, b.number? = some n → QuotientOf span r m n

namespace Primitive

theorem ofExcept_apply (r : Except EvalError Number) (i : Interpreter) :
    Eval.ofExcept (r.map fun n => some (Value.number n)) i = (numberOutcome r, i) := by
  cases r <;> rfl

/-- A fold that starts with what no arguments come to. -/
theorem fold_accumulates_all {p : Primitive} {op : Operator} {exact : List Int → Int}
    {unit : Int64} (hunit : unit.toInt = exact [])
    (hop : ∀ ns m, Number.applyInt op (exact ns) m = Number.ofInt (exact (ns ++ [m])))
    (span : Span) (args : List Value) :
    Accumulates p span exact args (p.fold span op (.int unit) 1 args) := by
  have hnone : Amounts exact [] (.int unit) := .int rfl hunit
  refine fold_accumulates args rfl hnone ?_ fun ns m _ => hop ns m
  rintro j ⟨⟩

theorem plus_accumulates (span : Span) (args : List Value) :
    Accumulates .plus span List.sum args (plus.fold span .add (.int 0) 1 args) := by
  refine fold_accumulates_all rfl (fun ns m => ?_) span args
  rw [List.sum_append, List.sum_singleton]
  rfl

theorem multiply_accumulates (span : Span) (args : List Value) :
    Accumulates .multiply span List.prod args (multiply.fold span .mul (.int 1) 1 args) := by
  refine fold_accumulates_all rfl (fun ns m => ?_) span args
  rw [List.prod_append, List.prod_singleton]
  rfl

/-- One number comes to itself. -/
theorem amounts_differenceOf (n : Number) : Amounts differenceOf [.number n] n := by
  cases n with
  | int m => exact .int rfl (by simp [differenceOf])
  | float x => exact .float rfl

/-- A result that is an exact integer, if it is one of 64 bits. -/
theorem checked_ofInt (p : Primitive) (span : Span) (x : Int) :
    ((Number.ofInt x).mapError (p.arithmeticError span) = .error (.integerOverflow p span) ↔
      OutOfRange x) ∧
    (¬OutOfRange x → ∃ m : Int64,
      (Number.ofInt x).mapError (p.arithmeticError span) = .ok (.int m) ∧ m.toInt = x) := by
  by_cases hrange : OutOfRange x
  · rw [Number.ofInt_of_outOfRange hrange]
    exact ⟨⟨fun _ => hrange, fun _ => rfl⟩, fun h => absurd hrange h⟩
  · obtain ⟨m, hm, hexact⟩ := Number.exists_ofInt hrange
    rw [hm]
    refine ⟨⟨?_, fun h => absurd h hrange⟩, fun _ => ⟨m, rfl, hexact⟩⟩
    rintro ⟨⟩

theorem negates_difference (span : Span) (v : Value) : Negates span (difference span [v]) v := by
  cases v with
  | string | callable => rfl
  | number n =>
    cases n with
    | float x => rfl
    | int n =>
      have hchecked := checked_ofInt minus span (-n.toInt)
      rw [outOfRange_neg] at hchecked
      exact hchecked

theorem subtracts_difference (span : Span) (args : List Value) :
    Subtracts span (difference span args) args := by
  rcases args with _ | ⟨v, _ | ⟨w, rest⟩⟩
  · rfl
  · exact negates_difference span v
  · have hdifference : difference span (v :: w :: rest) =
        (minus.operand span 1 v).bind fun n => minus.fold span .sub n 2 (w :: rest) := rfl
    show Accumulates .minus span differenceOf (v :: w :: rest) (difference span (v :: w :: rest))
    rw [hdifference, operand]
    cases hnumber : v.number? with
    | none => exact .of_offends (.notANumber rfl hnumber) (by rintro j ⟨⟩)
    | some n =>
      obtain rfl := eq_number_of_number? hnumber
      have hfirst := amounts_differenceOf n
      refine @fold_accumulates _ span _ _ (w :: rest) [.number n] _ _ rfl hfirst ?_ ?_
      · intro j hj e he
        obtain rfl : j = 0 := by simpa using hj
        cases he with
        | notANumber hv hnone => cases hv; cases hnone
        | overflow _ hns hrange => exact hfirst.not_outOfRange hns hrange
      · intro ns m hle
        have hne : ns ≠ [] := by
          rintro rfl
          cases hle
        rw [differenceOf_concat hne]
        rfl

theorem quotientOf_operate (span : Span) (a b : Number) :
    QuotientOf span (divide.operate span .div a b) a b := by
  cases a with
  | float x => cases b <;> rfl
  | int m =>
    cases b with
    | float y => rfl
    | int n =>
      by_cases hzero : n = 0
      · subst hzero
        refine ⟨⟨fun _ => rfl, fun _ => rfl⟩, ⟨?_, ?_⟩, fun hne => absurd rfl hne⟩
        · rintro ⟨⟩
        · rintro ⟨-, ⟨⟩⟩
      · have hne : n.toInt ≠ 0 := by
          rw [← Int64.toInt_zero, Ne, Int64.toInt_inj]
          exact hzero
        have happly : divide.operate span .div (.int m) (.int n) =
            (Number.ofInt (m.toInt.tdiv n.toInt)).mapError (divide.arithmeticError span) := by
          rw [operate, Number.apply, Number.applyInt, if_neg hne]
        have hchecked := checked_ofInt divide span (m.toInt.tdiv n.toInt)
        rw [outOfRange_tdiv hne, ← happly] at hchecked
        obtain ⟨hoverflow, hvalue⟩ := hchecked
        refine ⟨⟨fun hdivision => ?_, fun h => absurd h hzero⟩, hoverflow, fun _ => hvalue⟩
        -- the quotient is there or overflows, and neither is a division by zero
        by_cases hrange : m = Int64.minValue ∧ n = -1
        · rw [hoverflow.2 hrange] at hdivision
          cases hdivision
        · obtain ⟨q, hq, -⟩ := hvalue hrange
          rw [hq] at hdivision
          cases hdivision

theorem divides_quotient (span : Span) (args : List Value) :
    Divides span (quotient span args) args := by
  constructor
  · intro hlength
    rcases args with _ | ⟨a, _ | ⟨b, _ | ⟨c, rest⟩⟩⟩
    · rfl
    · rfl
    · exact absurd rfl hlength
    · rfl
  · rintro a b rfl
    have hquotient : quotient span [a, b] = (divide.operand span 1 a).bind fun m =>
        (divide.operand span 2 b).bind fun n => divide.operate span .div m n := rfl
    refine ⟨fun ha => ?_, fun m ha => ⟨fun hb => ?_, fun n hb => ?_⟩⟩
    · rw [hquotient, operand, ha]
      rfl
    · rw [hquotient, operand, ha, operand, hb]
      rfl
    · rw [hquotient, operand, ha, operand, hb]
      exact quotientOf_operate span m n

end Primitive

/-- **Arithmetic is exact.** Addition and multiplication fail at the first argument that is no
number, or with which integers leave the range of 64 bits, and say so; else they give the exact
integer, or a double if one of the arguments is a double. Subtraction wants an argument, changes the
sign of one that stands alone, and does with more of them as addition does. Division wants two
numbers, and fails on integers only where there is no quotient of 64 bits. None of them touches the
state. -/
theorem arithmetic_is_exact (args : List Value) (span : Span) (i : Interpreter) :
    (∃ r, Primitive.plus.apply args span i = (numberOutcome r, i) ∧
      Accumulates .plus span List.sum args r) ∧
    (∃ r, Primitive.multiply.apply args span i = (numberOutcome r, i) ∧
      Accumulates .multiply span List.prod args r) ∧
    (∃ r, Primitive.minus.apply args span i = (numberOutcome r, i) ∧ Subtracts span r args) ∧
    (∃ r, Primitive.divide.apply args span i = (numberOutcome r, i) ∧ Divides span r args) :=
  ⟨⟨_, Primitive.ofExcept_apply _ i, Primitive.plus_accumulates span args⟩,
    ⟨_, Primitive.ofExcept_apply _ i, Primitive.multiply_accumulates span args⟩,
    ⟨_, Primitive.ofExcept_apply _ i, Primitive.subtracts_difference span args⟩,
    ⟨_, Primitive.ofExcept_apply _ i, Primitive.divides_quotient span args⟩⟩

end SmallScheme
