import SmallScheme.Node.Parser

/-!
From tokens to trees without recursion. A `Builder` holds the forms whose closing parenthesis is
still to come and the forms read so far at the innermost level; `step` takes one token into it,
`finish` asks for a whole program, and `run` takes tokens through both.

* `Builder.Takes b t b'` — one step of the builder, case by case (`Builder.takes_of_step`,
  `Builder.step_of_takes`).
-/

namespace SmallScheme

/-! ## tokens that are forms -/

namespace Token

/-- The token is a form by itself. -/
structure IsAtom (t : Token) : Prop where
  not_isOpen : t.isOpen = false
  not_isClose : t.isClose = false
  not_quote : t.kind ≠ .quote

theorem isAtom_of_isIdentifier {t : Token} {name : String} (h : t.isIdentifier name) :
    t.IsAtom := by
  have hkind := (isIdentifier_iff.1 h).1
  exact ⟨by simp [isOpen, hkind], by simp [isClose, hkind], by simp [hkind]⟩

end Token

/-! ## the builder -/

/-- A form whose closing parenthesis is still to come. -/
structure OpenForm where
  kind : NodeKind
  /-- The token that the node will keep. -/
  token : Token
  /-- The span of the opening parenthesis. -/
  start : Span
  /-- The forms before this one at its own level, the last one first. -/
  before : List Node
  deriving Repr

namespace OpenForm

/-- A form of which only the opening parenthesis is read. -/
def ofOpen (t : Token) (before : List Node) : OpenForm := ⟨.call, t, t.span, before⟩

/-- The same form as a definition, once its keyword is read. -/
def toDefine (f : OpenForm) (keyword : Token) : OpenForm :=
  { f with kind := .define, token := keyword }

/-- The node of a form with the given children, the last one first, closed by the token `t`. -/
def close (f : OpenForm) (children : List Node) (t : Token) : Node :=
  ⟨f.kind, some f.token, children.reverse, f.start.merge t.span⟩

end OpenForm

/-- A program that is being built. -/
structure Builder where
  /-- The open forms, the innermost first. -/
  stack : List OpenForm
  /-- The forms read so far at the innermost level, the last one first. -/
  forms : List Node
  /-- The end of the last token. -/
  lastEnd : Nat
  deriving Repr

namespace Builder

def empty : Builder := ⟨[], [], 0⟩

/-- The innermost open form, if nothing of it is read but its opening parenthesis. -/
def fresh? (b : Builder) : Option OpenForm :=
  match b.stack, b.forms with
  | f :: _, [] => if f.kind = .call then some f else none
  | _, _ => none

/-- Takes a closing parenthesis. -/
def close (b : Builder) (t : Token) : Except ParseError Builder :=
  match b.stack with
  | [] => .error ⟨.freeClose, t.span⟩
  | f :: stack =>
    if b.fresh?.isSome then .error ⟨.emptyForm, f.start.merge t.span⟩
    else .ok ⟨stack, f.close b.forms t :: f.before, t.span.stop⟩

/-- Takes a token that is neither a parenthesis nor a quote mark: the keyword `define` right
after an opening parenthesis makes a definition of the form, all else is a form by itself. -/
def leaf (b : Builder) (t : Token) : Builder :=
  match b.fresh? with
  | some f =>
    if t.isIdentifier "define" then ⟨f.toDefine t :: b.stack.tail, [], t.span.stop⟩
    else ⟨b.stack, [Node.leaf t], t.span.stop⟩
  | none => ⟨b.stack, Node.leaf t :: b.forms, t.span.stop⟩

def step (b : Builder) (t : Token) : Except ParseError Builder :=
  if t.isClose then b.close t
  else if t.kind = .quote then .error ⟨.unsupportedQuote, t.span⟩
  else if t.isOpen then .ok ⟨.ofOpen t b.forms :: b.stack, [], t.span.stop⟩
  else .ok (b.leaf t)

/-- The program, if no form is open. -/
def finish (b : Builder) : Except ParseError Node :=
  match b.stack with
  | [] => .ok (Node.program b.forms.reverse)
  | f :: _ => .error ⟨.missingClose, ⟨f.start.start, max b.lastEnd f.start.stop⟩⟩

/-- Takes tokens up to the first that is refused, and gives the program or the error with the
tokens that were not taken. -/
def run (b : Builder) : List Token → Except ParseError Node × List Token
  | [] => (b.finish, [])
  | t :: ts =>
    match b.step t with
    | .ok b' => b'.run ts
    | .error e => (.error e, t :: ts)

/-! ## one step -/

theorem fresh?_eq_some {b : Builder} {f : OpenForm} (h : b.fresh? = some f) :
    ∃ stack, b = ⟨f :: stack, [], b.lastEnd⟩ ∧ f.kind = .call := by
  obtain ⟨stack, forms, e⟩ := b
  rcases stack with _ | ⟨g, stack⟩
  · cases h
  · cases forms with
    | nil =>
      replace h : (if g.kind = .call then some g else none) = some f := h
      split at h
      · next hkind =>
        cases h
        exact ⟨stack, rfl, hkind⟩
      · cases h
    | cons n ns => cases h

theorem fresh?_of_call {f : OpenForm} (h : f.kind = .call) (stack : List OpenForm) (e : Nat) :
    fresh? ⟨f :: stack, [], e⟩ = some f := if_pos h

theorem fresh?_of_define {f : OpenForm} (h : f.kind = .define) (stack : List OpenForm) (e : Nat) :
    fresh? ⟨f :: stack, [], e⟩ = none := if_neg (by simp [h])

theorem fresh?_cons (stack : List OpenForm) (n : Node) (forms : List Node) (e : Nat) :
    fresh? ⟨stack, n :: forms, e⟩ = none := by
  cases stack <;> rfl

theorem leaf_eq_of_fresh {f : OpenForm} (hkind : f.kind = .call) (stack : List OpenForm) (e : Nat)
    (t : Token) : leaf ⟨f :: stack, [], e⟩ t =
      if t.isIdentifier "define" then ⟨f.toDefine t :: stack, [], t.span.stop⟩
      else ⟨f :: stack, [Node.leaf t], t.span.stop⟩ := by
  rw [leaf, fresh?_of_call hkind]
  rfl

theorem leaf_eq_of_not_fresh {b : Builder} (h : b.fresh? = none) (t : Token) :
    b.leaf t = ⟨b.stack, Node.leaf t :: b.forms, t.span.stop⟩ := by
  rw [leaf, h]

theorem close_cons (f : OpenForm) (stack : List OpenForm) (forms : List Node) (e : Nat)
    (t : Token) : close ⟨f :: stack, forms, e⟩ t =
      if (fresh? ⟨f :: stack, forms, e⟩).isSome then .error ⟨.emptyForm, f.start.merge t.span⟩
      else .ok ⟨stack, f.close forms t :: f.before, t.span.stop⟩ := rfl

/-- One token is taken. -/
inductive Takes : Builder → Token → Builder → Prop
  | close {f : OpenForm} {stack : List OpenForm} {forms : List Node} {e : Nat} {t : Token} :
      t.isClose → (f.kind = .call → forms ≠ []) →
      Takes ⟨f :: stack, forms, e⟩ t ⟨stack, f.close forms t :: f.before, t.span.stop⟩
  | opening {stack : List OpenForm} {forms : List Node} {e : Nat} {t : Token} :
      t.isOpen → Takes ⟨stack, forms, e⟩ t ⟨.ofOpen t forms :: stack, [], t.span.stop⟩
  | keyword {f : OpenForm} {stack : List OpenForm} {e : Nat} {t : Token} :
      t.isIdentifier "define" → f.kind = .call →
      Takes ⟨f :: stack, [], e⟩ t ⟨f.toDefine t :: stack, [], t.span.stop⟩
  | leaf {stack : List OpenForm} {forms : List Node} {e : Nat} {t : Token} :
      t.IsAtom → (t.isIdentifier "define" → fresh? ⟨stack, forms, e⟩ = none) →
      Takes ⟨stack, forms, e⟩ t ⟨stack, Node.leaf t :: forms, t.span.stop⟩

theorem takes_of_close {b b' : Builder} {t : Token} (hclose : t.isClose)
    (h : b.close t = .ok b') : Takes b t b' := by
  obtain ⟨stack, forms, e⟩ := b
  cases stack with
  | nil => cases h
  | cons f stack =>
    rw [close_cons] at h
    split at h
    · cases h
    · next hfresh =>
      cases h
      refine .close hclose ?_
      rintro hkind rfl
      rw [fresh?_of_call hkind] at hfresh
      exact hfresh rfl

theorem takes_leaf (b : Builder) {t : Token} (hatom : t.IsAtom) : Takes b t (b.leaf t) := by
  cases hfresh : b.fresh? with
  | none =>
    rw [leaf_eq_of_not_fresh hfresh]
    exact .leaf hatom fun _ => hfresh
  | some f =>
    obtain ⟨stack, hb, hkind⟩ := fresh?_eq_some hfresh
    rw [hb, leaf_eq_of_fresh hkind]
    split
    · next hkeyword => exact .keyword hkeyword hkind
    · next hkeyword => exact .leaf hatom fun hdefine => absurd hdefine hkeyword

theorem takes_of_step {b b' : Builder} {t : Token} (h : b.step t = .ok b') : Takes b t b' := by
  unfold step at h
  split at h
  · next hclose => exact takes_of_close hclose h
  split at h
  · cases h
  split at h
  · next hopen =>
    cases h
    exact .opening hopen
  · next hclose hquote hopen =>
    cases h
    exact takes_leaf b ⟨by simpa using hopen, by simpa using hclose, hquote⟩

theorem step_of_takes {b b' : Builder} {t : Token} (h : Takes b t b') : b.step t = .ok b' := by
  unfold step
  cases h with
  | @close f stack forms e t hclose hforms =>
    have hfresh : (fresh? ⟨f :: stack, forms, e⟩).isSome = false := by
      cases forms with
      | nil => simp [fresh?, show f.kind ≠ .call from fun hkind => hforms hkind rfl]
      | cons n ns => rfl
    rw [if_pos hclose, close_cons, hfresh, if_neg (by simp)]
  | @opening stack forms e t hopen =>
    obtain ⟨hkind, htext⟩ := Token.isOpen_iff.1 hopen
    have hclose : t.isClose = false := by simp [Token.isClose, htext]
    simp [hclose, hkind, hopen]
  | @keyword f stack e t hkeyword hkind =>
    have hatom := Token.isAtom_of_isIdentifier hkeyword
    simp [hatom.not_isClose, hatom.not_quote, hatom.not_isOpen, leaf_eq_of_fresh hkind, hkeyword]
  | @leaf stack forms e t hatom hfresh =>
    simp only [hatom.not_isClose, hatom.not_quote, hatom.not_isOpen, Bool.false_eq_true, if_false]
    cases hf : fresh? ⟨stack, forms, e⟩ with
    | none => rw [leaf_eq_of_not_fresh hf]
    | some f =>
      obtain ⟨stack', hb, hkind⟩ := fresh?_eq_some hf
      cases hb
      have hkeyword : ¬t.isIdentifier "define" := by
        intro hdefine
        rw [hfresh hdefine] at hf
        cases hf
      rw [leaf_eq_of_fresh hkind, if_neg hkeyword]

end Builder

end SmallScheme
