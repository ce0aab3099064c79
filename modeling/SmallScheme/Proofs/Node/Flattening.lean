import SmallScheme.Proofs.Node.Building
import SmallScheme.Proofs.Node.Form

/-!
The parser and the flattening of trees are inverse to each other.

* `Builder.Levels stack forms` — what is open and what is read are forms so far; `Builder.spread`
  lists tokens of them in order;
* `Builder.Takes.levels`, `Builder.Takes.taken`, `Builder.Takes.settle`: what one step does to
  them, and `Builder.sound_takeAll` for all steps;
* `Builder.rebuilds_of_form`: the tokens of a form are taken as the form.
-/

namespace SmallScheme

/-! ## what is open and what is read -/

namespace OpenForm

/-- The form has started as a call or as a definition does. -/
def Opens (f : OpenForm) : Prop :=
  (f.kind = .call ∧ f.token.isOpen) ∨ (f.kind = .define ∧ f.token.isIdentifier "define")

/-- The tokens that the form has started with. -/
def heading (f : OpenForm) : List Token :=
  if f.kind = .define then [Token.opening, f.token] else [f.token]

theorem flatten_close {f : OpenForm} (h : f.Opens) (children : List Node) (t : Token) :
    (f.close children t).flatten =
      f.heading ++ children.reverse.flatMap Node.flatten ++ [Token.closing] := by
  rcases h with ⟨hkind, -⟩ | ⟨hkind, -⟩
  · rw [close, heading, hkind, Node.flatten_call]
    rfl
  · rw [close, heading, hkind, Node.flatten_define]
    rfl

theorem stored_close (f : OpenForm) (children : List Node) (t : Token) :
    (f.close children t).stored = f.token :: children.reverse.flatMap Node.stored := by
  rw [close, Node.stored_mk]
  rfl

theorem identifier_close {f : OpenForm} (h : f.Opens) (children : List Node) (t : Token) :
    (f.close children t).identifier = none := by
  rcases h with ⟨hkind, -⟩ | ⟨hkind, -⟩ <;> simp [close, Node.identifier, hkind]

end OpenForm

namespace Builder

/-- The open forms and the forms read so far at the innermost level are the start of a program. -/
inductive Levels : List OpenForm → List Node → Prop
  | outermost {forms : List Node} : (∀ n ∈ forms, Form n) → Levels [] forms
  | inner {f : OpenForm} {stack : List OpenForm} {forms : List Node} : f.Opens →
      (∀ n ∈ forms, Form n) →
      (f.kind = .call → ∀ n, forms.getLast? = some n → n.identifier ≠ some "define") →
      Levels stack f.before → Levels (f :: stack) forms

theorem Levels.forms {stack : List OpenForm} {forms : List Node} (h : Levels stack forms) :
    ∀ n ∈ forms, Form n := by
  cases h with
  | outermost hforms => exact hforms
  | inner _ hforms => exact hforms

theorem Levels.isOpen_of_fresh {b : Builder} {f : OpenForm} (h : Levels b.stack b.forms)
    (hfresh : b.fresh? = some f) : f.token.isOpen := by
  obtain ⟨stack, hb, hkind⟩ := fresh?_eq_some hfresh
  rw [hb] at h
  cases h with
  | inner hopens =>
    rcases hopens with ⟨-, hopen⟩ | ⟨hdefine, -⟩
    · exact hopen
    · rw [hkind] at hdefine
      cases hdefine

theorem Levels.push {stack : List OpenForm} {forms : List Node} {n : Node} {e : Nat}
    (h : Levels stack forms) (hn : Form n)
    (hfresh : n.identifier = some "define" → fresh? ⟨stack, forms, e⟩ = none) :
    Levels stack (n :: forms) := by
  have hforms : ∀ m ∈ n :: forms, Form m := by
    intro m hm
    rcases List.mem_cons.1 hm with rfl | hm
    · exact hn
    · exact h.forms m hm
  cases h with
  | outermost => exact .outermost hforms
  | @inner f stack forms hopens _ hfirst hstack =>
    refine .inner hopens hforms (fun hkind m hm => ?_) hstack
    cases forms with
    | nil =>
      cases hm
      intro hdefine
      have hnone := hfresh hdefine
      rw [fresh?_of_call hkind] at hnone
      cases hnone
    | cons k ks =>
      rw [List.getLast?_cons_cons] at hm
      exact hfirst hkind m hm

theorem form_close {f : OpenForm} {forms : List Node} (hopens : f.Opens)
    (hforms : ∀ n ∈ forms, Form n) (hne : f.kind = .call → forms ≠ [])
    (hfirst : f.kind = .call → ∀ n, forms.getLast? = some n → n.identifier ≠ some "define")
    (t : Token) : Form (f.close forms t) := by
  have hchildren : ∀ n ∈ forms.reverse, Form n := fun n hn => hforms n (List.mem_reverse.1 hn)
  unfold OpenForm.close
  rcases hopens with ⟨hkind, hopen⟩ | ⟨hkind, hkeyword⟩
  · rw [hkind]
    refine .call hopen (by simpa using hne hkind) (fun n hn => ?_) hchildren
    rw [List.head?_reverse] at hn
    exact hfirst hkind n hn
  · rw [hkind]
    exact .define hkeyword hchildren

theorem Takes.levels {b b' : Builder} {t : Token} (h : Takes b t b')
    (hb : Levels b.stack b.forms) : Levels b'.stack b'.forms := by
  cases h with
  | @close f stack forms e t hclose hne =>
    cases hb with
    | inner hopens hforms hfirst hstack =>
      refine hstack.push (e := e) (form_close hopens hforms hne hfirst t) fun hdefine => ?_
      rw [OpenForm.identifier_close hopens] at hdefine
      cases hdefine
  | opening hopen => exact .inner (Or.inl ⟨rfl, hopen⟩) (by simp) (by simp) hb
  | keyword hkeyword hkind =>
    cases hb with
    | inner _ _ _ hstack => exact .inner (Or.inr ⟨rfl, hkeyword⟩) (by simp) (by simp) hstack
  | leaf hatom hfresh =>
    exact hb.push (.leaf hatom) fun hdefine => hfresh (Node.identifier_leaf.1 hdefine)

/-! ## the tokens of what is open and what is read -/

/-- The tokens of the open forms and of the forms read so far, in order, where `head` gives those of
an open form and `body` those of a form that is read. -/
def spread (head : OpenForm → List Token) (body : Node → List Token) :
    List OpenForm → List Node → List Token
  | [], forms => forms.reverse.flatMap body
  | f :: stack, forms =>
    spread head body stack f.before ++ head f ++ forms.reverse.flatMap body

section Spread

variable (head : OpenForm → List Token) (body : Node → List Token)

theorem spread_push (stack : List OpenForm) (n : Node) (forms : List Node) :
    spread head body stack (n :: forms) = spread head body stack forms ++ body n := by
  cases stack <;> simp [spread]

theorem spread_open (f : OpenForm) (stack : List OpenForm) :
    spread head body (f :: stack) [] = spread head body stack f.before ++ head f := by
  simp [spread]

end Spread

/-- The tokens that were taken, up to places. -/
def taken (b : Builder) : List Token := spread OpenForm.heading Node.flatten b.stack b.forms

theorem Takes.taken {b b' : Builder} {t : Token} (h : Takes b t b')
    (hb : Levels b.stack b.forms) :
    b'.taken.map Token.erase = b.taken.map Token.erase ++ [t.erase] := by
  unfold Builder.taken
  cases h with
  | close hclose hne =>
    cases hb with
    | inner hopens =>
      rw [spread_push, OpenForm.flatten_close hopens, Token.erase_of_isClose hclose]
      simp only [spread, List.map_append, List.append_assoc]
      rfl
  | opening hopen =>
    rw [spread_open, List.map_append]
    rfl
  | @keyword f stack e t hkeyword hkind =>
    have hopen := hb.isOpen_of_fresh (fresh?_of_call hkind stack e)
    have hheading : f.heading = [f.token] := if_neg (by simp [hkind])
    rw [spread_open, spread_open, hheading, List.map_append, List.map_append, List.append_assoc,
      List.map_singleton, Token.erase_of_isOpen hopen]
    rfl
  | leaf hatom hfresh =>
    rw [spread_push, Node.flatten_leaf, List.map_append]
    rfl

/-- The tokens that the nodes keep, those of the open forms included. -/
def storedSoFar (b : Builder) : List Token :=
  spread (fun f => [f.token]) Node.stored b.stack b.forms

/-- The tokens that the nodes will keep whatever comes. -/
def settled (b : Builder) : List Token :=
  match b.fresh? with
  | some f => spread (fun f => [f.token]) Node.stored b.stack.tail f.before
  | none => b.storedSoFar

/-- The opening parenthesis that a keyword right after it would make go. -/
def unsettled (b : Builder) : List Token := (b.fresh?.map fun f => f.token).toList

theorem settled_of_fresh {f : OpenForm} (h : f.kind = .call) (stack : List OpenForm) (e : Nat) :
    settled ⟨f :: stack, [], e⟩ = spread (fun f => [f.token]) Node.stored stack f.before := by
  rw [settled, fresh?_of_call h]
  rfl

theorem unsettled_of_fresh {f : OpenForm} (h : f.kind = .call) (stack : List OpenForm) (e : Nat) :
    unsettled ⟨f :: stack, [], e⟩ = [f.token] := by
  rw [unsettled, fresh?_of_call h]
  rfl

theorem settled_of_not_fresh {b : Builder} (h : b.fresh? = none) : b.settled = b.storedSoFar := by
  rw [settled, h]

theorem unsettled_of_not_fresh {b : Builder} (h : b.fresh? = none) : b.unsettled = [] := by
  rw [unsettled, h]
  rfl

/-- The parenthesis stays before any token but the keyword. -/
theorem settled_append_kept {b : Builder} {t : Token} (hb : Levels b.stack b.forms)
    (ht : t.isIdentifier "define" → b.fresh? = none) (ts : List Token) :
    b.settled ++ kept (b.unsettled ++ t :: ts) = b.storedSoFar ++ kept (t :: ts) := by
  cases hfresh : b.fresh? with
  | none =>
    rw [settled_of_not_fresh hfresh, unsettled_of_not_fresh hfresh]
    rfl
  | some f =>
    have hopen := hb.isOpen_of_fresh hfresh
    have hkeyword : ¬t.isIdentifier "define" := by
      intro hdefine
      rw [ht hdefine] at hfresh
      cases hfresh
    obtain ⟨stack, hstack, hkind⟩ := fresh?_eq_some hfresh
    rw [hstack, settled_of_fresh hkind, unsettled_of_fresh hkind, storedSoFar, spread_open,
      List.append_assoc, List.singleton_append, List.singleton_append, kept_of_isOpen hopen hkeyword]

theorem Takes.settle {b b' : Builder} {t : Token} (h : Takes b t b')
    (hb : Levels b.stack b.forms) (ts : List Token) :
    b.settled ++ kept (b.unsettled ++ t :: ts) = b'.settled ++ kept (b'.unsettled ++ ts) := by
  cases h with
  | @close f stack forms e t hclose hne =>
    have hkeyword : ¬t.isIdentifier "define" := fun hdefine => by
      simp [(Token.isAtom_of_isIdentifier hdefine).not_isClose] at hclose
    have hfresh := fresh?_cons stack (f.close forms t) f.before t.span.stop
    rw [settled_append_kept hb fun hdefine => absurd hdefine hkeyword, kept_of_isClose hclose,
      settled_of_not_fresh hfresh, unsettled_of_not_fresh hfresh, storedSoFar, storedSoFar,
      spread_push, OpenForm.stored_close]
    simp [spread]
  | @opening stack forms e t hopen =>
    have hkeyword : ¬t.isIdentifier "define" := fun hdefine => by
      simp [(Token.isAtom_of_isIdentifier hdefine).not_isOpen] at hopen
    have hkind : (OpenForm.ofOpen t forms).kind = .call := rfl
    rw [settled_append_kept hb fun hdefine => absurd hdefine hkeyword, settled_of_fresh hkind,
      unsettled_of_fresh hkind]
    rfl
  | @keyword f stack e t hkeyword hkind =>
    have hopen := hb.isOpen_of_fresh (fresh?_of_call hkind stack e)
    -- the definition keeps its keyword where the call kept its parenthesis
    have hfresh : fresh? ⟨f.toDefine t :: stack, [], t.span.stop⟩ = none :=
      fresh?_of_define rfl stack t.span.stop
    rw [settled_of_fresh hkind, unsettled_of_fresh hkind, settled_of_not_fresh hfresh,
      unsettled_of_not_fresh hfresh, storedSoFar, spread_open, List.singleton_append,
      kept_of_keyword hopen hkeyword, kept_of_isAtom (Token.isAtom_of_isIdentifier hkeyword),
      List.append_assoc]
    rfl
  | @leaf stack forms e t hatom hkeyword =>
    have hfresh := fresh?_cons stack (Node.leaf t) forms t.span.stop
    rw [settled_append_kept hb hkeyword, kept_of_isAtom hatom, settled_of_not_fresh hfresh,
      unsettled_of_not_fresh hfresh, storedSoFar, storedSoFar, spread_push, Node.stored_leaf,
      List.append_assoc]
    rfl

/-! ## all steps -/

theorem sound_takeAll (ts : List Token) : ∀ {b b' : Builder}, b.takeAll ts = .ok b' →
    Levels b.stack b.forms → Levels b'.stack b'.forms ∧
      b'.taken.map Token.erase = b.taken.map Token.erase ++ ts.map Token.erase ∧
      b.settled ++ kept (b.unsettled ++ ts) = b'.settled ++ kept b'.unsettled := by
  induction ts with
  | nil =>
    rintro b b' ⟨⟩ hb
    exact ⟨hb, by simp, by simp⟩
  | cons t ts ih =>
    intro b b' h hb
    obtain ⟨c, hstep, hrest⟩ := takeAll_cons_eq_ok h
    have htakes := takes_of_step hstep
    obtain ⟨hlevels, htaken, hsettled⟩ := ih hrest (htakes.levels hb)
    refine ⟨hlevels, ?_, (htakes.settle hb ts).trans hsettled⟩
    rw [htaken, htakes.taken hb, List.append_assoc]
    rfl

end Builder

theorem isProgram_of_parse {ts : List Token} {root : Node} (h : parse ts = .ok root) :
    root.IsProgram ∧ root.flatten.map Token.erase = ts.map Token.erase ∧ root.stored = kept ts := by
  obtain ⟨b, htake, hstack, rfl⟩ := parse_eq_ok_iff.1 h
  obtain ⟨hlevels, htaken, hsettled⟩ := Builder.sound_takeAll ts htake (.outermost nofun)
  obtain ⟨stack, forms, e⟩ := b
  cases hstack
  refine ⟨⟨rfl, rfl, fun n hn => hlevels.forms n (List.mem_reverse.1 hn)⟩, ?_, ?_⟩
  · rw [Node.flatten_root rfl]
    exact htaken
  · rw [Node.program, Node.stored_mk]
    calc forms.reverse.flatMap Node.stored
        = Builder.settled ⟨[], forms, e⟩ ++ kept (Builder.unsettled ⟨[], forms, e⟩) :=
          (List.append_nil _).symm
      _ = kept ts := hsettled.symm

/-! ## the tokens of a form are taken as the form -/

namespace Builder

/-- Wherever the tokens of the form are taken, they are taken as the form, up to its place. -/
def Rebuilds (n : Node) : Prop :=
  ∀ b : Builder, (n.identifier = some "define" → b.fresh? = none) →
    ∃ n' e, b.takeAll n.flatten = .ok ⟨b.stack, n' :: b.forms, e⟩ ∧ n'.unplaced = n.unplaced

theorem takeAll_flatMap {ns : List Node} (h : ∀ n ∈ ns, Rebuilds n) : ∀ b : Builder,
    (∀ n, ns.head? = some n → n.identifier = some "define" → b.fresh? = none) →
    ∃ (ns' : List Node) (e : Nat), b.takeAll (ns.flatMap Node.flatten) = .ok ⟨b.stack, ns'.reverse ++ b.forms, e⟩ ∧
      ns'.map Node.unplaced = ns.map Node.unplaced := by
  induction ns with
  | nil => exact fun b _ => ⟨[], b.lastEnd, rfl, rfl⟩
  | cons n ns ih =>
    intro b hfirst
    obtain ⟨n', e, hn, hunplaced⟩ := h n (by simp) b (hfirst n rfl)
    -- behind a form nothing is fresh, so the other forms may be the keyword
    obtain ⟨ns', e', hns, hunplaced'⟩ :=
      ih (fun m hm => h m (by simp [hm])) ⟨b.stack, n' :: b.forms, e⟩
        fun _ _ _ => fresh?_cons b.stack n' b.forms e
    refine ⟨n' :: ns', e', ?_, by rw [List.map_cons, hunplaced, hunplaced', List.map_cons]⟩
    rw [List.flatMap_cons, takeAll_append, hn]
    simpa [Except.bind] using hns

theorem takeAll_body {f : OpenForm} {ns : List Node} (h : ∀ n ∈ ns, Rebuilds n)
    (hne : f.kind = .call → ns ≠ [])
    (hfirst : f.kind = .call → ∀ n, ns.head? = some n → n.identifier ≠ some "define")
    (stack : List OpenForm) (e : Nat) :
    ∃ n' e', takeAll ⟨f :: stack, [], e⟩ (ns.flatMap Node.flatten ++ [Token.closing]) =
        .ok ⟨stack, n' :: f.before, e'⟩ ∧
      n'.unplaced = ⟨f.kind, some f.token, ns.map Node.unplaced, ⟨0, 0⟩⟩ := by
  obtain ⟨ns', e', hns, hunplaced⟩ := takeAll_flatMap h ⟨f :: stack, [], e⟩ fun n hn hdefine =>
    if_neg fun hkind => hfirst hkind n hn hdefine
  have hclose : Takes ⟨f :: stack, ns'.reverse, e'⟩ Token.closing
      ⟨stack, f.close ns'.reverse Token.closing :: f.before, Token.closing.span.stop⟩ := by
    refine .close rfl fun hkind hnil => hne hkind ?_
    rw [List.reverse_eq_nil_iff.1 hnil] at hunplaced
    exact List.map_eq_nil_iff.1 hunplaced.symm
  refine ⟨f.close ns'.reverse Token.closing, Token.closing.span.stop, ?_, ?_⟩
  · rw [takeAll_append, hns, List.append_nil]
    rw [Except.bind, takeAll_cons, step_of_takes hclose]
    rfl
  · rw [OpenForm.close, Node.unplaced_mk, List.reverse_reverse, hunplaced]

theorem rebuilds_of_form {n : Node} (h : Form n) : Rebuilds n := by
  induction h with
  | @leaf t hatom =>
    intro b hfresh
    have htakes : Takes b t ⟨b.stack, Node.leaf t :: b.forms, t.span.stop⟩ :=
      .leaf hatom fun hdefine => hfresh (Node.identifier_leaf.2 hdefine)
    refine ⟨Node.leaf t, t.span.stop, ?_, rfl⟩
    rw [Node.flatten_leaf, takeAll_cons, step_of_takes htakes]
    rfl
  | @call t children span hopen hne hfirst _ ih =>
    intro b _
    obtain ⟨n', e, hbody, hunplaced⟩ := @takeAll_body (.ofOpen t b.forms) children ih
      (fun _ => hne) (fun _ => hfirst) b.stack t.span.stop
    refine ⟨n', e, ?_, by rw [hunplaced, Node.unplaced_mk]; rfl⟩
    rw [Node.flatten_call, takeAll_cons, step_of_takes (.opening hopen)]
    exact hbody
  | @define t children span hkeyword _ ih =>
    intro b _
    let f := OpenForm.ofOpen Token.opening b.forms
    obtain ⟨n', e, hbody, hunplaced⟩ := @takeAll_body (f.toDefine t) children ih
      (by simp [OpenForm.toDefine]) (by simp [OpenForm.toDefine]) b.stack t.span.stop
    refine ⟨n', e, ?_, by rw [hunplaced, Node.unplaced_mk]; rfl⟩
    have hopen : Takes b Token.opening ⟨f :: b.stack, [], Token.opening.span.stop⟩ := .opening rfl
    rw [Node.flatten_define, takeAll_cons, step_of_takes hopen, Except.bind, takeAll_cons,
      step_of_takes (.keyword hkeyword rfl)]
    exact hbody

end Builder

theorem parse_flatten {tree : Node} (h : tree.IsProgram) :
    ∃ root, parse tree.flatten = .ok root ∧ root.unplaced = tree.unplaced := by
  obtain ⟨kind, token, children, span⟩ := tree
  obtain ⟨rfl, rfl, hforms⟩ := h
  obtain ⟨ns, e, htake, hunplaced⟩ := Builder.takeAll_flatMap
    (fun n hn => Builder.rebuilds_of_form (hforms n hn)) Builder.empty fun _ _ _ => rfl
  refine ⟨Node.program ns, parse_eq_ok_iff.2 ⟨⟨[], ns.reverse ++ [], e⟩, ?_, rfl, ?_⟩, ?_⟩
  · rw [Node.flatten_root rfl]
    exact htake
  · rw [List.append_nil, List.reverse_reverse]
  · rw [Node.program, Node.unplaced_mk, Node.unplaced_mk, hunplaced]

/-- The parser and the flattening are inverse to each other. What is read is a program with the
tokens it is read from, and it keeps all of them but the closing parentheses and the opening ones of
definitions. The tokens of a program are read as the program, up to the places of its nodes. -/
theorem parse_inverts_flatten :
    (∀ ts root, parse ts = .ok root →
      root.IsProgram ∧
      root.flatten.map (fun t => (t.kind, t.text)) = ts.map (fun t => (t.kind, t.text)) ∧
      root.stored = kept ts) ∧
    ∀ tree : Node, tree.IsProgram →
      ∃ root, parse tree.flatten = .ok root ∧ root.unplaced = tree.unplaced := by
  refine ⟨fun ts root h => ?_, fun tree h => parse_flatten h⟩
  obtain ⟨hprogram, hflatten, hstored⟩ := isProgram_of_parse h
  have hpairs := congrArg (List.map fun t : Token => (t.kind, t.text)) hflatten
  rw [List.map_map, List.map_map] at hpairs
  exact ⟨hprogram, hpairs, hstored⟩

/-- `(define x (f define))`: the keyword is a form by itself where it is not the first. -/
theorem parse_inverts_flatten_definition :
    let name (s : String) : Token := ⟨s, .identifier, ⟨0, 0⟩, ⟨0, 0⟩⟩
    let call : Node := ⟨.call, some .opening, [.leaf (name "f"), .leaf (name "define")], ⟨0, 0⟩⟩
    let tree : Node := .program [⟨.define, some (name "define"), [.leaf (name "x"), call], ⟨0, 0⟩⟩]
    tree.IsProgram ∧ (∃ root, parse tree.flatten = .ok root ∧ root.unplaced = tree.unplaced) ∧
      parse tree.flatten = .ok tree ∧ tree.stored = kept tree.flatten := by
  intro name call tree
  have hname (s : String) : Form (.leaf (name s)) := .leaf ⟨rfl, rfl, nofun⟩
  have hcall : Form call := by
    refine .call rfl nofun ?_ ?_
    · rintro n ⟨⟩
      decide
    · rintro n (_ | ⟨_, _ | ⟨_, ⟨⟩⟩⟩)
      · exact hname "f"
      · exact hname "define"
  have hprogram : tree.IsProgram := by
    refine ⟨rfl, rfl, ?_⟩
    rintro n (_ | ⟨_, ⟨⟩⟩)
    refine .define rfl ?_
    rintro n (_ | ⟨_, _ | ⟨_, ⟨⟩⟩⟩)
    · exact hname "x"
    · exact hcall
  have hparse : parse tree.flatten = .ok tree := parse_eq_of_run rfl
  exact ⟨hprogram, parse_inverts_flatten.2 tree hprogram, hparse,
    (parse_inverts_flatten.1 tree.flatten tree hparse).2.2⟩

end SmallScheme
