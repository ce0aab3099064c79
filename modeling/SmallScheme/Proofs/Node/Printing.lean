import SmallScheme.Proofs.Node.Flattening
import SmallScheme.Proofs.Place.Layout
import SmallScheme.Proofs.Token.Lossless
import SmallScheme.Proofs.Token.Pieces

/-!
Trees are read back from their texts.

* `Printed gap text ts` — after the blanks `gap`, the text `text` is that of the tokens `ts`, kept
  apart; `Printed.append` puts two such texts together;
* `Node.prints_of_form`, `Node.IsProgram.printed`: the text of a tree is that of its tokens, as a
  space, a line break or a parenthesis is enough between any two of them;
* `Node.IsProgram.lex_print`: so these tokens are lexed from it.
-/

namespace SmallScheme

/-! ## texts of tokens -/

/-- The text after the blanks `gap` is made of pieces for the tokens, where each stands apart from
the next. -/
def Printed (gap text : List Char) (ts : List Token) : Prop :=
  ∃ ps : List Piece, sourceOf ps = gap ++ text ∧ (ps.map fun p => p.bare) = ts ∧
    ps.IsChain Apart ∧ ∀ p, ps.head? = some p → p.gap = gap

namespace Printed

variable {gap gap' text text' : List Char} {ts us : List Token}

theorem nil : Printed [] [] [] := ⟨[], rfl, rfl, .nil, nofun⟩

theorem token {t : Token} (h : t.kind.Shape t.text.toList) (hgap : Filler false gap) :
    Printed gap t.literal.toList [t.erase] := by
  refine ⟨[⟨⟨t.kind, t.text, h⟩, gap, hgap⟩], ?_, rfl, .singleton _, ?_⟩
  · rw [Token.toList_literal, sourceOf_cons]
    exact List.append_nil _
  · rintro p ⟨⟩
    rfl

theorem append (h : Printed gap text ts) (h' : Printed gap' text' us) (hne : ts ≠ [])
    (hapart : gap' ≠ [] ∨ (∀ t, ts.getLast? = some t → t.isOpen) ∨
      ∀ u, us.head? = some u → u.isClose) :
    Printed gap (text ++ gap' ++ text') (ts ++ us) := by
  obtain ⟨ps, hsource, rfl, hchain, hgap⟩ := h
  obtain ⟨qs, hsource', rfl, hchain', hgap'⟩ := h'
  refine ⟨ps ++ qs, ?_, List.map_append, ?_, ?_⟩
  · rw [sourceOf_append, hsource, hsource']
    simp only [List.append_assoc]
  · -- only the last piece of the one text and the first of the other are new neighbours
    refine List.isChain_append.2 ⟨hchain, hchain', fun p hp q hq => ?_⟩
    rcases hapart with hsep | hopen | hclose
    · exact Or.inl (hgap' q hq ▸ hsep)
    · refine Or.inr (Or.inl (hopen p.bare ?_))
      rw [List.getLast?_map, hp]
      rfl
    · refine Or.inr (Or.inr (hclose q.bare ?_))
      rw [List.head?_map, hq]
      rfl
  · intro p hp
    cases ps with
    | nil => exact absurd rfl hne
    | cons r rs => exact hgap p hp

theorem opening (hgap : Filler false gap) : Printed gap ['('] [Token.opening] :=
  @token gap Token.opening (Or.inl rfl) hgap

theorem closing (h : Printed gap text ts) (hne : ts ≠ []) :
    Printed gap (text ++ [')']) (ts ++ [Token.closing]) := by
  have hclosing : Printed [] [')'] [Token.closing] := @token [] Token.closing (Or.inr rfl) .nil
  have happend := h.append hclosing hne (Or.inr (Or.inr (by rintro u ⟨⟩; rfl)))
  rwa [List.append_nil] at happend

end Printed

/-! ## texts of trees -/

theorem Token.literal_of_isIdentifier {t : Token} {name : String} (h : t.isIdentifier name) :
    t.literal = name := by
  obtain ⟨hkind, htext⟩ := isIdentifier_iff.1 h
  rw [literal, hkind, htext]
  rfl

theorem Form.flatten_ne_nil {n : Node} (h : Form n) : n.flatten ≠ [] := by
  cases h with
  | leaf => simp [Node.flatten_leaf]
  | call => simp [Node.flatten_call]
  | define => simp [Node.flatten_define]

theorem Form.not_quote {n : Node} (h : Form n) : ∀ t ∈ n.flatten, t.kind ≠ .quote := by
  have hclosing : Token.closing.kind ≠ .quote := nofun
  induction h with
  | leaf hatom =>
    intro u hu
    rw [Node.flatten_leaf, List.mem_singleton] at hu
    exact hu ▸ hatom.not_quote
  | call hopen _ _ _ ih =>
    intro u hu
    rw [Node.flatten_call, List.mem_cons, List.mem_append, List.mem_flatMap,
      List.mem_singleton] at hu
    rcases hu with rfl | ⟨n, hn, hu⟩ | rfl
    · simp [(Token.isOpen_iff.1 hopen).1]
    · exact ih n hn u hu
    · exact hclosing
  | define hkeyword _ ih =>
    intro u hu
    rw [Node.flatten_define, List.mem_cons, List.mem_cons, List.mem_append, List.mem_flatMap,
      List.mem_singleton] at hu
    rcases hu with rfl | rfl | ⟨n, hn, hu⟩ | rfl
    · exact nofun
    · exact (Token.isAtom_of_isIdentifier hkeyword).not_quote
    · exact ih n hn u hu
    · exact hclosing

namespace Node

/-- The text of the tree is that of its tokens, if they are lexemes, whatever blanks it stands
after. -/
def Prints (n : Node) : Prop :=
  (∀ t ∈ n.flatten, t.kind.Shape t.text.toList) → ∀ {gap : List Char}, Filler false gap →
    Printed gap n.print.toList (n.flatten.map Token.erase)

theorem printed_intercalate {sep : String} (hsep : Filler false sep.toList) (hne : sep.toList ≠ [])
    {ns : List Node} (hforms : ∀ n ∈ ns, Form n) (hprints : ∀ n ∈ ns, n.Prints) (hns : ns ≠ [])
    (hshape : ∀ t ∈ ns.flatMap flatten, t.kind.Shape t.text.toList) :
    ∀ {gap : List Char}, Filler false gap →
      Printed gap (sep.intercalate (ns.map print)).toList
        ((ns.flatMap flatten).map Token.erase) := by
  induction ns with
  | nil => exact absurd rfl hns
  | cons n ns ih =>
    intro gap hgap
    rw [List.flatMap_cons] at hshape
    have hn := hprints n (by simp) (fun t ht => hshape t (List.mem_append_left _ ht)) hgap
    cases ns with
    | nil => simpa using hn
    | cons m ms =>
      have hms := ih (fun k hk => hforms k (by simp [hk])) (fun k hk => hprints k (by simp [hk]))
        (by simp) (fun t ht => hshape t (List.mem_append_right _ ht)) hsep
      have hflatten : n.flatten.map Token.erase ≠ [] := by
        simpa using (hforms n (by simp)).flatten_ne_nil
      rw [List.map_cons, List.map_cons, String.intercalate_cons_cons, String.toList_append,
        String.toList_append, List.flatMap_cons, List.map_append]
      exact hn.append hms hflatten (Or.inl hne)

theorem print_leaf (t : Token) : (leaf t).print = t.literal := by
  unfold leaf ofToken
  split <;> rfl

theorem print_call (token : Option Token) (children : List Node) (span : Span) :
    (print ⟨.call, token, children, span⟩).toList =
      ['('] ++ (" ".intercalate (children.map print)).toList ++ [')'] := by
  rw [print, printAll_eq_map, String.toList_append, String.toList_append]
  rfl

theorem print_define_nil (token : Option Token) (span : Span) :
    (print ⟨.define, token, [], span⟩).toList = ['('] ++ "define".toList ++ [')'] := by
  rw [print, List.isEmpty_nil, if_pos rfl]
  rfl

theorem print_define (token : Option Token) {children : List Node} (hne : children ≠ [])
    (span : Span) : (print ⟨.define, token, children, span⟩).toList =
      ['('] ++ "define".toList ++ [' '] ++ (" ".intercalate (children.map print)).toList ++
        [')'] := by
  have hcons : children.isEmpty = false := by simpa using hne
  rw [print, hcons, printAll_eq_map, if_neg (by simp), String.toList_append, String.toList_append]
  rfl

theorem prints_of_form {n : Node} (h : Form n) : n.Prints := by
  have hblank : Filler false " ".toList := .blank rfl .nil
  induction h with
  | @leaf t hatom =>
    intro hshape gap hgap
    rw [print_leaf, flatten_leaf]
    exact Printed.token (hshape t (by simp [flatten_leaf])) hgap
  | @call t children span hopen hne _ hforms ih =>
    intro hshape gap hgap
    rw [flatten_call] at hshape ⊢
    have hchildren : ∀ u ∈ children.flatMap flatten, u.kind.Shape u.text.toList :=
      fun u hu => hshape u (List.mem_cons_of_mem _ (List.mem_append_left _ hu))
    have hbody := printed_intercalate hblank (by simp) hforms ih hne hchildren .nil
    have hstart := (Printed.opening hgap).append hbody (by simp)
      (Or.inr (Or.inl (by rintro u ⟨⟩; rfl)))
    rw [List.append_nil] at hstart
    rw [print_call, List.map_cons, List.map_append, Token.erase_of_isOpen hopen]
    exact hstart.closing (by simp)
  | @define t children span hkeyword hforms ih =>
    intro hshape gap hgap
    rw [flatten_define] at hshape ⊢
    have hchildren : ∀ u ∈ children.flatMap flatten, u.kind.Shape u.text.toList := fun u hu =>
      hshape u (List.mem_cons_of_mem _ (List.mem_cons_of_mem _ (List.mem_append_left _ hu)))
    have hstart := (Printed.opening hgap).append (Printed.token (hshape t (by simp)) .nil) (by simp)
      (Or.inr (Or.inl (by rintro u ⟨⟩; rfl)))
    rw [List.append_nil, Token.literal_of_isIdentifier hkeyword] at hstart
    rw [List.map_cons, List.map_cons, List.map_append]
    by_cases hne : children = []
    · subst hne
      rw [print_define_nil]
      exact hstart.closing (by simp)
    · have hbody := printed_intercalate hblank (by simp) hforms ih hne hchildren hblank
      rw [print_define (some t) hne]
      exact (hstart.append hbody (by simp) (Or.inl (by simp))).closing (by simp)

theorem IsProgram.printed {root : Node} (h : root.IsProgram)
    (hshape : ∀ t ∈ root.flatten, t.kind.Shape t.text.toList) :
    Printed [] root.print.toList (root.flatten.map Token.erase) := by
  obtain ⟨kind, token, children, span⟩ := root
  obtain ⟨rfl, rfl, hforms⟩ := h
  rw [flatten_root rfl] at hshape ⊢
  rw [print, printAll_eq_map]
  by_cases hne : children = []
  · subst hne
    exact .nil
  · have hbreak : Filler false "\n".toList := .blank rfl .nil
    exact printed_intercalate hbreak (by simp) hforms (fun n hn => prints_of_form (hforms n hn)) hne
      hshape .nil

end Node

/-! ## reading back -/

/-- The tokens of a program are lexed from its text. -/
theorem Node.IsProgram.lex_print {root : Node} (h : root.IsProgram)
    (hshape : ∀ t ∈ root.flatten, t.kind.Shape t.text.toList)
    (hbalanced : Balanced (root.flatten.map Token.erase)) :
    ∃ ts, lex root.print = .ok ts ∧ ts.map Token.erase = root.flatten.map Token.erase := by
  obtain ⟨ps, hsource, hbare, hapart, -⟩ := h.printed hshape
  have hquote : ∀ p, ps.getLast? = some p → p.kind = .quote → ([] : List Char) ≠ [] := by
    intro p hp hkind
    have hmem : p.bare ∈ root.flatten.map Token.erase :=
      hbare ▸ List.mem_map_of_mem (List.mem_of_getLast? hp)
    obtain ⟨t, ht, hbare⟩ := List.mem_map.1 hmem
    rw [flatten_root h.kind] at ht
    obtain ⟨n, hn, ht⟩ := List.mem_flatMap.1 ht
    have htoken : t.kind = p.kind := congrArg Token.kind hbare
    exact absurd (htoken.trans hkind) ((h.forms n hn).not_quote t ht)
  have hlex := lex_eq_of_apart .nil hapart hquote (hbare ▸ hbalanced)
  rw [List.append_nil, hsource, List.nil_append, String.ofList_toList] at hlex
  exact ⟨tokensAfter [] ps, hlex, (erase_tokensAfter ps []).trans hbare⟩

/-- **Programs are read back from their texts.** The text of a program that was read is lexed and
parsed again, to the same tree up to places, so it is printed as the same text again. -/
theorem print_reads_back {src : String} {ts : List Token} {root : Node} (hlex : lex src = .ok ts)
    (hparse : parse ts = .ok root) :
    ∃ ts' root', lex root.print = .ok ts' ∧ parse ts' = .ok root' ∧ root'.erase = root.erase ∧
      root'.print = root.print := by
  obtain ⟨hprogram, hflatten, -⟩ := isProgram_of_parse hparse
  have hshape : ∀ t ∈ root.flatten, t.kind.Shape t.text.toList := by
    intro t ht
    have hmem : t.erase ∈ ts.map Token.erase := hflatten ▸ List.mem_map_of_mem ht
    obtain ⟨u, hu, herase⟩ := List.mem_map.1 hmem
    have hshape : u.erase.kind.Shape u.erase.text.toList := (spells_of_lex hlex).shape u hu
    rw [herase] at hshape
    exact hshape
  have hbalanced : Balanced (root.flatten.map Token.erase) :=
    hflatten ▸ (balanced_of_lex hlex).erase
  obtain ⟨ts', hlex', herase⟩ := hprogram.lex_print hshape hbalanced
  rcases parse_alike (herase.trans hflatten) with ⟨e, e', -, he, -⟩ | ⟨root', r, hr', hr, hroot⟩
  · rw [hparse] at he
    cases he
  · rw [hparse] at hr
    cases hr
    refine ⟨ts', root', hlex', hr', hroot, ?_⟩
    rw [← Node.print_erase, hroot, Node.print_erase]

/-- A definition without a body, a minus sign by itself, and a string with a parenthesis in it, in
other blanks than those of the text. -/
theorem print_reads_back_blanks :
    ∃ ts root, lex "(define)(- \")\")" = .ok ts ∧ parse ts = .ok root ∧
      root.print = "(define)\n(- \")\")" ∧
      ∃ ts' root', lex root.print = .ok ts' ∧ parse ts' = .ok root' ∧ root'.erase = root.erase ∧
        root'.print = root.print := by
  have hlex : lex "(define)(- \")\")" = .ok
      [⟨"(", .paren, ⟨1, 0⟩, ⟨0, 1⟩⟩, ⟨"define", .identifier, ⟨1, 1⟩, ⟨1, 7⟩⟩,
        ⟨")", .paren, ⟨1, 7⟩, ⟨7, 8⟩⟩, ⟨"(", .paren, ⟨1, 8⟩, ⟨8, 9⟩⟩,
        ⟨"-", .identifier, ⟨1, 9⟩, ⟨9, 10⟩⟩, ⟨")", .string, ⟨1, 11⟩, ⟨11, 14⟩⟩,
        ⟨")", .paren, ⟨1, 14⟩, ⟨14, 15⟩⟩] := lex_eq_of_within 9 rfl
  refine ⟨_, _, hlex, parse_eq_of_run rfl, ?_, print_reads_back hlex (parse_eq_of_run rfl)⟩
  decide

end SmallScheme
