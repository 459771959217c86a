import StreamScript.Proofs.Acceptance
import StreamScript.Proofs.Spaced
import StreamScript.Proofs.WellFormed

/-! # The programs that sources have

Every well-formed program is spelt by tokens that a scan gives back when their texts are written
with spaces between them.  So the programs of sources are exactly the well-formed ones:
`exists_parseSource_eq_ok_iff`. -/

namespace StreamScript

open scoped CharList

/-! ### Tokens on line one -/

theorem plain_mk {kind : TokenKind} {text : String} (h : Token.Lexical ⟨kind, text, 1⟩)
    (hk : kind ≠ .unknown) : Token.Plain ⟨kind, text, 1⟩ :=
  ⟨h, hk, rfl⟩

theorem plain_keyword {text : String} (h : text ∈ keywords) : Token.Plain ⟨.keyword, text, 1⟩ :=
  plain_mk h (by decide)

theorem plain_name {text : String} (h : IsName text) : Token.Plain ⟨.identifier, text, 1⟩ :=
  plain_mk h (by decide)

theorem plain_path {text : String} (h : IsPath text) : Token.Plain ⟨.literal, text, 1⟩ :=
  plain_mk h (by decide)

theorem plain_operator {text : String} (h : text ∈ operators) :
    Token.Plain ⟨.operator, text, 1⟩ :=
  plain_mk h (by decide)

theorem plain_mark {text : String} (h : text ∈ [";", ",", "(", ")", "\x7b", "\x7d"]) :
    Token.Plain ⟨.punctuation, text, 1⟩ := by
  have key : ∀ text ∈ [";", ",", "(", ")", "\x7b", "\x7d"],
      ∃ c ∈ punctuation.toList, text = String.ofList [c] ∧ text ∉ operators := by decide
  exact plain_mk (key text h) (by decide)

theorem isName_operand : IsName "x" :=
  ⟨⟨'x', [], rfl, by decide, by decide⟩, by decide⟩

/-! ### Every well-formed program is spelt by plain tokens -/

theorem IsExpression.exists_spells {limit : Nat} {value : Option Node}
    (h : IsExpression limit value) :
    ∃ ts, SpellsExpression limit ts value ∧ ∀ t ∈ ts, t.Plain := by
  induction h with
  | empty =>
      exact ⟨[⟨.identifier, "x", 1⟩], .operand (by decide),
        List.forall_mem_singleton.2 (plain_name isName_operand)⟩
  | sign _ ih =>
      obtain ⟨ts, hts, hplain⟩ := ih
      exact ⟨⟨.operator, "!", 1⟩ :: ts, .sign (by decide) hts,
        List.forall_mem_cons.2 ⟨plain_operator (by decide), hplain⟩⟩

theorem IsSlot.exists_spells {value : Option Node} (h : IsSlot value) :
    ∃ ts, SpellsSlot ts value ∧ ∀ t ∈ ts, t.Plain :=
  IsExpression.exists_spells h

theorem exists_spellsNames {names : List String} (h : names ≠ [])
    (hn : ∀ name ∈ names, IsName name) :
    ∃ ts, SpellsNames ts names ∧ ∀ t ∈ ts, t.Plain := by
  induction names with
  | nil => exact absurd rfl h
  | cons name names ih =>
      obtain ⟨hname, hrest⟩ := List.forall_mem_cons.1 hn
      by_cases hnil : names = []
      · subst hnil
        exact ⟨[⟨.identifier, name, 1⟩], .single rfl,
          List.forall_mem_singleton.2 (plain_name hname)⟩
      · obtain ⟨ts, hts, hplain⟩ := ih hnil hrest
        refine ⟨⟨.identifier, name, 1⟩ :: ⟨.punctuation, ",", 1⟩ :: ts,
          .cons rfl (by decide) hts, ?_⟩
        simp only [List.forall_mem_cons]
        exact ⟨plain_name hname, plain_mark (by decide), hplain⟩

theorem Header.WellFormed.exists_spells {header : Header} (h : header.WellFormed) :
    ∃ ts, SpellsHeader ts header ∧ ∀ t ∈ ts, t.Plain := by
  cases header with
  | guarded guard condition =>
      obtain ⟨ts, hts, hplain⟩ := IsSlot.exists_spells h
      have hword : guard.word ∈ keywords := by cases guard <;> decide
      refine ⟨⟨.keyword, guard.word, 1⟩ :: ⟨.punctuation, Bracket.paren.opening, 1⟩ :: ts ++
          [⟨.punctuation, Bracket.paren.closing, 1⟩],
        .guarded (by simp) (by decide) hts (by decide), ?_⟩
      simp only [List.forall_mem_append, List.forall_mem_cons]
      exact ⟨⟨plain_keyword hword, plain_mark (by decide), hplain⟩, plain_mark (by decide),
        by simp⟩
  | forLoop init condition increment =>
      obtain ⟨hi, hc, hn⟩ := h
      obtain ⟨ts, hts, hplain⟩ := hi.exists_spells
      obtain ⟨us, hus, hplain'⟩ := hc.exists_spells
      obtain ⟨vs, hvs, hplain''⟩ := hn.exists_spells
      refine ⟨⟨.keyword, "for", 1⟩ :: ⟨.punctuation, Bracket.paren.opening, 1⟩ :: ts ++
          ⟨.punctuation, ";", 1⟩ :: us ++ ⟨.punctuation, ";", 1⟩ :: vs ++
          [⟨.punctuation, Bracket.paren.closing, 1⟩],
        .forLoop (by decide) (by decide) hts (by decide) hus (by decide) hvs (by decide), ?_⟩
      simp only [List.forall_mem_append, List.forall_mem_cons]
      exact ⟨⟨⟨⟨plain_keyword (by decide), plain_mark (by decide), hplain⟩,
        plain_mark (by decide), hplain'⟩, plain_mark (by decide), hplain''⟩,
        plain_mark (by decide), by simp⟩

variable {d : Nat} {nodes : List Node}

theorem exists_spells_of_forall
    (h : ∀ node ∈ nodes, ∃ ts, Spells d ts [node] ∧ ∀ t ∈ ts, t.Plain) :
    ∃ ts, Spells d ts nodes ∧ ∀ t ∈ ts, t.Plain := by
  induction nodes with
  | nil => exact ⟨[], .nil, fun t ht => absurd ht List.not_mem_nil⟩
  | cons node nodes ih =>
      obtain ⟨hnode, hrest⟩ := List.forall_mem_cons.1 h
      obtain ⟨ts, hts, hplain⟩ := hnode
      obtain ⟨us, hus, hplain'⟩ := ih hrest
      exact ⟨ts ++ us, hts.append hus, List.forall_mem_append.2 ⟨hplain, hplain'⟩⟩

theorem Header.WellFormed.exists_spells_node {header : Header} {body : List Node}
    (hh : header.WellFormed) (hd : d < maxDepth)
    (hb : ∀ node ∈ body, ∃ ts, Spells (d + 1) ts [node] ∧ ∀ t ∈ ts, t.Plain) :
    ∃ ts, Spells d ts [header.node body] ∧ ∀ t ∈ ts, t.Plain := by
  obtain ⟨ts, hts, hplain⟩ := hh.exists_spells
  obtain ⟨us, hus, hplain'⟩ := exists_spells_of_forall hb
  refine ⟨ts ++ ⟨.punctuation, Bracket.brace.opening, 1⟩ :: us ++
      [⟨.punctuation, Bracket.brace.closing, 1⟩],
    .of_block hts (by decide) hd hus (by decide), ?_⟩
  simp only [List.forall_mem_append, List.forall_mem_cons]
  exact ⟨⟨hplain, plain_mark (by decide), hplain'⟩, plain_mark (by decide), by simp⟩

/-- A well-formed statement is spelt inside as many blocks as the bound leaves for it. -/
theorem Node.WellFormed.exists_spells {e : Nat} {node : Node} (h : node.WellFormed e)
    (he : d + e ≤ maxDepth) : ∃ ts, Spells d ts [node] ∧ ∀ t ∈ ts, t.Plain := by
  induction h generalizing d with
  | @declaration _ typeName names htype hne hnames =>
      obtain ⟨ts, hts, hplain⟩ := exists_spellsNames hne hnames
      have hword : ∀ w ∈ declarationTypes, w ∈ keywords := by decide
      refine ⟨⟨.keyword, typeName, 1⟩ :: ts ++ [⟨.punctuation, ";", 1⟩],
        .of_simple (.declaration rfl htype hts (by decide)), ?_⟩
      simp only [List.forall_mem_append, List.forall_mem_cons]
      exact ⟨⟨plain_keyword (hword _ htype), hplain⟩, plain_mark (by decide), by simp⟩
  | @handleDeclaration _ handleType name path htype hname hpath =>
      have hword : ∀ w ∈ handleTypes, w ∈ keywords := by decide
      refine ⟨[⟨.keyword, handleType, 1⟩, ⟨.identifier, name, 1⟩,
          ⟨.punctuation, Bracket.paren.opening, 1⟩, ⟨.literal, path, 1⟩,
          ⟨.punctuation, Bracket.paren.closing, 1⟩, ⟨.punctuation, ";", 1⟩],
        .of_simple (.handle rfl htype rfl (by decide) rfl (by decide) (by decide)), ?_⟩
      simp only [List.forall_mem_cons]
      exact ⟨plain_keyword (hword _ htype), plain_name hname, plain_mark (by decide),
        plain_path hpath, plain_mark (by decide), plain_mark (by decide), by simp⟩
  | @memberCall _ target method htarget hmethod =>
      refine ⟨[⟨.identifier, target, 1⟩, ⟨.operator, ".", 1⟩, ⟨.identifier, method, 1⟩,
          ⟨.punctuation, Bracket.paren.opening, 1⟩, ⟨.punctuation, Bracket.paren.closing, 1⟩,
          ⟨.punctuation, ";", 1⟩],
        .of_simple (.call rfl (by decide) rfl (by decide) (by decide) (by decide)), ?_⟩
      simp only [List.forall_mem_cons]
      exact ⟨plain_name htarget, plain_operator (by decide), plain_name hmethod,
        plain_mark (by decide), plain_mark (by decide), plain_mark (by decide), by simp⟩
  | @ifThen _ condition _ hc _ ih =>
      have hh : (Header.guarded .ifThen condition).WellFormed := hc
      exact hh.exists_spells_node (by omega) fun node hnode => ih node hnode (by omega)
  | @whileLoop _ condition _ hc _ ih =>
      have hh : (Header.guarded .whileLoop condition).WellFormed := hc
      exact hh.exists_spells_node (by omega) fun node hnode => ih node hnode (by omega)
  | @forLoop _ init condition increment _ hi hc hn _ ih =>
      have hh : (Header.forLoop init condition increment).WellFormed := ⟨hi, hc, hn⟩
      exact hh.exists_spells_node (by omega) fun node hnode => ih node hnode (by omega)

/-! ### The image -/

theorem wellFormed_of_parseSource {s : String} {p : Program} (h : parseSource s = .ok p) :
    p.WellFormed := by
  have hspells := spells_of_parse_eq_ok h
  exact hspells.wellFormed fun t ht => lexical_of_mem_tokenize ht

/-- Every well-formed program has a source. -/
theorem Program.WellFormed.exists_source {p : Program} (h : p.WellFormed) :
    ∃ s, parseSource s = .ok p := by
  have hnodes : ∀ node ∈ p.statements, ∃ ts, Spells 0 ts [node] ∧ ∀ t ∈ ts, t.Plain :=
    fun node hnode => (h node hnode).exists_spells (Nat.le_of_eq (Nat.zero_add maxDepth))
  obtain ⟨ts, hts, hplain⟩ := exists_spells_of_forall hnodes
  refine ⟨String.ofList (spaced ts), ?_⟩
  rw [parseSource, tokenize_spaced hplain]
  exact parse_of_spells hts

/-- A program is the program of some source if and only if it is well formed. -/
theorem exists_parseSource_eq_ok_iff (p : Program) :
    (∃ s, parseSource s = .ok p) ↔ p.WellFormed := by
  constructor
  · rintro ⟨s, hs⟩
    exact wellFormed_of_parseSource hs
  · intro h
    exact h.exists_source

end StreamScript
