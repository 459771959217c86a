import StreamScript.Node.Tree
import StreamScript.Proofs.TextEnds
import StreamScript.Proofs.WellFormed

/-! # What the line of a node tells

In the text of a tree the line of a node has a label, which is the name of its kind and, after a
space, the texts that the node carries.  In a legible tree (`Node.Legible`) the names are words and
no text goes over the end of its line.  There a label can be read back (`Node.texts_eq_of_label`):
the name of the kind ends with the first space, and a word with the first character that is not part
of one.

The trees that programs in source form can have are legible (`Node.WellFormed.legible`). -/

namespace StreamScript

open scoped CharList

variable {s : String} {a b : Node}

/-- A letter or `_`, then letters, digits and `_`. -/
def IsWord (s : String) : Prop :=
  ∃ c cs, s.toList = c :: cs ∧ Rule.isWordStart c = true ∧ ∀ d ∈ cs, Rule.isWordPart d = true

/-- The text can stand on a line after the spaces that tell the depth. -/
def IsLabel (s : String) : Prop := OneLine s ∧ s.toList.head? ≠ some ' '

instance (s : String) : Decidable (IsLabel s) :=
  inferInstanceAs (Decidable (OneLine s ∧ s.toList.head? ≠ some ' '))

/-! ### Words -/

theorem IsWord.forall_part (h : IsWord s) : ∀ c ∈ s.toList, Rule.isWordPart c = true := by
  obtain ⟨c, cs, hs, hc, hcs⟩ := h
  rw [hs]
  exact List.forall_mem_cons.2 ⟨Rule.isWordPart_of_isWordStart hc, hcs⟩

theorem IsWord.oneLine (h : IsWord s) : OneLine s :=
  fun hmem => absurd (h.forall_part _ hmem) (by decide)

theorem IsWord.ne_nil (h : IsWord s) : s.toList ≠ [] := by
  obtain ⟨c, cs, hs, -⟩ := h
  rw [hs]
  exact List.cons_ne_nil c cs

/-- A word ends where a character follows that is not part of one. -/
theorem IsWord.eq_of_append {s s' : String} {cs ds : List Char} (h : IsWord s) (h' : IsWord s')
    (hcs : ∀ c ∈ cs.head?, Rule.isWordPart c = false)
    (hds : ∀ d ∈ ds.head?, Rule.isWordPart d = false)
    (heq : s.toList ++ cs = s'.toList ++ ds) : s = s' ∧ cs = ds := by
  obtain ⟨hs, hrest⟩ := append_inj_of_stop h.forall_part h'.forall_part
    (fun c hc => by simp [hcs c hc]) (fun d hd => by simp [hds d hd]) heq
  exact ⟨String.toList_inj.1 hs, hrest⟩

/-- A word, a character that is not part of one, and a rest. -/
theorem IsWord.eq_of_append_cons {s s' : String} {c : Char} {cs ds : List Char} (h : IsWord s)
    (h' : IsWord s') (hc : Rule.isWordPart c = false)
    (heq : s.toList ++ c :: cs = s'.toList ++ c :: ds) : s = s' ∧ cs = ds := by
  have hhead {es : List Char} : ∀ d ∈ (c :: es).head?, Rule.isWordPart d = false := by
    intro d hd
    cases hd
    exact hc
  obtain ⟨hs, hrest⟩ := h.eq_of_append h' hhead hhead heq
  exact ⟨hs, (List.cons.inj hrest).2⟩

/-! ### Legible trees -/

mutual

/-- In the tree of the node all names are words, and all other texts stay on their lines. -/
def Node.Legible : Node → Prop
  | .identifier name => IsWord name
  | .numberLiteral text => OneLine text
  | .declaration typeName names => IsWord typeName ∧ ∀ name ∈ names, IsWord name
  | .assignment target value => IsWord target ∧ value.Legible
  | .unaryOperation operator operand => OneLine operator ∧ LegibleSlot operand
  | .binaryOperation operator left right => OneLine operator ∧ left.Legible ∧ right.Legible
  | .forLoop init condition increment body =>
    LegibleSlot init ∧ LegibleSlot condition ∧ LegibleSlot increment ∧ LegibleList body
  | .whileLoop condition body | .ifThen condition body => LegibleSlot condition ∧ LegibleList body
  | .handleDeclaration handleType name path => IsWord handleType ∧ IsWord name ∧ OneLine path
  | .memberCall target method => IsWord target ∧ OneLine method

/-- The node in the slot, if there is one, is legible. -/
def Node.LegibleSlot : Option Node → Prop
  | none => True
  | some node => node.Legible

/-- All nodes of the list are legible. -/
def Node.LegibleList : List Node → Prop
  | [] => True
  | node :: rest => node.Legible ∧ LegibleList rest

end

/-- All statements of the program are legible. -/
def Program.Legible (p : Program) : Prop := Node.LegibleList p.statements

/-! ### The parts of a label -/

/-- What the label of a node says after the name of its kind. -/
def Node.details : Node → List Char
  | .identifier name => ' ' :: name.toList
  | .numberLiteral text => ' ' :: text.toList
  | .declaration typeName names =>
    ' ' :: typeName.toList ++ ' ' :: [',', ' '].intercalate (names.map String.toList)
  | .assignment target _ => ' ' :: target.toList
  | .unaryOperation operator _ | .binaryOperation operator _ _ => ' ' :: operator.toList
  | .forLoop .. | .whileLoop .. | .ifThen .. => []
  | .handleDeclaration handleType name path =>
    ' ' :: handleType.toList ++ ' ' :: name.toList ++ ' ' :: path.toList
  | .memberCall target method => ' ' :: target.toList ++ '.' :: method.toList ++ ['(', ')']

theorem Node.toList_label (node : Node) :
    node.label.toList = node.kindName.toList ++ node.details := by
  cases node <;> simp [label.eq_def, kindName, details]

theorem Node.head_details (node : Node) :
    ∀ c ∈ node.details.head?, Rule.isWordPart c = false := by
  have hspace : Rule.isWordPart ' ' = false := by decide
  cases node <;> simp [details, hspace]

theorem Node.isWord_kindName (node : Node) : IsWord node.kindName := by
  cases node <;> rw [kindName] <;> exact ⟨_, _, rfl, by decide, by decide⟩

theorem Node.kindName_eq_of_label (h : a.label = b.label) :
    a.kindName = b.kindName ∧ a.details = b.details := by
  have htext : a.kindName.toList ++ a.details = b.kindName.toList ++ b.details := by
    rw [← toList_label, ← toList_label, h]
  exact a.isWord_kindName.eq_of_append b.isWord_kindName a.head_details b.head_details htext

/-! ### Names with commas between them -/

/-- The names, each with a comma and a space before it. -/
def precededNames (names : List String) : List Char :=
  names.flatMap fun name => ',' :: ' ' :: name.toList

theorem intercalate_eq_precededNames (name : String) (names : List String) :
    [',', ' '].intercalate ((name :: names).map String.toList) =
      name.toList ++ precededNames names := by
  induction names generalizing name with
  | nil => simp [precededNames]
  | cons next names ih =>
      rw [List.map_cons, List.map_cons, List.intercalate_cons_cons, ← List.map_cons, ih next]
      simp [precededNames]

theorem head_precededNames (names : List String) :
    ∀ c ∈ (precededNames names).head?, Rule.isWordPart c = false := by
  cases names with
  | nil => simp [precededNames]
  | cons name names =>
      intro c hc
      cases hc
      decide

theorem precededNames_inj {names more : List String} (hn : ∀ name ∈ names, IsWord name)
    (hm : ∀ name ∈ more, IsWord name) (h : precededNames names = precededNames more) :
    names = more := by
  induction names generalizing more with
  | nil =>
      cases more with
      | nil => rfl
      | cons => cases h
  | cons name names ih =>
      cases more with
      | nil => cases h
      | cons next more =>
          rw [List.forall_mem_cons] at hn hm
          have htext : name.toList ++ precededNames names = next.toList ++ precededNames more :=
            (List.cons.inj (List.cons.inj h).2).2
          obtain ⟨rfl, hrest⟩ := hn.1.eq_of_append hm.1 (head_precededNames names)
            (head_precededNames more) htext
          rw [ih hn.2 hm.2 hrest]

theorem names_inj {names more : List String} (hn : ∀ name ∈ names, IsWord name)
    (hm : ∀ name ∈ more, IsWord name)
    (h : [',', ' '].intercalate (names.map String.toList) =
      [',', ' '].intercalate (more.map String.toList)) : names = more := by
  cases names with
  | nil =>
      cases more with
      | nil => rfl
      | cons next more =>
          rw [intercalate_eq_precededNames] at h
          exact absurd (List.append_eq_nil_iff.1 h.symm).1 (hm next List.mem_cons_self).ne_nil
  | cons name names =>
      cases more with
      | nil =>
          rw [intercalate_eq_precededNames] at h
          exact absurd (List.append_eq_nil_iff.1 h).1 (hn name List.mem_cons_self).ne_nil
      | cons next more =>
          rw [intercalate_eq_precededNames, intercalate_eq_precededNames] at h
          rw [List.forall_mem_cons] at hn hm
          obtain ⟨rfl, hrest⟩ := hn.1.eq_of_append hm.1 (head_precededNames names)
            (head_precededNames more) h
          rw [precededNames_inj hn.2 hm.2 hrest]

/-! ### Reading a label back -/

theorem Node.texts_eq_of_details (ha : a.Legible) (hb : b.Legible) (hk : a.kindName = b.kindName)
    (h : a.details = b.details) : a.texts = b.texts := by
  cases a with
  | declaration typeName names =>
      cases b with
      | declaration typeName' names' =>
          have htext := (List.cons.inj h).2
          obtain ⟨rfl, hnames⟩ := ha.1.eq_of_append_cons hb.1 (by decide) htext
          rw [names_inj ha.2 hb.2 hnames]
      | _ => simp [kindName] at hk
  | handleDeclaration handleType name path =>
      cases b with
      | handleDeclaration handleType' name' path' =>
          simp only [details, List.append_assoc, List.cons_append] at h
          obtain ⟨rfl, hrest⟩ := ha.1.eq_of_append_cons hb.1 (by decide) (List.cons.inj h).2
          obtain ⟨rfl, hpath⟩ := ha.2.1.eq_of_append_cons hb.2.1 (by decide) hrest
          rw [String.toList_inj.1 hpath]
      | _ => simp [kindName] at hk
  | memberCall target method =>
      cases b with
      | memberCall target' method' =>
          simp only [details, List.append_assoc, List.cons_append] at h
          obtain ⟨rfl, hmethod⟩ := ha.1.eq_of_append_cons hb.1 (by decide) (List.cons.inj h).2
          rw [String.toList_inj.1 (List.append_cancel_right hmethod)]
      | _ => simp [kindName] at hk
  | _ => cases b <;> simp_all [kindName, details, texts, String.toList_inj]

/-- The label of a node tells its kind and its texts. -/
theorem Node.texts_eq_of_label (ha : a.Legible) (hb : b.Legible) (h : a.label = b.label) :
    a.kindName = b.kindName ∧ a.texts = b.texts := by
  obtain ⟨hkind, hdetails⟩ := kindName_eq_of_label h
  exact ⟨hkind, texts_eq_of_details ha hb hkind hdetails⟩

/-! ### Labels are lines -/

theorem newline_not_mem_names {names : List String} (h : ∀ name ∈ names, IsWord name) :
    '\n' ∉ [',', ' '].intercalate (names.map String.toList) := by
  cases names with
  | nil => simp
  | cons name names =>
      rw [List.forall_mem_cons] at h
      rw [intercalate_eq_precededNames, precededNames, List.mem_append, List.mem_flatMap]
      rintro (hname | ⟨next, hnext, hmem⟩)
      · exact h.1.oneLine hname
      · have hline := (h.2 next hnext).oneLine
        simp [OneLine] at hline
        simp [hline] at hmem

theorem Node.newline_not_mem_details {node : Node} (h : node.Legible) : '\n' ∉ node.details := by
  cases node with
  | identifier name => simpa [details, OneLine] using h.oneLine
  | numberLiteral text => simpa [details, OneLine, Legible] using h
  | declaration typeName names =>
      simpa [details, OneLine] using ⟨h.1.oneLine, newline_not_mem_names h.2⟩
  | assignment target value => simpa [details, OneLine] using h.1.oneLine
  | unaryOperation operator operand => simpa [details, OneLine] using h.1
  | binaryOperation operator left right => simpa [details, OneLine] using h.1
  | handleDeclaration handleType name path =>
      simpa [details, OneLine] using ⟨h.1.oneLine, h.2.1.oneLine, h.2.2⟩
  | memberCall target method => simpa [details, OneLine] using ⟨h.1.oneLine, h.2⟩
  | _ => simp [details]

theorem Node.isLabel_label {node : Node} (h : node.Legible) : IsLabel node.label := by
  have hline := node.isWord_kindName.oneLine
  obtain ⟨c, cs, hname, hc, -⟩ := node.isWord_kindName
  rw [OneLine, hname] at hline
  rw [IsLabel, OneLine, toList_label, hname]
  constructor
  · rw [List.mem_append]
    rintro (hmem | hmem)
    · exact hline hmem
    · exact newline_not_mem_details h hmem
  · intro hspace
    cases hspace
    cases hc

/-! ### The programs that have a source -/

theorem IsName.isWord (h : IsName s) : IsWord s := h.1

theorem isWord_of_mem_types : ∀ w ∈ declarationTypes ++ handleTypes, IsWord w := by
  intro w hw
  simp only [declarationTypes, handleTypes, List.mem_append, List.mem_cons, List.not_mem_nil,
    or_false] at hw
  rcases hw with (rfl | rfl) | rfl | rfl | rfl <;> exact ⟨_, _, rfl, by decide, by decide⟩

theorem IsPath.oneLine (h : IsPath s) : OneLine s := by
  obtain ⟨body, hs, -, hbody⟩ := h
  rw [OneLine, hs]
  simpa using hbody

theorem IsExpression.legibleSlot {limit : Nat} {value : Option Node}
    (h : IsExpression limit value) : Node.LegibleSlot value := by
  induction h with
  | empty => trivial
  | sign _ ih => exact ⟨by decide, ih⟩

theorem Node.legibleList_of_forall {nodes : List Node} (h : ∀ node ∈ nodes, node.Legible) :
    LegibleList nodes := by
  induction nodes with
  | nil => trivial
  | cons node nodes ih =>
      rw [List.forall_mem_cons] at h
      exact ⟨h.1, ih h.2⟩

theorem Node.WellFormed.legible {d : Nat} {node : Node} (h : node.WellFormed d) : node.Legible := by
  induction h with
  | declaration htype _ hnames =>
      exact ⟨isWord_of_mem_types _ (List.mem_append_left _ htype), fun name hname =>
        (hnames name hname).isWord⟩
  | handleDeclaration htype hname hpath =>
      exact ⟨isWord_of_mem_types _ (List.mem_append_right _ htype), hname.isWord, hpath.oneLine⟩
  | memberCall htarget hmethod => exact ⟨htarget.isWord, hmethod.isWord.oneLine⟩
  | ifThen hc _ ih => exact ⟨IsExpression.legibleSlot hc, legibleList_of_forall ih⟩
  | whileLoop hc _ ih => exact ⟨IsExpression.legibleSlot hc, legibleList_of_forall ih⟩
  | forLoop hi hc hn _ ih =>
      exact ⟨IsExpression.legibleSlot hi, IsExpression.legibleSlot hc, IsExpression.legibleSlot hn,
        legibleList_of_forall ih⟩

theorem Program.WellFormed.legible {p : Program} (h : p.WellFormed) : p.Legible :=
  Node.legibleList_of_forall fun node hnode => (h node hnode).legible

end StreamScript
