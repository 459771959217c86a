import StreamScript.Proofs.Image
import StreamScript.Proofs.NodeLabel

/-! # Reading a tree's text back

The text of a legible tree has a line for each node, and it can be read back in two stages.

* The text gives its lines: a line ends with the first line feed, and its depth is half the number
  of spaces before its label (`lines_eq_of_text`).
* The lines give the tree: a label tells the kind of the node, so it is known which slots follow,
  and a body or a list of statements ends before the first line that is less deep
  (`Node.told`).

So programs with legible trees have different texts, and so do all programs that have a source
(`treeText_faithful`). -/

namespace StreamScript

open scoped CharList

/-! ### Lines in a text -/

theorem TreeLine.toList_text (l : TreeLine) :
    l.text.toList = List.replicate (2 * l.depth) ' ' ++ l.label.toList ++ ['\n'] := by
  have hindent (depth : Nat) :
      (List.replicate depth "  ").flatMap String.toList = List.replicate (2 * depth) ' ' := by
    induction depth with
    | zero => rfl
    | succ depth ih =>
        rw [List.replicate_succ, List.flatMap_cons, ih, Nat.mul_succ, Nat.add_comm,
          ← List.replicate_append_replicate]
        rfl
  rw [text, String.toList_append, String.toList_append, String.toList_join, hindent]
  rfl

/-- A line can be told from what follows it. -/
theorem TreeLine.eq_of_text {l m : TreeLine} {cs ds : List Char} (hl : IsLabel l.label)
    (hm : IsLabel m.label) (h : l.text.toList ++ cs = m.text.toList ++ ds) : l = m ∧ cs = ds := by
  rw [toList_text, toList_text, List.append_assoc, List.append_assoc _ _ ds] at h
  have hline {k : TreeLine} (hk : IsLabel k.label) :
      ∀ c ∈ List.replicate (2 * k.depth) ' ' ++ k.label.toList, c ≠ '\n' := by
    intro c hc hnewline
    subst hnewline
    rcases List.mem_append.1 hc with hc | hc
    · exact absurd (List.eq_of_mem_replicate hc) (by decide)
    · exact hk.1 hc
  obtain ⟨htext, hrest⟩ := append_inj_of_stop (hline hl) (hline hm) (by simp) (by simp) h
  have hspaces {n : Nat} : ∀ c ∈ List.replicate n ' ', c = ' ' :=
    fun c hc => List.eq_of_mem_replicate hc
  have hhead {s : String} (hs : IsLabel s) : ∀ c ∈ s.toList.head?, ¬ c = ' ' := by
    rintro c hc rfl
    exact hs.2 hc
  obtain ⟨hindent, hlabel⟩ := append_inj_of_stop hspaces hspaces (hhead hl) (hhead hm) htext
  have hlength := congrArg List.length hindent
  rw [List.length_replicate, List.length_replicate] at hlength
  refine ⟨?_, (List.cons.inj hrest).2⟩
  have hdepth : l.depth = m.depth := by omega
  cases l
  cases m
  exact TreeLine.mk.injEq .. ▸ ⟨hdepth, String.toList_inj.1 hlabel⟩

theorem lines_eq_of_text {ls ms : List TreeLine} (hl : ∀ l ∈ ls, IsLabel l.label)
    (hm : ∀ m ∈ ms, IsLabel m.label)
    (h : ls.flatMap (fun l => l.text.toList) = ms.flatMap fun m => m.text.toList) : ls = ms := by
  have hne (l : TreeLine) : l.text.toList ≠ [] := by simp [TreeLine.toList_text]
  induction ls generalizing ms with
  | nil =>
      cases ms with
      | nil => rfl
      | cons m ms => exact absurd (List.append_eq_nil_iff.1 h.symm).1 (hne m)
  | cons l ls ih =>
      cases ms with
      | nil => exact absurd (List.append_eq_nil_iff.1 h).1 (hne l)
      | cons m ms =>
          rw [List.forall_mem_cons] at hl hm
          obtain ⟨rfl, hrest⟩ := TreeLine.eq_of_text hl.1 hm.1 h
          rw [ih hl.2 hm.2 hrest]

/-! ### Lines of a tree -/

/-- A body has a line of its own after the lines of the slots. -/
theorem isLabel_of_mem_append_body {depth : Nat} {slots body : List TreeLine}
    (hslots : ∀ l ∈ slots, IsLabel l.label) (hbody : ∀ l ∈ body, IsLabel l.label) :
    ∀ l ∈ slots ++ ⟨depth, "Body"⟩ :: body, IsLabel l.label := by
  rw [List.forall_mem_append, List.forall_mem_cons]
  exact ⟨hslots, (by decide : IsLabel "Body"), hbody⟩

mutual

theorem Node.isLabel_of_mem_linesBelow : ∀ (node : Node) (depth : Nat), node.Legible →
    ∀ l ∈ node.linesBelow depth, IsLabel l.label
  | .identifier _, _, _ => by simp [linesBelow]
  | .numberLiteral _, _, _ => by simp [linesBelow]
  | .declaration _ _, _, _ => by simp [linesBelow]
  | .handleDeclaration _ _ _, _, _ => by simp [linesBelow]
  | .memberCall _ _, _, _ => by simp [linesBelow]
  | .assignment _ value, depth, h => by
    have hvalue := isLabel_of_mem_linesBelow value (depth + 1) h.2
    exact List.forall_mem_cons.2 ⟨isLabel_label h.2, hvalue⟩
  | .unaryOperation _ operand, depth, h => isLabel_of_mem_slotLines operand depth h.2
  | .binaryOperation _ left right, depth, h => by
    have hleft := isLabel_of_mem_linesBelow left (depth + 1) h.2.1
    have hright := isLabel_of_mem_linesBelow right (depth + 1) h.2.2
    rw [linesBelow, List.forall_mem_append, List.forall_mem_cons, List.forall_mem_cons]
    exact ⟨⟨isLabel_label h.2.1, hleft⟩, isLabel_label h.2.2, hright⟩
  | .forLoop init condition increment body, depth, h => by
    have hinit := isLabel_of_mem_slotLines init depth h.1
    have hcondition := isLabel_of_mem_slotLines condition depth h.2.1
    have hincrement := isLabel_of_mem_slotLines increment depth h.2.2.1
    have hbody := isLabel_of_mem_listLines body (depth + 1) h.2.2.2
    have hslots := List.forall_mem_append.2
      ⟨List.forall_mem_append.2 ⟨hinit, hcondition⟩, hincrement⟩
    exact isLabel_of_mem_append_body hslots hbody
  | .whileLoop condition body, depth, h => by
    have hcondition := isLabel_of_mem_slotLines condition depth h.1
    have hbody := isLabel_of_mem_listLines body (depth + 1) h.2
    exact isLabel_of_mem_append_body hcondition hbody
  | .ifThen condition body, depth, h => by
    have hcondition := isLabel_of_mem_slotLines condition depth h.1
    have hbody := isLabel_of_mem_listLines body (depth + 1) h.2
    exact isLabel_of_mem_append_body hcondition hbody

theorem Node.isLabel_of_mem_slotLines : ∀ (slot : Option Node) (depth : Nat), LegibleSlot slot →
    ∀ l ∈ slotLines depth slot, IsLabel l.label
  | none, depth, _ => List.forall_mem_singleton.2 (by decide : IsLabel "_")
  | some node, depth, h => by
    have hnode := isLabel_of_mem_linesBelow node (depth + 1) h
    exact List.forall_mem_cons.2 ⟨isLabel_label h, hnode⟩

theorem Node.isLabel_of_mem_listLines : ∀ (nodes : List Node) (depth : Nat), LegibleList nodes →
    ∀ l ∈ listLines depth nodes, IsLabel l.label
  | [], _, _ => by simp [listLines]
  | node :: rest, depth, h => by
    have hnode := isLabel_of_mem_linesBelow node (depth + 1) h.1
    have hrest := isLabel_of_mem_listLines rest depth h.2
    rw [listLines, List.forall_mem_append, List.forall_mem_cons]
    exact ⟨⟨isLabel_label h.1, hnode⟩, hrest⟩

end

/-! ### The tree of its lines -/

/-- The lines do not go on at this depth or deeper. -/
def Above (depth : Nat) (lines : List TreeLine) : Prop := ∀ l ∈ lines.head?, l.depth < depth

theorem Above.succ {depth : Nat} {xs : List TreeLine} (h : Above depth xs) : Above (depth + 1) xs :=
  fun l hl => Nat.lt_succ_of_lt (h l hl)

namespace Node

/-- The lines below the node are below no other legible node with its label, whatever lines follow
that are less deep. -/
def Told (a : Node) : Prop :=
  ∀ (b : Node) (depth : Nat) (xs ys : List TreeLine), a.Legible → b.Legible → a.label = b.label →
    Above depth xs → Above depth ys → a.linesBelow depth ++ xs = b.linesBelow depth ++ ys →
    a = b ∧ xs = ys

/-- The lines of the slot are those of no other legible slot. -/
def SlotTold (v : Option Node) : Prop :=
  ∀ (w : Option Node) (depth : Nat) (xs ys : List TreeLine), LegibleSlot v → LegibleSlot w →
    Above (depth + 1) xs → Above (depth + 1) ys →
    slotLines depth v ++ xs = slotLines depth w ++ ys → v = w ∧ xs = ys

/-- The lines of the statements are those of no other legible statements. -/
def ListTold (as : List Node) : Prop :=
  ∀ (bs : List Node) (depth : Nat) (xs ys : List TreeLine), LegibleList as → LegibleList bs →
    Above depth xs → Above depth ys →
    listLines depth as ++ xs = listLines depth bs ++ ys → as = bs ∧ xs = ys

variable {a b l r : Node} {v w i c n : Option Node} {as bs body : List Node} {depth : Nat}
  {xs ys : List TreeLine}

theorem above_cons (label : String) (xs : List TreeLine) :
    Above (depth + 1) (⟨depth, label⟩ :: xs) := by
  intro l hl
  cases hl
  exact Nat.lt_succ_self depth

theorem above_slotLines (v : Option Node) (xs : List TreeLine) :
    Above (depth + 1) (slotLines depth v ++ xs) := by
  cases v with
  | none => exact above_cons "_" xs
  | some node => exact above_cons node.label _

theorem above_listLines (h : Above depth xs) (as : List Node) :
    Above (depth + 1) (listLines depth as ++ xs) := by
  cases as with
  | nil => exact h.succ
  | cons node rest => exact above_cons node.label _

/-- The lines of a statement are too deep to follow a list of statements. -/
theorem listLines_ne_of_above (h : Above depth xs) (a : Node) (as : List Node)
    (ys : List TreeLine) : listLines depth (a :: as) ++ ys ≠ xs := by
  rintro rfl
  exact Nat.lt_irrefl depth (h ⟨depth, a.label⟩ rfl)

/-! ### Slots and lists -/

theorem label_ne_blank (node : Node) : node.label ≠ "_" := by
  intro h
  have htext := congrArg String.toList h
  rw [toList_label] at htext
  cases node <;> simp [kindName] at htext

theorem slotTold_none : SlotTold none := by
  intro w depth xs ys _ _ _ _ h
  cases w with
  | none => exact ⟨rfl, (List.cons.inj h).2⟩
  | some b => exact absurd (TreeLine.mk.inj (List.cons.inj h).1).2.symm b.label_ne_blank

theorem slotTold_some (ha : a.Told) : SlotTold (some a) := by
  intro w depth xs ys hv hw hxs hys h
  cases w with
  | none => exact absurd (TreeLine.mk.inj (List.cons.inj h).1).2 a.label_ne_blank
  | some b =>
      obtain ⟨hline, hrest⟩ := List.cons.inj h
      obtain ⟨rfl, hmore⟩ := ha b _ _ _ hv hw (TreeLine.mk.inj hline).2 hxs hys hrest
      exact ⟨rfl, hmore⟩

theorem listTold_nil : ListTold [] := by
  intro bs depth xs ys _ _ hxs _ h
  cases bs with
  | nil => exact ⟨rfl, h⟩
  | cons b bs => exact absurd h.symm (listLines_ne_of_above hxs b bs ys)

theorem listTold_cons (ha : a.Told) (has : ListTold as) : ListTold (a :: as) := by
  intro bs depth xs ys hl hl' hxs hys h
  cases bs with
  | nil => exact absurd h (listLines_ne_of_above hys a as xs)
  | cons b bs =>
      rw [listLines, listLines, List.append_assoc, List.append_assoc _ _ ys] at h
      obtain ⟨hline, hrest⟩ := List.cons.inj h
      obtain ⟨rfl, hmore⟩ := ha b _ _ _ hl.1 hl'.1 (TreeLine.mk.inj hline).2
        (above_listLines hxs as) (above_listLines hys bs) hrest
      obtain ⟨rfl, hend⟩ := has bs depth xs ys hl.2 hl'.2 hxs hys hmore
      exact ⟨rfl, hend⟩

/-- A slot, and a body after it. -/
theorem eq_of_body {body' : List Node} (hv : SlotTold v) (hbody : ListTold body)
    (hl : LegibleSlot v ∧ LegibleList body) (hl' : LegibleSlot w ∧ LegibleList body')
    (hxs : Above depth xs) (hys : Above depth ys)
    (h : slotLines depth v ++ ⟨depth, "Body"⟩ :: listLines (depth + 1) body ++ xs =
      slotLines depth w ++ ⟨depth, "Body"⟩ :: listLines (depth + 1) body' ++ ys) :
    v = w ∧ body = body' ∧ xs = ys := by
  rw [List.append_assoc, List.append_assoc _ _ ys] at h
  obtain ⟨rfl, hrest⟩ := hv w depth _ _ hl.1 hl'.1 (above_cons _ _) (above_cons _ _) h
  obtain ⟨rfl, hmore⟩ := hbody body' _ _ _ hl.2 hl'.2 hxs.succ hys.succ (List.cons.inj hrest).2
  exact ⟨rfl, rfl, hmore⟩

/-! ### Nodes -/

theorem told_of_texts (h : ∀ b, a.kindName = b.kindName → a.texts = b.texts → a = b) : a.Told := by
  intro b depth xs ys ha hb hlabel _ _ hlines
  obtain ⟨hkind, htexts⟩ := texts_eq_of_label ha hb hlabel
  obtain rfl := h b hkind htexts
  exact ⟨rfl, List.append_cancel_left hlines⟩

theorem told_assignment {target : String} (hv : a.Told) : (assignment target a).Told := by
  intro b depth xs ys ha hb hlabel hxs hys h
  obtain ⟨hkind, htexts⟩ := texts_eq_of_label ha hb hlabel
  cases b with
  | assignment target' w =>
      obtain ⟨rfl, -⟩ := List.cons.inj htexts
      obtain ⟨hvalue, hrest⟩ :=
        slotTold_some hv (some w) depth xs ys ha.2 hb.2 hxs.succ hys.succ h
      obtain rfl := Option.some.inj hvalue
      exact ⟨rfl, hrest⟩
  | _ => simp [kindName] at hkind

theorem told_unaryOperation {operator : String} (hv : SlotTold v) :
    (unaryOperation operator v).Told := by
  intro b depth xs ys ha hb hlabel hxs hys h
  obtain ⟨hkind, htexts⟩ := texts_eq_of_label ha hb hlabel
  cases b with
  | unaryOperation operator' w =>
      obtain ⟨rfl, -⟩ := List.cons.inj htexts
      obtain ⟨rfl, hrest⟩ := hv w depth xs ys ha.2 hb.2 hxs.succ hys.succ h
      exact ⟨rfl, hrest⟩
  | _ => simp [kindName] at hkind

theorem told_binaryOperation {operator : String} (hl : l.Told) (hr : r.Told) :
    (binaryOperation operator l r).Told := by
  intro b depth xs ys ha hb hlabel hxs hys h
  obtain ⟨hkind, htexts⟩ := texts_eq_of_label ha hb hlabel
  cases b with
  | binaryOperation operator' l' r' =>
      obtain ⟨rfl, -⟩ := List.cons.inj htexts
      rw [linesBelow, linesBelow, List.append_assoc, List.append_assoc _ _ ys] at h
      obtain ⟨hleft, hmore⟩ := slotTold_some hl (some l') depth _ _ ha.2.1 hb.2.1
        (above_cons _ _) (above_cons _ _) h
      obtain ⟨hright, hrest⟩ :=
        slotTold_some hr (some r') depth xs ys ha.2.2 hb.2.2 hxs.succ hys.succ hmore
      obtain rfl := Option.some.inj hleft
      obtain rfl := Option.some.inj hright
      exact ⟨rfl, hrest⟩
  | _ => simp [kindName] at hkind

theorem told_forLoop (hi : SlotTold i) (hc : SlotTold c) (hn : SlotTold n)
    (hbody : ListTold body) : (forLoop i c n body).Told := by
  intro b depth xs ys ha hb hlabel hxs hys h
  obtain ⟨hkind, -⟩ := texts_eq_of_label ha hb hlabel
  cases b with
  | forLoop i' c' n' body' =>
      obtain ⟨hai, hac, han⟩ := ha
      obtain ⟨hbi, hbc, hbn⟩ := hb
      simp only [linesBelow, List.append_assoc] at h
      obtain ⟨rfl, hmore⟩ := hi i' depth _ _ hai hbi (above_slotLines _ _) (above_slotLines _ _) h
      obtain ⟨rfl, hlast⟩ := hc c' depth _ _ hac hbc (above_slotLines _ _) (above_slotLines _ _)
        hmore
      rw [← List.append_assoc, ← List.append_assoc (slotLines depth n')] at hlast
      obtain ⟨rfl, rfl, hrest⟩ := eq_of_body hn hbody han hbn hxs hys hlast
      exact ⟨rfl, hrest⟩
  | _ => simp [kindName] at hkind

theorem told_whileLoop (hc : SlotTold c) (hbody : ListTold body) : (whileLoop c body).Told := by
  intro b depth xs ys ha hb hlabel hxs hys h
  obtain ⟨hkind, -⟩ := texts_eq_of_label ha hb hlabel
  cases b with
  | whileLoop c' body' =>
      obtain ⟨rfl, rfl, hrest⟩ := eq_of_body hc hbody ha hb hxs hys h
      exact ⟨rfl, hrest⟩
  | _ => simp [kindName] at hkind

theorem told_ifThen (hc : SlotTold c) (hbody : ListTold body) : (ifThen c body).Told := by
  intro b depth xs ys ha hb hlabel hxs hys h
  obtain ⟨hkind, -⟩ := texts_eq_of_label ha hb hlabel
  cases b with
  | ifThen c' body' =>
      obtain ⟨rfl, rfl, hrest⟩ := eq_of_body hc hbody ha hb hxs hys h
      exact ⟨rfl, hrest⟩
  | _ => simp [kindName] at hkind

end Node

mutual

/-- Every node can be read back from its lines. -/
theorem Node.told : ∀ a : Node, a.Told
  | .identifier name => told_of_texts fun b hk ht => by cases b <;> simp_all [kindName, texts]
  | .numberLiteral text => told_of_texts fun b hk ht => by cases b <;> simp_all [kindName, texts]
  | .declaration typeName names =>
    told_of_texts fun b hk ht => by cases b <;> simp_all [kindName, texts]
  | .handleDeclaration handleType name path =>
    told_of_texts fun b hk ht => by cases b <;> simp_all [kindName, texts]
  | .memberCall target method =>
    told_of_texts fun b hk ht => by cases b <;> simp_all [kindName, texts]
  | .assignment _ value => told_assignment value.told
  | .unaryOperation _ operand => told_unaryOperation (slotTold operand)
  | .binaryOperation _ left right => told_binaryOperation left.told right.told
  | .forLoop init condition increment body =>
    told_forLoop (slotTold init) (slotTold condition) (slotTold increment) (listTold body)
  | .whileLoop condition body => told_whileLoop (slotTold condition) (listTold body)
  | .ifThen condition body => told_ifThen (slotTold condition) (listTold body)

theorem Node.slotTold : ∀ v : Option Node, SlotTold v
  | none => slotTold_none
  | some node => slotTold_some node.told

theorem Node.listTold : ∀ as : List Node, ListTold as
  | [] => listTold_nil
  | node :: rest => listTold_cons node.told (listTold rest)

end

/-! ### Programs -/

theorem Program.Legible.eq_of_treeText {p q : Program} (hp : p.Legible) (hq : q.Legible)
    (h : p.treeText = q.treeText) : p = q := by
  have hplain {r : Program} (hr : r.Legible) : ∀ l ∈ r.treeLines, IsLabel l.label :=
    List.forall_mem_cons.2 ⟨by decide, Node.isLabel_of_mem_listLines r.statements 1 hr⟩
  have htext := congrArg String.toList h
  rw [treeText, treeText, String.toList_join, String.toList_join, List.flatMap_map,
    List.flatMap_map] at htext
  have hlines := (List.cons.inj (lines_eq_of_text (hplain hp) (hplain hq) htext)).2
  have habove : Above 1 [] := nofun
  obtain ⟨hstatements, -⟩ := Node.listTold p.statements q.statements 1 [] [] hp hq habove habove
    (congrArg (· ++ []) hlines)
  cases p
  cases q
  exact congrArg Program.mk hstatements

/-- The text of a tree tells the tree, if it is legible, and so it tells the program of every
source. -/
theorem treeText_faithful :
    (∀ p q : Program, p.Legible → q.Legible → p.treeText = q.treeText → p = q) ∧
    ∀ (s s' : String) (p q : Program), parseSource s = .ok p → parseSource s' = .ok q →
      p.treeText = q.treeText → p = q := by
  refine ⟨fun p q hp hq h => hp.eq_of_treeText hq h, fun s s' p q hs hs' h => ?_⟩
  have hp := (wellFormed_of_parseSource hs).legible
  have hq := (wellFormed_of_parseSource hs').legible
  exact hp.eq_of_treeText hq h

/-- An assignment and a guard, one after the other. -/
def assignmentAndGuard : Program :=
  ⟨[.assignment "x" (.unaryOperation "!" none),
    .ifThen (some (.binaryOperation "<" (.identifier "x") (.numberLiteral "10"))) []]⟩

/-- The same program, made statement by statement. -/
def pushedStatements : Program :=
  (Program.empty.push (.assignment "x" (.unaryOperation "!" none))).push
    (.ifThen (some (.binaryOperation "<" (.identifier "x") (.numberLiteral "10"))) [])

/-- A guard without spaces. -/
def tightGuard : String := "if(a)\x7b\x7d"

/-- A guard with spaces and another condition, which is not in the tree either. -/
def wideGuard : String := "if ( \"b\" ) \x7b \x7d"

/-- The two programs and the two sources. -/
theorem treeText_faithful_guards :
    (assignmentAndGuard.Legible ∧ pushedStatements.Legible ∧
      assignmentAndGuard.treeText = pushedStatements.treeText ∧
      assignmentAndGuard = pushedStatements) ∧
    parseSource tightGuard = .ok ⟨[.ifThen none []]⟩ ∧
      parseSource wideGuard = .ok (Program.empty.push (.ifThen none [])) ∧
      Program.mk [.ifThen none []] = Program.empty.push (.ifThen none []) := by
  have hlegible : assignmentAndGuard.Legible :=
    ⟨⟨⟨_, _, rfl, by decide, by decide⟩, (by decide : OneLine "!"), trivial⟩,
      ⟨⟨(by decide : OneLine "<"), ⟨_, _, rfl, by decide, by decide⟩, (by decide : OneLine "10")⟩,
        trivial⟩, trivial⟩
  have htext : assignmentAndGuard.treeText = pushedStatements.treeText := by rfl
  have htight : tokenize tightGuard =
      [⟨.keyword, "if", 1⟩, ⟨.punctuation, "(", 1⟩, ⟨.identifier, "a", 1⟩, ⟨.punctuation, ")", 1⟩,
        ⟨.punctuation, "\x7b", 1⟩, ⟨.punctuation, "\x7d", 1⟩] := by decide +kernel
  have hwide : tokenize wideGuard =
      [⟨.keyword, "if", 1⟩, ⟨.punctuation, "(", 1⟩, ⟨.literal, "\"b\"", 1⟩, ⟨.punctuation, ")", 1⟩,
        ⟨.punctuation, "\x7b", 1⟩, ⟨.punctuation, "\x7d", 1⟩] := by decide +kernel
  have hp : parseSource tightGuard = .ok ⟨[.ifThen none []]⟩ := by
    rw [parseSource, htight]
    rfl
  have hq : parseSource wideGuard = .ok (Program.empty.push (.ifThen none [])) := by
    rw [parseSource, hwide]
    rfl
  obtain ⟨htrees, hsources⟩ := treeText_faithful
  exact ⟨⟨hlegible, hlegible, htext, htrees _ _ hlegible hlegible htext⟩, hp, hq,
    hsources _ _ _ _ hp hq rfl⟩

/-- With a line feed in a name one line could be two. -/
example : Program.treeText ⟨[.identifier "a\n  Identifier b"]⟩ =
    Program.treeText ⟨[.identifier "a", .identifier "b"]⟩ := by decide

end StreamScript
