import BlockLang.Proofs.Tree.Traversal

/-!
# Outlines tell trees apart

A line of an outline tells the depth of its node, the kind and the texts. What is below a node are
the lines behind it that are deeper, up to the first that is not. And a node is told by its kind,
its texts and its children, also where the children are of several sorts. So trees with the same
outline are the same.
-/

namespace BlockLang

open BlockLang.Text

/-- Two lists that are cut where a property ends for the first time are cut at the same place. -/
theorem append_inj_of_head {α : Type} {p : α → Prop} {xs xs' ys ys' : List α}
    (hxs : ∀ x ∈ xs, p x) (hxs' : ∀ x ∈ xs', p x) (hys : ∀ y ∈ ys.head?, ¬ p y)
    (hys' : ∀ y ∈ ys'.head?, ¬ p y) (h : xs ++ ys = xs' ++ ys') : xs = xs' ∧ ys = ys' := by
  induction xs generalizing xs' with
  | nil =>
    cases xs' with
    | nil => exact ⟨rfl, h⟩
    | cons x' xs' =>
      rw [List.nil_append] at h
      subst h
      exact absurd (hxs' x' List.mem_cons_self) (hys x' rfl)
  | cons x xs ih =>
    cases xs' with
    | nil =>
      rw [List.nil_append] at h
      subst h
      exact absurd (hxs x List.mem_cons_self) (hys' x rfl)
    | cons x' xs' =>
      rw [List.cons_append, List.cons_append] at h
      obtain ⟨rfl, htail⟩ := List.cons.inj h
      obtain ⟨rfl, rfl⟩ := ih (fun y hy => hxs y (List.mem_cons_of_mem _ hy))
        (fun y hy => hxs' y (List.mem_cons_of_mem _ hy)) htail
      exact ⟨rfl, rfl⟩

namespace NodeKind

theorem tag_inj {k k' : NodeKind} (h : k.tag = k'.tag) : k = k' := by
  have hk := ofTag?_tag k
  rw [h, ofTag?_tag, Option.some.injEq] at hk
  exact hk.symm

/-- A tag is a word: there is something to it, and it has no spaces. -/
theorem tag_word (k : NodeKind) : k.tag.toList ≠ [] ∧ ' ' ∉ k.tag.toList := by
  cases k with
  | binary op => cases op <;> decide
  | _ => decide

end NodeKind

theorem Progression.node_inj {p q : Progression} (h : p.node = q.node) : p = q := by
  cases p <;> cases q <;> cases h <;> rfl

namespace Node

/-! ## Labels -/

theorem delimits_label (name : String) : Delimits fun text => (label name text).toList := by
  intro a b r s h
  simp only [label, String.toList_append] at h
  exact (delimits_quoted.behind _) h

/-- What stands behind the first of several quoted texts, up to a bracket. -/
def namesTail : List String → List Char
  | [] => [']']
  | t :: ts => ", ".toList ++ (quoted t).toList ++ namesTail ts

theorem intercalate_quoted (t : String) (ts : List String) :
    (", ".intercalate ((t :: ts).map quoted)).toList ++ [']'] =
      (quoted t).toList ++ namesTail ts := by
  induction ts generalizing t with
  | nil => simp [namesTail]
  | cons u ts ih =>
    rw [namesTail, List.append_assoc, ← ih u]
    simp [String.toList_intercalate]

theorem delimits_namesTail : Delimits namesTail := by
  intro as bs r s h
  induction as generalizing bs with
  | nil =>
    cases bs with
    | nil => exact ⟨rfl, (List.cons.inj h).2⟩
    | cons b bs => cases (List.cons.inj h).1
  | cons a as ih =>
    cases bs with
    | nil => cases (List.cons.inj h).1
    | cons b bs =>
      simp only [namesTail, List.append_assoc] at h
      obtain ⟨rfl, htail⟩ := delimits_quoted (List.append_cancel_left h)
      obtain ⟨rfl, rfl⟩ := ih htail
      exact ⟨rfl, rfl⟩

/-- A quoted text starts with its mark, and so with no bracket. -/
theorem quoted_append_ne (t : String) (r s : List Char) :
    (quoted t).toList ++ r ≠ ']' :: s := by
  intro h
  rw [quoted, String.toList_ofList, Quoted.encode, List.cons_append] at h
  rcases Quoted.isMark_mark t.toList with hmark | hmark <;> rw [hmark] at h <;>
    cases (List.cons.inj h).1

/-- Quoted texts with commas between them and a bracket behind tell what they are and where they
end. -/
theorem delimits_quotedNames :
    Delimits fun texts : List String =>
      (", ".intercalate (texts.map quoted)).toList ++ [']'] := by
  have hnil : (", ".intercalate (([] : List String).map quoted)).toList ++ [']'] = [']'] := by simp
  intro as bs r s h
  dsimp only at h
  cases as with
  | nil =>
    rw [hnil] at h
    cases bs with
    | nil =>
      rw [hnil] at h
      exact ⟨rfl, List.append_cancel_left h⟩
    | cons b bs =>
      rw [intercalate_quoted, List.append_assoc] at h
      exact absurd h.symm (quoted_append_ne b _ _)
  | cons a as =>
    rw [intercalate_quoted, List.append_assoc] at h
    cases bs with
    | nil =>
      rw [hnil] at h
      exact absurd h (quoted_append_ne a _ _)
    | cons b bs =>
      rw [intercalate_quoted, List.append_assoc] at h
      obtain ⟨rfl, htail⟩ := delimits_quoted h
      obtain ⟨rfl, rfl⟩ := delimits_namesTail htail
      exact ⟨rfl, rfl⟩

theorem delimits_namesLabel (name : String) :
    Delimits fun texts => (namesLabel name texts).toList := by
  have hchars : ∀ texts, (namesLabel name texts).toList =
      (name ++ "=[").toList ++ ((", ".intercalate (texts.map quoted)).toList ++ [']']) := by
    intro texts
    simp only [namesLabel, String.toList_append, List.append_assoc]
    rfl
  simp only [hchars]
  exact delimits_quotedNames.behind _

section

variable {α β : Type} {f : α → String} {g : β → String}

/-- A label is told by the labels of a node, if it is the only one. -/
theorem eq_of_labelText (hf : Delimits fun a => (f a).toList) {a a' : α}
    (h : labelText [f a] = labelText [f a']) : a = a' := by
  have hchars : ∀ x : String, (labelText [x]).toList = " (".toList ++ (x.toList ++ ")".toList) := by
    intro x
    simp only [labelText, String.toList_append, List.append_assoc]
    rfl
  have heq := congrArg String.toList h
  rw [hchars, hchars] at heq
  exact (hf (List.append_cancel_left heq)).1

/-- And so are two of them. -/
theorem eq_of_labelText_pair (hf : Delimits fun a => (f a).toList)
    (hg : Delimits fun b => (g b).toList) {a a' : α} {b b' : β}
    (h : labelText [f a, g b] = labelText [f a', g b']) : a = a' ∧ b = b' := by
  have hchars : ∀ x y : String, (labelText [x, y]).toList =
      " (".toList ++ (x.toList ++ (", ".toList ++ (y.toList ++ ")".toList))) := by
    intro x y
    simp only [labelText, String.toList_append, List.append_assoc, String.toList_intercalate]
    simp
  have heq := congrArg String.toList h
  rw [hchars, hchars] at heq
  obtain ⟨rfl, htail⟩ := hf (List.append_cancel_left heq)
  exact ⟨rfl, (hg (List.append_cancel_left htail)).1⟩

end

/-! ## Lines -/

/-- Labels begin with a space. -/
theorem head?_labelText (ls : List String) : ∀ c ∈ (labelText ls).toList.head?, c = ' ' := by
  cases ls <;> simp [labelText]

theorem toList_outlineLine (d : Nat) (n : Node) :
    (n.outlineLine d).toList =
      List.replicate (2 * d) ' ' ++ (n.kind.tag.toList ++ (labelText n.labels).toList) := by
  have hwidth : (2 * (d : Int)).toNat = 2 * d := by omega
  simp only [outlineLine, spaces, String.toList_append, String.toList_ofList, hwidth,
    List.append_assoc]

/-- Behind the spaces of a line stands a letter. -/
theorem head?_tag_append (k : NodeKind) (cs : List Char) :
    ∀ c ∈ (k.tag.toList ++ cs).head?, c ≠ ' ' := by
  obtain ⟨hne, hspace⟩ := k.tag_word
  obtain ⟨c, rest, htag⟩ := List.exists_cons_of_ne_nil hne
  rw [htag] at hspace ⊢
  rintro d hd rfl
  rw [List.cons_append, List.head?_cons, Option.mem_some_iff] at hd
  exact hspace (List.mem_cons.mpr (.inl hd.symm))

/-- **A line tells the depth, the kind and the labels** of its node. -/
theorem eq_of_outlineLine {d e : Nat} {n m : Node} (h : n.outlineLine d = m.outlineLine e) :
    d = e ∧ n.kind = m.kind ∧ labelText n.labels = labelText m.labels := by
  have hchars := congrArg String.toList h
  rw [toList_outlineLine, toList_outlineLine] at hchars
  obtain ⟨hspaces, hrest⟩ := append_inj_of_head (p := (· = ' '))
    (fun c hc => List.eq_of_mem_replicate hc) (fun c hc => List.eq_of_mem_replicate hc)
    (head?_tag_append _ _) (head?_tag_append _ _) hchars
  obtain ⟨htag, hlabels⟩ := append_inj_of_head (p := (· ≠ ' '))
    (fun c hc hspace => n.kind.tag_word.2 (hspace ▸ hc))
    (fun c hc hspace => m.kind.tag_word.2 (hspace ▸ hc))
    (fun c hc => not_not_intro (head?_labelText _ c hc))
    (fun c hc => not_not_intro (head?_labelText _ c hc)) hrest
  have hdepth : 2 * d = 2 * e := by simpa using congrArg List.length hspaces
  exact ⟨by omega, NodeKind.tag_inj (String.toList_inj.mp htag), String.toList_inj.mp hlabels⟩

/-! ## Nodes -/

/-- **The form of a node** of each kind. -/
def HasForm (m : Node) : NodeKind → Prop
  | .program => ∃ p, m = program p
  | .data => ∃ name fields, m = block (.data name fields)
  | .group => ∃ name parameters instances, m = block (.group name parameters instances)
  | .action => ∃ name body, m = block (.action name body)
  | .run => ∃ actions body, m = block (.run actions body)
  | .parameter => ∃ p, m = parameter p
  | .field => ∃ f, m = field f
  | .fieldValue => ∃ v, m = fieldValue v
  | .dataInstance => ∃ d, m = dataInstance d
  | .declaration => ∃ d, m = instruction (.declare d)
  | .create => ∃ group arguments, m = instruction (.create group arguments)
  | .branch => ∃ condition body, m = instruction (.branch condition body)
  | .foreach => ∃ names collections body, m = instruction (.foreach names collections body)
  | .loop => ∃ start condition step body, m = instruction (.loop start condition step body)
  | .value => ∃ text, m = expr (.value text)
  | .evaluation => ∃ e, m = evaluation e
  | .binary op => ∃ lhs rhs, m = expr (.binary op lhs rhs)

theorem hasForm_kind (m : Node) : m.HasForm m.kind := by
  fun_cases children m
  all_goals simp [HasForm, kind, Block.kind, Instruction.kind, Expr.kind]

/-- Children of two sorts, the ones behind the others, are told apart. -/
theorem map_append_inj {α β : Type} {f : α → Node} {g : β → Node} (hf : ∀ {a b}, f a = f b → a = b)
    (hg : ∀ {a b}, g a = g b → a = b) (hfg : ∀ a b, f a ≠ g b) {as as' : List α} {bs bs' : List β}
    (h : as.map f ++ bs.map g = as'.map f ++ bs'.map g) : as = as' ∧ bs = bs' := by
  have hmap : ∀ cs : List α, ∀ n ∈ cs.map f, n ∈ Set.range f := by
    intro cs n hn
    obtain ⟨a, -, rfl⟩ := List.mem_map.mp hn
    exact ⟨a, rfl⟩
  have hhead : ∀ cs : List β, ∀ n ∈ (cs.map g).head?, n ∉ Set.range f := by
    rintro cs n hn ⟨a, rfl⟩
    obtain ⟨b, -, hb⟩ := List.mem_map.mp (List.mem_of_mem_head? hn)
    exact hfg a b hb.symm
  obtain ⟨has, hbs⟩ := append_inj_of_head (hmap as) (hmap as') (hhead bs) (hhead bs') h
  exact ⟨(List.map_inj_right fun _ _ => hf).mp has, (List.map_inj_right fun _ _ => hg).mp hbs⟩

/-- **A node is told by its kind, its labels and its children.** -/
theorem eq_of_parts {n m : Node} (hkind : n.kind = m.kind)
    (hlabels : labelText n.labels = labelText m.labels) (hchildren : n.children = m.children) :
    n = m := by
  have hm := hasForm_kind m
  rw [← hkind] at hm
  clear hkind
  fun_cases children n with
  | case1 p =>
    obtain ⟨⟨blocks⟩, rfl⟩ := hm
    obtain ⟨blocks'⟩ := p
    obtain rfl : blocks' = blocks := (List.map_inj_right fun _ _ => block.inj).mp hchildren
    rfl
  | case2 name fields =>
    obtain ⟨name', fields', rfl⟩ := hm
    obtain rfl := eq_of_labelText (delimits_label "name") hlabels
    obtain rfl := (List.map_inj_right fun _ _ => field.inj).mp hchildren
    rfl
  | case3 name parameters instances =>
    obtain ⟨name', parameters', instances', rfl⟩ := hm
    obtain rfl := eq_of_labelText (delimits_label "name") hlabels
    obtain ⟨rfl, rfl⟩ := map_append_inj parameter.inj dataInstance.inj (by simp) hchildren
    rfl
  | case4 name body =>
    obtain ⟨name', body', rfl⟩ := hm
    obtain rfl := eq_of_labelText (delimits_label "name") hlabels
    obtain rfl := (List.map_inj_right fun _ _ => instruction.inj).mp hchildren
    rfl
  | case5 actions body =>
    obtain ⟨actions', body', rfl⟩ := hm
    obtain rfl := eq_of_labelText (delimits_namesLabel "actions_to_do") hlabels
    obtain rfl := (List.map_inj_right fun _ _ => instruction.inj).mp hchildren
    rfl
  | case6 p =>
    obtain ⟨⟨name', type'⟩, rfl⟩ := hm
    obtain ⟨name, type⟩ := p
    obtain ⟨rfl, rfl⟩ := eq_of_labelText_pair (delimits_label "name")
      (delimits_label "parameter_type") hlabels
    rfl
  | case7 f =>
    obtain ⟨⟨name', type'⟩, rfl⟩ := hm
    obtain ⟨name, type⟩ := f
    obtain ⟨rfl, rfl⟩ := eq_of_labelText_pair (delimits_label "name")
      (delimits_label "field_type") hlabels
    rfl
  | case8 v =>
    obtain ⟨⟨name', value'⟩, rfl⟩ := hm
    obtain ⟨name, value⟩ := v
    obtain ⟨rfl, rfl⟩ := eq_of_labelText_pair (delimits_label "name")
      (delimits_label "value") hlabels
    rfl
  | case9 d =>
    obtain ⟨⟨name', values'⟩, rfl⟩ := hm
    obtain ⟨name, values⟩ := d
    obtain rfl := eq_of_labelText (delimits_label "data_name") hlabels
    obtain rfl := (List.map_inj_right fun _ _ => fieldValue.inj).mp hchildren
    rfl
  | case10 group arguments =>
    obtain ⟨group', arguments', rfl⟩ := hm
    obtain rfl := eq_of_labelText (delimits_label "group_name") hlabels
    obtain rfl : arguments = arguments' :=
      (List.map_inj_right fun _ _ h => Expr.value.inj (expr.inj h)).mp hchildren
    rfl
  | case11 d =>
    obtain ⟨⟨name', value'⟩, rfl⟩ := hm
    obtain ⟨name, value⟩ := d
    obtain rfl := eq_of_labelText (delimits_label "variable_name") hlabels
    obtain rfl := expr.inj (List.cons.inj hchildren).1
    rfl
  | case12 condition body =>
    obtain ⟨condition', body', rfl⟩ := hm
    obtain ⟨hcondition, hbody⟩ := List.cons.inj hchildren
    obtain rfl := expr.inj hcondition
    obtain rfl := (List.map_inj_right fun _ _ => instruction.inj).mp hbody
    rfl
  | case13 names collections body =>
    obtain ⟨names', collections', body', rfl⟩ := hm
    obtain rfl := eq_of_labelText (delimits_namesLabel "values") hlabels
    obtain ⟨rfl, rfl⟩ := map_append_inj expr.inj instruction.inj (by simp) hchildren
    rfl
  | case14 start condition step body =>
    obtain ⟨start', condition', step', body', rfl⟩ := hm
    obtain ⟨hstart, hchildren⟩ := List.cons.inj hchildren
    obtain ⟨hcondition, hchildren⟩ := List.cons.inj hchildren
    obtain ⟨hstep, hbody⟩ := List.cons.inj hchildren
    obtain rfl := Instruction.declare.inj (instruction.inj hstart)
    obtain rfl := expr.inj hcondition
    obtain rfl := Progression.node_inj hstep
    obtain rfl := (List.map_inj_right fun _ _ => instruction.inj).mp hbody
    rfl
  | case15 text =>
    obtain ⟨text', rfl⟩ := hm
    obtain rfl := eq_of_labelText (delimits_label "value") hlabels
    rfl
  | case16 op lhs rhs =>
    obtain ⟨lhs', rhs', rfl⟩ := hm
    obtain ⟨hlhs, hrhs⟩ := List.cons.inj hchildren
    obtain rfl := expr.inj hlhs
    obtain rfl := expr.inj (List.cons.inj hrhs).1
    rfl
  | case17 e =>
    obtain ⟨e', rfl⟩ := hm
    obtain rfl := expr.inj (List.cons.inj hchildren).1
    rfl

/-! ## Trees -/

/-- The line of a node deeper than `d`. -/
def Deeper (d : Nat) (line : String) : Prop := ∃ e > d, ∃ n : Node, line = n.outlineLine (e : Nat)

/-- What is below a node is deeper. -/
theorem deeper_of_mem {d : Nat} {ns : List Node} :
    ∀ line ∈ ns.flatMap (outlineLines (d + 1 : Nat)), Deeper d line := by
  intro line hline
  obtain ⟨n, -, hn⟩ := List.mem_flatMap.mp hline
  rw [outlineLines_eq_map_visits] at hn
  obtain ⟨v, -, rfl⟩ := List.mem_map.mp hn
  exact ⟨d + 1 + v.1.length, by omega, v.2, rfl⟩

/-- What stands behind it is not, to begin with. -/
theorem not_deeper_head? {d : Nat} {ns : List Node} :
    ∀ line ∈ (ns.flatMap (outlineLines d)).head?, ¬ Deeper d line := by
  cases ns with
  | nil => simp
  | cons n ns =>
    rw [List.flatMap_cons, outlineLines_eq]
    rintro line hline ⟨e, hlt, m, rfl⟩
    simp only [List.cons_append, List.head?_cons, Option.mem_some_iff] at hline
    obtain ⟨rfl, -⟩ := eq_of_outlineLine hline
    exact absurd hlt (Nat.lt_irrefl _)

/-- **Trees are told by their lines**, several of them at once. -/
theorem flatMap_outlineLines_inj {d : Nat} {ns ms : List Node}
    (h : ns.flatMap (outlineLines d) = ms.flatMap (outlineLines d)) : ns = ms := by
  -- the induction is that of the pre-order, over the children and over the trees behind
  fun_induction visitsFrom 0 ns generalizing d ms with
  | case1 =>
    cases ms with
    | nil => rfl
    | cons m ms =>
      rw [List.flatMap_cons, outlineLines_eq] at h
      cases h
  | case2 i n ns ihchildren ihbehind =>
    cases ms with
    | nil =>
      rw [List.flatMap_cons, outlineLines_eq] at h
      cases h
    | cons m ms =>
      rw [List.flatMap_cons, List.flatMap_cons, outlineLines_eq, outlineLines_eq, List.cons_append,
        List.cons_append, ← Nat.cast_succ] at h
      obtain ⟨hline, hbehind⟩ := List.cons.inj h
      obtain ⟨hbelow, hbehind⟩ := append_inj_of_head (p := Deeper d) deeper_of_mem deeper_of_mem
        not_deeper_head? not_deeper_head? hbehind
      obtain ⟨-, hkind, hlabels⟩ := eq_of_outlineLine hline
      rw [eq_of_parts hkind hlabels (ihchildren hbelow), ihbehind hbehind]

/-- Trees are told by their outlines, from any depth on that is not negative. -/
theorem outline_inj {n m : Node} {d : Nat} (h : n.outline d = m.outline d) : n = m := by
  have hlines := congrArg lines h
  rw [lines_outline, lines_outline] at hlines
  have hsingle : [n].flatMap (outlineLines d) = [m].flatMap (outlineLines d) := by
    simpa using hlines
  exact List.cons.inj (flatMap_outlineLines_inj hsingle) |>.1

end Node

/-- **The outline of a program loses nothing**: two programs have the same outline exactly if they
are the same, whatever the texts in them are. -/
theorem Program.outline_eq_iff (p q : Program) :
    (Node.program p).outline 0 = (Node.program q).outline 0 ↔ p = q := by
  constructor
  · intro h
    exact Node.program.inj (Node.outline_inj (d := 0) h)
  · rintro rfl
    rfl

end BlockLang
