import BlockLang.Proofs.Text.Places
import BlockLang.Proofs.Text.Quoted
import BlockLang.Proofs.Tree.DataForm
import BlockLang.Tree.Outline

/-!
# Traversals

A tree is walked with a stack, outlined by recursion, and nested in its data form by the order of
the attributes. All three meet the same nodes in the same order, a node before its children: the
order of positions, where the position of a node says which child to take on the way down to it.
-/

namespace BlockLang

open BlockLang.Text

namespace Node

/-! ## Positions -/

/-- The node at a position: the child of each number on the way down. -/
def at? (n : Node) : List Nat → Option Node
  | [] => some n
  | i :: p => n.children[i]?.bind fun c => c.at? p

/-- The nodes of several trees in pre-order, each with its position; the first tree is the child of
number `i`. -/
def visitsFrom (i : Nat) : List Node → List (List Nat × Node)
  | [] => []
  | n :: ns =>
    (([], n) :: visitsFrom 0 n.children).map (fun v => (i :: v.1, v.2)) ++ visitsFrom (i + 1) ns
termination_by ns => sizes ns
decreasing_by
  · rw [sizes_cons, size_eq n]
    omega
  · rw [sizes_cons, size_eq n]
    omega

/-- **The pre-order of a tree**: the node, then those below it child by child. -/
def visits (n : Node) : List (List Nat × Node) := ([], n) :: visitsFrom 0 n.children

theorem visitsFrom_cons (i : Nat) (n : Node) (ns : List Node) :
    visitsFrom i (n :: ns) =
      n.visits.map (fun v => (i :: v.1, v.2)) ++ visitsFrom (i + 1) ns := by
  rw [visitsFrom, visits]

/-- What stands where below a node, if the same is known of its children. -/
theorem mem_cons_visitsFrom {n m : Node} {p : List Nat}
    (h : ∀ q, (q, m) ∈ visitsFrom 0 n.children ↔
      ∃ j r, q = (0 + j) :: r ∧ n.children[j]?.bind (·.at? r) = some m) :
    (p, m) ∈ ([], n) :: visitsFrom 0 n.children ↔ n.at? p = some m := by
  rw [List.mem_cons, h]
  cases p with
  | nil => simp [at?, eq_comm]
  | cons j p => simp [at?]

/-- What stands where in several trees. -/
theorem mem_visitsFrom {i : Nat} {ns : List Node} {p : List Nat} {m : Node} :
    (p, m) ∈ visitsFrom i ns ↔ ∃ j q, p = (i + j) :: q ∧ ns[j]?.bind (·.at? q) = some m := by
  fun_induction visitsFrom i ns generalizing p with
  | case1 => simp
  | case2 i n ns ih ih' =>
    have hfirst : (p, m) ∈ (([], n) :: visitsFrom 0 n.children).map (fun v => (i :: v.1, v.2)) ↔
        ∃ q, p = i :: q ∧ n.at? q = some m := by
      simp only [List.mem_map, Prod.exists, Prod.mk.injEq]
      constructor
      · rintro ⟨q, _, hq, rfl, rfl⟩
        exact ⟨q, rfl, (mem_cons_visitsFrom fun _ => ih).mp hq⟩
      · rintro ⟨q, rfl, hq⟩
        exact ⟨q, m, (mem_cons_visitsFrom fun _ => ih).mpr hq, rfl, rfl⟩
    rw [List.mem_append, hfirst, ih']
    constructor
    · rintro (⟨q, rfl, hq⟩ | ⟨j, q, rfl, hq⟩)
      · exact ⟨0, q, rfl, hq⟩
      · exact ⟨j + 1, q, by rw [Nat.add_assoc, Nat.add_comm 1], hq⟩
    · rintro ⟨j, q, rfl, hq⟩
      cases j with
      | zero => exact .inl ⟨q, rfl, hq⟩
      | succ j => exact .inr ⟨j, q, by rw [Nat.add_assoc, Nat.add_comm 1], hq⟩

/-- **Every node below a tree is visited**, at its position and nowhere else. -/
theorem mem_visits {n m : Node} {p : List Nat} : (p, m) ∈ n.visits ↔ n.at? p = some m :=
  mem_cons_visitsFrom fun _ => mem_visitsFrom

theorem pairwise_visitsFrom (i : Nat) (ns : List Node) :
    (visitsFrom i ns).Pairwise fun v w => v.1 < w.1 := by
  fun_induction visitsFrom i ns with
  | case1 => exact .nil
  | case2 i n ns ih ih' =>
    refine List.pairwise_append.mpr ⟨List.pairwise_map.mpr ?_, ih', ?_⟩
    · refine List.pairwise_cons.mpr ⟨?_, ?_⟩
      · rintro ⟨p, m⟩ hp
        obtain ⟨j, q, rfl, -⟩ := mem_visitsFrom.mp hp
        simp
      · exact ih.imp fun h => by simpa [List.cons_lt_cons_iff] using h
    · rintro v hv ⟨q, m⟩ hq
      obtain ⟨w, -, rfl⟩ := List.mem_map.mp hv
      obtain ⟨j, r, rfl, -⟩ := mem_visitsFrom.mp hq
      exact List.cons_lt_cons_iff.mpr (.inl (by omega))

/-- **The nodes are visited in the order of their positions**, so each of them once and a node
before those below it. -/
theorem pairwise_visits (n : Node) : n.visits.Pairwise fun v w => v.1 < w.1 := by
  have h := pairwise_visitsFrom 0 [n]
  rw [visitsFrom_cons, visitsFrom, List.append_nil, List.pairwise_map] at h
  exact h.imp fun h => by simpa [List.cons_lt_cons_iff] using h

/-! ## Recursion in pre-order -/

section

variable {β : Type} {f : Nat → Node → β} {F : Nat → Node → List β}

/-- What is done for several trees, if for each of them something is done for its node and then the
same for its children, one deeper. -/
theorem flatMap_eq_map_visitsFrom (h : ∀ d n, F d n = f d n :: n.children.flatMap (F (d + 1)))
    (d i : Nat) (ns : List Node) :
    ns.flatMap (F (d + 1)) = (visitsFrom i ns).map fun v => f (d + v.1.length) v.2 := by
  fun_induction visitsFrom i ns generalizing d with
  | case1 => rfl
  | case2 i n ns ih ih' =>
    have hdepth : ∀ p : List Nat, d + (p.length + 1) = d + 1 + p.length := by omega
    rw [List.flatMap_cons, h, ih (d + 1), ih', List.map_append, List.map_map]
    simp [Function.comp_def, hdepth]

/-- **Recursion in pre-order**: something is done for a node and then the same for its children, one
deeper. -/
theorem eq_map_visits (h : ∀ d n, F d n = f d n :: n.children.flatMap (F (d + 1))) (d : Nat)
    (n : Node) : F d n = n.visits.map fun v => f (d + v.1.length) v.2 := by
  rw [h, visits, flatMap_eq_map_visitsFrom h d 0, List.map_cons]
  rfl

end

/-! ## Walking -/

/-- **A walk with a stack**: the tree at the top is visited and its children are put in its place,
for as long as there is one. -/
inductive Walks : List Node → List Node → Prop
  | done : Walks [] []
  | pop {n stack visited} : Walks (n.children ++ stack) visited → Walks (n :: stack) (n :: visited)

theorem walks_walkAll (stack : List Node) : Walks stack (walkAll stack) := by
  fun_induction walkAll stack with
  | case1 => exact .done
  | case2 n stack ih => exact .pop ih

/-- **The walk of a tree ends.** -/
theorem walks_walk (n : Node) : Walks [n] n.walk := walks_walkAll [n]

theorem walkAll_append (ns ms : List Node) : walkAll (ns ++ ms) = walkAll ns ++ walkAll ms := by
  fun_induction walkAll ns with
  | case1 => rfl
  | case2 n stack ih =>
    rw [List.cons_append, walkAll, List.cons_append, ← ih, List.append_assoc]

theorem walkAll_eq_flatMap (ns : List Node) : walkAll ns = ns.flatMap walk := by
  induction ns with
  | nil => rw [walkAll, List.flatMap_nil]
  | cons n ns ih =>
    have hsplit := walkAll_append [n] ns
    rw [List.singleton_append] at hsplit
    rw [hsplit, ih, List.flatMap_cons, walk]

theorem walk_eq (n : Node) : n.walk = n :: n.children.flatMap walk := by
  rw [walk, walkAll, List.append_nil, walkAll_eq_flatMap]

/-- **The walk is the pre-order.** -/
theorem walk_eq_map_visits (n : Node) : n.walk = n.visits.map Prod.snd :=
  eq_map_visits (F := fun _ => walk) (fun _ => walk_eq) 0 n

theorem count_singleton (n : Node) : count [n] = n.visits.length := by
  simp [count, walk_eq_map_visits]

/-! ## Outlining -/

theorem outlineLines_eq (d : Int) (n : Node) :
    outlineLines d n = n.outlineLine d :: n.children.flatMap (outlineLines (d + 1)) := by
  rw [outlineLines, List.flatMap_subtype (g := outlineLines (d + 1)) fun _ _ => rfl,
    List.unattach_attach]

/-- **The lines of an outline are in pre-order**, each at the depth of its node. -/
theorem outlineLines_eq_map_visits (d : Int) (n : Node) :
    outlineLines d n = n.visits.map fun v => v.2.outlineLine (d + v.1.length) := by
  have h := eq_map_visits (F := fun k n => outlineLines (d + k) n)
    (f := fun k n => n.outlineLine (d + k)) (fun k n => ?_) 0 n
  · simpa using h
  · rw [outlineLines_eq, Nat.cast_succ, Int.add_assoc]

@[simp] theorem oneLine_label {name text : String} : OneLine (label name text) ↔ OneLine name := by
  have heq : OneLine "=" := by decide
  simp [label, oneLine_quoted, heq]

@[simp] theorem oneLine_namesLabel {name : String} {texts : List String} :
    OneLine (namesLabel name texts) ↔ OneLine name := by
  have htexts : OneLine (", ".intercalate (texts.map quoted)) := by
    refine oneLine_intercalate (by decide) fun l hl => ?_
    obtain ⟨s, -, rfl⟩ := List.mem_map.mp hl
    exact oneLine_quoted s
  have hopen : OneLine "=[" := by decide
  have hclose : OneLine "]" := by decide
  simp [namesLabel, htexts, hopen, hclose]

theorem oneLine_labels (n : Node) : ∀ l ∈ n.labels, OneLine l := by
  fun_cases labels n <;> simp <;> decide

theorem oneLine_labelText {ls : List String} (h : ∀ l ∈ ls, OneLine l) :
    OneLine (labelText ls) := by
  cases ls with
  | nil => simp [labelText, OneLine]
  | cons l ls =>
    simp only [labelText, oneLine_append]
    exact ⟨⟨by decide, oneLine_intercalate (by decide) h⟩, by decide⟩

/-- **No line of an outline is broken.** -/
theorem oneLine_outlineLine (d : Int) (n : Node) : OneLine (n.outlineLine d) := by
  simp only [outlineLine, oneLine_append]
  refine ⟨⟨?_, ?_⟩, oneLine_labelText n.oneLine_labels⟩
  · simp [OneLine, spaces]
  · cases n.kind with
    | binary op => cases op <;> decide
    | _ => decide

/-- **The lines of an outline** are the lines of its nodes. -/
theorem lines_outline (n : Node) (d : Int) : lines (n.outline d) = outlineLines d n := by
  refine lines_unlines (by rw [outlineLines_eq]; simp) fun l hl => ?_
  rw [outlineLines_eq_map_visits] at hl
  obtain ⟨v, -, rfl⟩ := List.mem_map.mp hl
  exact oneLine_outlineLine _ _

/-- A line shows a kind behind so many spaces, and behind it nothing or something in
parentheses. -/
def Shows (indent : Int) (kind : NodeKind) (line : String) : Prop :=
  ∃ tail, line = spaces indent ++ kind.tag ++ tail ∧
    (tail = "" ∨ ∃ inner, tail = " (" ++ inner ++ ")")

theorem shows_outlineLine (d : Int) (n : Node) : Shows (2 * d) n.kind (n.outlineLine d) := by
  refine ⟨labelText n.labels, rfl, ?_⟩
  cases n.labels with
  | nil => exact .inl rfl
  | cons l ls => exact .inr ⟨_, rfl⟩

end Node

/-! ## Nesting -/

namespace Json

mutual

/-- **The kinds of the objects in a value**, that of an object in front of those in its members. -/
def kinds : Json → List LooseText
  | object members =>
    (match Table.find? (.ofString "kind") members with
      | some (.text kind) => [kind]
      | _ => []) ++ membersKinds members
  | array items => itemsKinds items
  | _ => []

/-- The kinds of the objects in several values. -/
def itemsKinds : List Json → List LooseText
  | [] => []
  | item :: items => item.kinds ++ itemsKinds items

/-- The kinds of the objects in the values of members. -/
def membersKinds : List (LooseText × Json) → List LooseText
  | [] => []
  | (_, v) :: members => v.kinds ++ membersKinds members

end

theorem itemsKinds_eq (items : List Json) : itemsKinds items = items.flatMap kinds := by
  induction items with
  | nil => rfl
  | cons item items ih => rw [itemsKinds, ih, List.flatMap_cons]

theorem membersKinds_eq (members : List (LooseText × Json)) :
    membersKinds members = members.flatMap fun m => m.2.kinds := by
  induction members with
  | nil => rfl
  | cons m members ih => rw [membersKinds, ih, List.flatMap_cons]

end Json

namespace Record

@[simp] theorem kinds_text (s : String) : (text s).json.kinds = [] := by
  rw [json, Json.kinds]
  all_goals simp

@[simp] theorem kinds_names (ss : List String) : (names ss).json.kinds = [] := by
  rw [json, Json.kinds, Json.itemsKinds_eq, List.flatMap_map]
  simp [Json.kinds]

@[simp] theorem kinds_parts (rs : List Record) :
    (parts rs).json.kinds = rs.flatMap fun r => r.json.kinds := by
  rw [json, Json.kinds, Json.itemsKinds_eq, jsons_eq, List.flatMap_map]

@[simp] theorem kinds_node (kind : NodeKind) (attributes : List (String × Record)) :
    (node kind attributes).json.kinds =
      .ofString kind.tag :: attributes.flatMap fun a => a.2.json.kinds := by
  rw [json, Json.kinds, Table.find?, if_pos (beq_self_eq_true _), Json.membersKinds_eq,
    jsonMembers_eq, List.flatMap_cons, List.flatMap_map]
  simp [Json.kinds]

end Record

namespace Node

/-- **The data form nests the children of a node in their order.** -/
theorem kinds_json (n : Node) :
    n.json.kinds = .ofString n.kind.tag :: n.children.flatMap fun c => c.json.kinds := by
  fun_cases children n with
  | case1 p => simp [json, record, kind, Program.record, List.flatMap_map]
  | case2 | case3 => simp [json, record, kind, Block.record, Block.kind, List.flatMap_map]
  | case4 | case5 =>
    simp [json, record, kind, Block.record, Block.kind, Instruction.bodyRecords_eq,
      List.flatMap_map]
  | case6 p => simp [json, record, kind, Parameter.record]
  | case7 f => simp [json, record, kind, Field.record]
  | case8 v => simp [json, record, kind, FieldValue.record]
  | case9 d => simp [json, record, kind, DataInstance.record, List.flatMap_map]
  | case10 | case12 | case13 =>
    simp [json, record, kind, Instruction.record, Instruction.kind, Instruction.bodyRecords_eq,
      List.flatMap_map]
  | case11 d => simp [json, record, kind, Instruction.record, Instruction.kind, Declaration.record]
  | case14 start condition step body =>
    have hstep : step.record = step.node.record := by cases step <;> rfl
    simp [json, record, kind, Instruction.record, Instruction.kind, Instruction.bodyRecords_eq,
      List.flatMap_map, hstep]
  | case15 | case16 => simp [json, record, kind, Expr.record, Expr.kind]
  | case17 e => simp [json, record, kind, Expr.evaluationRecord]

theorem kinds_json_eq_map_visits (n : Node) :
    n.json.kinds = n.visits.map fun v => .ofString v.2.kind.tag :=
  eq_map_visits (F := fun _ n => n.json.kinds) (fun _ => kinds_json) 0 n

/-! ## All of them -/

/-- **The traversals agree.** The walk of a tree with a stack ends, and it is the pre-order: it
visits what stands at every position below the tree, in the order of positions. The outline from any
depth on has a line for every node, which shows the kind of the node behind two spaces for every
step down to it; and the kinds in the data form are those of the walk. -/
theorem traversals_agree (n : Node) (i : Int) :
    Walks [n] n.walk ∧ n.walk = n.visits.map Prod.snd ∧
      (∀ p m, (p, m) ∈ n.visits ↔ n.at? p = some m) ∧
      n.visits.Pairwise (fun v w => v.1 < w.1) ∧
      (lines (n.outline i)).length = count [n] ∧
      List.Forall₂ (fun v line => Shows (2 * (i + v.1.length)) v.2.kind line)
        n.visits (lines (n.outline i)) ∧
      n.json.kinds = n.walk.map fun m => .ofString m.kind.tag := by
  have hlines : lines (n.outline i) = n.visits.map fun v => v.2.outlineLine (i + v.1.length) := by
    rw [lines_outline, outlineLines_eq_map_visits]
  refine ⟨n.walks_walk, n.walk_eq_map_visits, fun _ _ => mem_visits, n.pairwise_visits, ?_, ?_, ?_⟩
  · rw [hlines, List.length_map, count_singleton]
  · rw [hlines, List.forall₂_map_right_iff]
    exact List.forall₂_same.mpr fun v _ => shows_outlineLine _ _
  · rw [kinds_json_eq_map_visits, walk_eq_map_visits, List.map_map]
    rfl

end Node

end BlockLang
