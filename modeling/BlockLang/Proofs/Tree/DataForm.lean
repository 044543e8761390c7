import BlockLang.Proofs.Json.Written
import BlockLang.Source.Render
import BlockLang.Tree.Assembly

/-!
# The data form of trees

The data form of a tree offers the tree again when it is read as one, so trees with the same data
form are the same. It is a value made of texts, so the indented text of it denotes it: nothing is
lost on the way from a program to its text.

What a record offers is put together from what its attributes offer, one lemma for nodes of any
kind; the kinds differ only in what they assemble.
-/

namespace BlockLang

open BlockLang.Text

/-- **What a record offers**: its data form is made of texts, and read back it is `d`. -/
structure Record.Offers (r : Record) (d : Datum) : Prop where
  textual : r.json.Textual
  ofJson : Datum.ofJson r.json = .ok d

/-! ## Texts and lists -/

theorem LooseText.filled_ofString (s : String) : (LooseText.ofString s).filled = s := by
  simp [LooseText.filled, LooseText.ofString, Function.comp_def, Point.char?]

namespace Record

theorem offers_text (s : String) : (text s).Offers (.text s) where
  textual := .text s
  ofJson := by rw [json, Datum.ofJson, LooseText.filled_ofString]

theorem jsons_eq (rs : List Record) : jsons rs = rs.map json := by
  induction rs with
  | nil => rfl
  | cons r rs ih => rw [jsons, ih, List.map_cons]

theorem ofItems_eq {α : Type} {f : α → Json} {g : α → Datum} (as : List α)
    (h : ∀ a ∈ as, Datum.ofJson (f a) = .ok (g a)) :
    Datum.ofItems (as.map f) = .ok (as.map g) := by
  induction as with
  | nil => rfl
  | cons a as ih =>
    rw [List.forall_mem_cons] at h
    rw [List.map_cons, Datum.ofItems, h.1, ih h.2]
    rfl

theorem offers_names (ss : List String) : (names ss).Offers (.list (ss.map .text)) where
  textual := by
    rw [json]
    refine .array fun item hitem => ?_
    obtain ⟨s, -, rfl⟩ := List.mem_map.mp hitem
    exact .text s
  ofJson := by
    have hitems := ofItems_eq ss fun s _ => (offers_text s).ofJson
    rw [json, Datum.ofJson]
    change (Datum.ofItems (ss.map fun s => (text s).json)).map _ = _
    rw [hitems]
    rfl

theorem offers_parts {α : Type} {f : α → Record} {g : α → Datum} (as : List α)
    (h : ∀ a ∈ as, (f a).Offers (g a)) : (parts (as.map f)).Offers (.list (as.map g)) where
  textual := by
    rw [json, jsons_eq, List.map_map]
    refine .array fun item hitem => ?_
    obtain ⟨a, ha, rfl⟩ := List.mem_map.mp hitem
    exact (h a ha).textual
  ofJson := by
    have hitems := ofItems_eq as fun a ha => (h a ha).ofJson
    rw [json, jsons_eq, List.map_map, Datum.ofJson]
    change (Datum.ofItems (as.map fun a => (f a).json)).map _ = _
    rw [hitems]
    rfl

/-! ## Nodes -/

theorem jsonMembers_eq (as : List (String × Record)) :
    jsonMembers as = as.map fun a => (.ofString a.1, a.2.json) := by
  induction as with
  | nil => rfl
  | cons a as ih => rw [jsonMembers, ih, List.map_cons]

/-- The slots of a kind have different names, and none of them is the name of the kind. -/
theorem nodup_attributeNames (kind : NodeKind) : ("kind" :: Node.attributeNames kind).Nodup := by
  cases kind <;> simp [Node.attributeNames]

/-- An attribute of a node: its name, its record and what the record offers. -/
structure Slot where
  name : String
  record : Record
  datum : Datum
  offers : record.Offers datum

namespace Slot

/-- An attribute that is a text. -/
def text (name s : String) : Slot := ⟨name, .text s, .text s, offers_text s⟩

/-- An attribute that is a list of names. -/
def names (name : String) (ss : List String) : Slot :=
  ⟨name, .names ss, .list (ss.map .text), offers_names ss⟩

/-- An attribute that is a single node. -/
def child (name : String) {r : Record} {n : Node} (h : r.Offers (.node n)) : Slot :=
  ⟨name, r, .node n, h⟩

/-- An attribute that is a list of nodes. -/
def children (name : String) {α : Type} {f : α → Record} {g : α → Node} (as : List α)
    (h : ∀ a ∈ as, (f a).Offers (.node (g a))) : Slot :=
  ⟨name, .parts (as.map f), .list (as.map fun a => .node (g a)), offers_parts as h⟩

end Slot

/-- What the members of a node offer, slot by slot. -/
theorem ofMembers_eq (slots : List Slot) :
    Datum.ofMembers (jsonMembers (slots.map fun s => (s.name, s.record))) =
      slots.map fun s => (s.name, .ok s.datum) := by
  induction slots with
  | nil => rfl
  | cons s slots ih =>
    rw [List.map_cons, jsonMembers, Datum.ofMembers, s.offers.ofJson, ih,
      LooseText.filled_ofString]
    rfl

/-- Slots that are found are gathered in their order. -/
theorem gather_eq (slots : List Slot) {parts : List (String × Except Misfit Datum)}
    (h : ∀ s ∈ slots, Table.find? s.name parts = some (.ok s.datum)) :
    Datum.gather parts (slots.map (·.name)) = .ok (slots.map fun s => (s.name, s.datum)) := by
  induction slots with
  | nil => rfl
  | cons s slots ih =>
    rw [List.forall_mem_cons] at h
    rw [List.map_cons, Datum.gather, h.1, ih h.2]
    rfl

/-- **What a node offers**: what its kind assembles from what its slots offer. -/
theorem offers_node {kind : NodeKind} {n : Node} (slots : List Slot)
    (hnames : slots.map (·.name) = Node.attributeNames kind)
    (hn : Node.assemble kind (fun name =>
      (Table.find? name (slots.map fun s => (s.name, s.datum))).getD .null) = .ok n) :
    (node kind (slots.map fun s => (s.name, s.record))).Offers (.node n) where
  textual := by
    have hkeys := nodup_attributeNames kind
    rw [← hnames] at hkeys
    rw [json, jsonMembers_eq, List.map_map]
    refine .object ?_ ?_ ?_
    · have hmap := hkeys.map fun _ _ => LooseText.ofString_inj
      simpa [Function.comp_def] using hmap
    · rintro m hm
      rcases List.mem_cons.mp hm with rfl | hm
      · exact ⟨_, rfl⟩
      · obtain ⟨s, -, rfl⟩ := List.mem_map.mp hm
        exact ⟨_, rfl⟩
    · rintro m hm
      rcases List.mem_cons.mp hm with rfl | hm
      · exact .text _
      · obtain ⟨s, -, rfl⟩ := List.mem_map.mp hm
        exact s.offers.textual
  ofJson := by
    have hkeys := nodup_attributeNames kind
    rw [← hnames] at hkeys
    -- the kind is under its name, and behind it every slot is found under its own
    have hkind : Table.find? (.ofString "kind") ((.ofString "kind", .text (.ofString kind.tag)) ::
        jsonMembers (slots.map fun s => (s.name, s.record))) =
          some (Json.text (.ofString kind.tag)) := by
      rw [Table.find?, if_pos (beq_self_eq_true _)]
    have hparts : ∀ s ∈ slots, Table.find? s.name
        (("kind", .ok (.text kind.tag)) :: slots.map fun s => (s.name, .ok s.datum)) =
          some (.ok s.datum : Except Misfit Datum) := by
      intro s hs
      refine Table.find?_of_mem ?_ (List.mem_cons_of_mem _ (List.mem_map_of_mem hs))
      simpa [Function.comp_def] using hkeys
    rw [json, Datum.ofJson, Datum.ofMembers, Datum.ofJson, LooseText.filled_ofString,
      LooseText.filled_ofString, Datum.assembleObject, hkind, ofMembers_eq slots]
    simp only [Option.bind_some, LooseText.toString?_ofString, NodeKind.ofTag?_tag]
    rw [← hnames, gather_eq slots hparts]
    change (do return Datum.node (← Node.assemble kind _)) = _
    rw [hn]
    rfl

end Record

/-! ## Every tree -/

/-- A sequence of admitted elements is admitted. -/
theorem Node.sequence_map {α : Type} {owner : NodeKind} {slot : String}
    {accept : Datum → Option α} {g : α → Datum} (as : List α) (h : ∀ a, accept (g a) = some a) :
    sequence owner slot accept (.list (as.map g)) = .ok as := by
  rw [sequence]
  induction as with
  | nil => rfl
  | cons a as ih =>
    rw [List.map_cons, elements, h]
    simp only [ih]
    rfl

theorem Node.child_eq {α : Type} {owner : NodeKind} {slot : String} {accept : Datum → Option α}
    {d : Datum} {a : α} (h : accept d = some a) : child owner slot accept d = .ok a := by
  rw [child, h]

open Record

theorem Expr.offers (e : Expr) : e.record.Offers (.node (.expr e)) := by
  induction e with
  | value s => exact offers_node [.text "value" s] rfl rfl
  | binary op lhs rhs ihl ihr => exact offers_node [.child "lhs" ihl, .child "rhs" ihr] rfl rfl

theorem Field.offers (f : Field) : f.record.Offers (.node (.field f)) :=
  offers_node [.text "name" f.name, .text "field_type" f.type] rfl rfl

theorem Parameter.offers (p : Parameter) : p.record.Offers (.node (.parameter p)) :=
  offers_node [.text "name" p.name, .text "parameter_type" p.type] rfl rfl

theorem FieldValue.offers (v : FieldValue) : v.record.Offers (.node (.fieldValue v)) :=
  offers_node [.text "name" v.name, .text "value" v.value] rfl rfl

theorem DataInstance.offers (d : DataInstance) : d.record.Offers (.node (.dataInstance d)) := by
  refine offers_node [.text "data_name" d.name,
    .children "field_values" d.values fun v _ => v.offers] rfl ?_
  change (do return Node.dataInstance ⟨d.name, ← Node.sequence _ _ _ (.list (d.values.map _))⟩) = _
  rw [Node.sequence_map d.values]
  · rfl
  · exact fun _ => rfl

theorem Declaration.offers (d : Declaration) :
    d.record.Offers (.node (.instruction (.declare d))) :=
  offers_node [.text "variable_name" d.name, .child "value" d.value.offers] rfl rfl

theorem Expr.evaluation_offers (e : Expr) : e.evaluationRecord.Offers (.node (.evaluation e)) :=
  offers_node [.child "value" e.offers] rfl rfl

theorem Progression.offers (p : Progression) : p.record.Offers (.node p.node) := by
  cases p with
  | assign d => exact d.offers
  | evaluate e => exact e.evaluation_offers

theorem Progression.progression?_node (p : Progression) :
    Datum.progression? (.node p.node) = some p := by
  cases p <;> rfl

namespace Instruction

theorem bodyRecords_eq (body : List Instruction) : bodyRecords body = body.map record := by
  induction body with
  | nil => rfl
  | cons i is ih => rw [bodyRecords, ih, List.map_cons]

mutual

/-- **The data form of an instruction** offers it. -/
theorem offers : ∀ i : Instruction, i.record.Offers (.node (.instruction i))
  | create group arguments => by
    refine offers_node [.text "group_name" group,
      .children "parameter_values" arguments fun s _ => (Expr.value s).offers] rfl ?_
    change (do return Node.instruction (.create group
      (← Node.sequence _ _ _ (.list (arguments.map _))))) = _
    rw [Node.sequence_map arguments]
    · rfl
    · exact fun _ => rfl
  | declare d => d.offers
  | branch condition body => by
    rw [record, bodyRecords_eq]
    refine offers_node [.child "condition" condition.offers,
      .children "instructions" body (body_offers body)] rfl ?_
    change (do return Node.instruction (.branch condition
      (← Node.sequence _ _ _ (.list (body.map _))))) = _
    rw [Node.sequence_map body]
    · rfl
    · exact fun _ => rfl
  | foreach ns collections body => by
    rw [record, bodyRecords_eq]
    refine offers_node [.names "values" ns,
      .children "collections" collections fun e _ => e.offers,
      .children "instructions" body (body_offers body)] rfl ?_
    change (do return Node.instruction (.foreach
      (← Node.sequence _ _ _ (.list (ns.map _)))
      (← Node.sequence _ _ _ (.list (collections.map _)))
      (← Node.sequence _ _ _ (.list (body.map _))))) = _
    rw [Node.sequence_map ns, Node.sequence_map collections, Node.sequence_map body]
    · rfl
    all_goals exact fun _ => rfl
  | loop start condition step body => by
    rw [record, bodyRecords_eq]
    refine offers_node [.child "declaration" start.offers, .child "condition" condition.offers,
      .child "progression" step.offers, .children "instructions" body (body_offers body)] rfl ?_
    change (do return Node.instruction (.loop start condition
      (← Node.child _ _ _ (.node step.node)) (← Node.sequence _ _ _ (.list (body.map _))))) = _
    rw [Node.child_eq step.progression?_node, Node.sequence_map body]
    · rfl
    · exact fun _ => rfl

theorem body_offers : ∀ body : List Instruction,
    ∀ i ∈ body, i.record.Offers (.node (.instruction i))
  | [] => fun _ h => absurd h List.not_mem_nil
  | i :: is => List.forall_mem_cons.mpr ⟨offers i, body_offers is⟩

end

end Instruction

theorem Block.offers (b : Block) : b.record.Offers (.node (.block b)) := by
  cases b with
  | data name fields =>
    refine offers_node [.text "name" name, .children "fields" fields fun f _ => f.offers] rfl ?_
    change (do return Node.block (.data name (← Node.sequence _ _ _ (.list (fields.map _))))) = _
    rw [Node.sequence_map fields]
    · rfl
    · exact fun _ => rfl
  | group name parameters instances =>
    refine offers_node [.text "name" name,
      .children "parameters" parameters fun p _ => p.offers,
      .children "data_instanciations" instances fun d _ => d.offers] rfl ?_
    change (do return Node.block (.group name (← Node.sequence _ _ _ (.list (parameters.map _)))
      (← Node.sequence _ _ _ (.list (instances.map _))))) = _
    rw [Node.sequence_map parameters, Node.sequence_map instances]
    · rfl
    all_goals exact fun _ => rfl
  | action name body =>
    rw [record, Instruction.bodyRecords_eq]
    refine offers_node [.text "name" name,
      .children "instructions" body (Instruction.body_offers body)] rfl ?_
    change (do return Node.block (.action name (← Node.sequence _ _ _ (.list (body.map _))))) = _
    rw [Node.sequence_map body]
    · rfl
    · exact fun _ => rfl
  | run actions body =>
    rw [record, Instruction.bodyRecords_eq]
    refine offers_node [.names "actions_to_do" actions,
      .children "instructions" body (Instruction.body_offers body)] rfl ?_
    change (do return Node.block (.run (← Node.sequence _ _ _ (.list (actions.map _)))
      (← Node.sequence _ _ _ (.list (body.map _))))) = _
    rw [Node.sequence_map actions, Node.sequence_map body]
    · rfl
    all_goals exact fun _ => rfl

theorem Program.offers (p : Program) : p.record.Offers (.node (.program p)) := by
  refine offers_node [.children "blocks" p.blocks fun b _ => b.offers] rfl ?_
  change (do return Node.program ⟨← Node.sequence _ _ _ (.list (p.blocks.map _))⟩) = _
  rw [Node.sequence_map p.blocks]
  · rfl
  · exact fun _ => rfl

namespace Node

/-- **The data form of a tree** is made of texts and offers the tree. -/
theorem offers (n : Node) : n.record.Offers (.node n) := by
  cases n with
  | program p => exact p.offers
  | block b => exact b.offers
  | parameter p => exact p.offers
  | field f => exact f.offers
  | fieldValue v => exact v.offers
  | dataInstance d => exact d.offers
  | instruction i => exact i.offers
  | expr e => exact e.offers
  | evaluation e => exact e.evaluation_offers

/-- Trees with the same data form are the same. -/
theorem json_inj {n m : Node} (h : n.json = m.json) : n = m := by
  have hn := n.offers.ofJson
  have hm := m.offers.ofJson
  change Datum.ofJson n.json = _ at hn
  rw [h] at hn
  cases hn.symm.trans hm
  rfl

end Node

/-! ## The text of a program -/

/-- The text of a program in the data form denotes the data form. -/
theorem Program.read_render {p : Program} {text : String} (h : p.render .data = .ok text) :
    Json.read text.toList = .ok (Node.program p).json := by
  cases h
  rw [String.toList_ofList]
  exact (Node.program p).offers.textual.read_pretty

/-- **The data form of a program loses nothing.** Its text is ASCII and denotes the data form of the
program, and two programs have the same text exactly if they are the same. -/
theorem Program.render_data (p q : Program) :
    (∃ text, p.render .data = .ok text ∧ Json.Ascii text.toList ∧
      Json.read text.toList = .ok (Node.program p).json) ∧
      (p.render .data = q.render .data ↔ p = q) := by
  have hascii : Json.Ascii (String.ofList ((Node.program p).json.pretty 0)).toList := by
    rw [String.toList_ofList]
    exact (Node.program p).offers.textual.ascii 0
  refine ⟨⟨_, rfl, hascii, read_render rfl⟩, fun h => ?_, fun h => h ▸ rfl⟩
  have hp := read_render (p := p) rfl
  have hq := read_render (p := q) h.symm
  cases Node.json_inj (Except.ok.inj (hp.symm.trans hq))
  rfl

end BlockLang
