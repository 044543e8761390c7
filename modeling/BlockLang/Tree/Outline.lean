import BlockLang.Text.Lines
import BlockLang.Text.Quoted
import BlockLang.Tree.Node

/-!
# Outlines

An outline has one line for every node, two spaces deeper than the node it belongs to: the kind,
and behind it the names and texts of the node. Texts are quoted, so no line is ever broken.
-/

namespace BlockLang

open BlockLang.Text

namespace Node

/-- A text of a node under its name. -/
def label (name text : String) : String := name ++ "=" ++ quoted text

/-- A set of names of a node under its name. -/
def namesLabel (name : String) (texts : List String) : String :=
  name ++ "=[" ++ ", ".intercalate (texts.map quoted) ++ "]"

/-- The names and texts of a node that are no nodes of their own. -/
def labels : Node → List String
  | program _ => []
  | block (.data name _) | block (.group name _ _) | block (.action name _) => [label "name" name]
  | block (.run actions _) => [namesLabel "actions_to_do" actions]
  | parameter p => [label "name" p.name, label "parameter_type" p.type]
  | field f => [label "name" f.name, label "field_type" f.type]
  | fieldValue v => [label "name" v.name, label "value" v.value]
  | dataInstance d => [label "data_name" d.name]
  | instruction (.create group _) => [label "group_name" group]
  | instruction (.declare d) => [label "variable_name" d.name]
  | instruction (.foreach names _ _) => [namesLabel "values" names]
  | instruction (.branch ..) | instruction (.loop ..) => []
  | expr (.value text) => [label "value" text]
  | expr (.binary ..) | evaluation _ => []

/-- The labels of a node between parentheses, if it has any. -/
def labelText : List String → String
  | [] => ""
  | ls => " (" ++ ", ".intercalate ls ++ ")"

/-- The line of a node at a depth. -/
def outlineLine (depth : Int) (n : Node) : String :=
  spaces (2 * depth) ++ n.kind.tag ++ labelText n.labels

/-- The lines of a node at a depth and of all below it. -/
def outlineLines (depth : Int) (n : Node) : List String :=
  n.outlineLine depth :: n.children.attach.flatMap fun c => outlineLines (depth + 1) c.1
termination_by n.size
decreasing_by exact size_lt_of_mem_children c.2

/-- The outline of a node, starting at a depth. -/
def outline (n : Node) (depth : Int) : String := unlines (outlineLines depth n)

end Node

end BlockLang
