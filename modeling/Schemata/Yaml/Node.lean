import Schemata.Pointer
import Schemata.Text.Quoted
import Schemata.Yaml.Cursor
import Schemata.Yaml.Tag

/-!
# `Schemata.Yaml.Node` — the tree of a YAML text

## Contents
- `Node`, a scalar, a sequence or a mapping with its tag and the place where it starts. An alias is the
  node that it refers to.
- `Node.mark`, `Node.tag`, and `Node.keyText`, the text of a node that serves as a key.
-/

namespace Schemata.Yaml

/-- A node of the tree of a text. -/
inductive Node
  | scalar (mark : Mark) (tag : Tag) (text : String)
  | sequence (mark : Mark) (tag : Tag) (items : List Node)
  | mapping (mark : Mark) (tag : Tag) (entries : List (Node × Node))

namespace Node

/-- Where a node starts. -/
def mark : Node → Mark
  | .scalar mark _ _ => mark
  | .sequence mark _ _ => mark
  | .mapping mark _ _ => mark

/-- What a node stands for. -/
def tag : Node → Tag
  | .scalar _ tag _ => tag
  | .sequence _ tag _ => tag
  | .mapping _ tag _ => tag

/-- Joins descriptions as a list. -/
def listed (descriptions : List String) : String := "[" ++ ", ".intercalate descriptions ++ "]"

/-- A sort of node with a tag and a content in full. -/
def described (sort : String) (tag : Tag) (content : String) : String :=
  sort ++ "(tag=" ++ Text.quoteText tag.uri ++ ", value=" ++ content ++ ")"

mutual

/-- A node in full. -/
def describe : Node → String
  | .scalar _ tag text => described "ScalarNode" tag (Text.quoteText text)
  | .sequence _ tag items => described "SequenceNode" tag (listed (describeItems items))
  | .mapping _ tag entries => described "MappingNode" tag (listed (describeEntries entries))

/-- The items of a sequence in full. -/
def describeItems : List Node → List String
  | [] => []
  | node :: nodes => node.describe :: describeItems nodes

/-- The entries of a mapping in full. -/
def describeEntries : List (Node × Node) → List String
  | [] => []
  | (key, value) :: entries =>
    ("(" ++ key.describe ++ ", " ++ value.describe ++ ")") :: describeEntries entries

end

/-- The text under which a node serves as a key: that of a scalar, else the content in full. -/
def keyText : Node → String
  | .scalar _ _ text => text
  | .sequence _ _ items => listed (describeItems items)
  | .mapping _ _ entries => listed (describeEntries entries)

end Node

end Schemata.Yaml
