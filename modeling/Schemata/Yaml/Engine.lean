import Schemata.Value.Basic
import Schemata.Yaml.Node

/-!
# `Schemata.Yaml.Engine` — what loading asks of the YAML format

Texts are read by an engine of its own, in two steps: the tree of a text, with the places of its nodes, and the
value of a tree. Where a text breaks the rules of the format or a node cannot be built, the engine says that it
is malformed. Any other error is one that loading does not foresee.

## Contents
- `Engine`, and `load`, the value of a text.
-/

namespace Schemata.Yaml

/-- An engine that reads YAML texts. -/
class Engine where
  /-- The tree of a text; there is none if the text holds no document. -/
  compose : String → Except YamlError (Option Node)
  /-- The value of a tree. -/
  construct : Node → Except YamlError Value

/-- The value of a text; without a document it is null. -/
def load [Engine] (text : String) : Except YamlError Value := do
  match (← Engine.compose text) with
  | some node => Engine.construct node
  | none => return .null

end Schemata.Yaml
