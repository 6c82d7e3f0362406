import Schemata.Source.Location
import Schemata.Yaml.Engine

/-!
# `Schemata.Source.Map` — the source map of a text

## Contents
- `Yaml.Node.places`, the positions of all nodes of a tree by their pointers.
- `SourceMap.ofNode` and `SourceMap.ofText?`.
-/

namespace Schemata

namespace Yaml

/-- The position of a mark, counted from one. -/
def Mark.position (mark : Mark) : Position := ⟨some (mark.line + 1 : Nat), some (mark.column + 1 : Nat)⟩

mutual

/-- The positions of a node and of all nodes below it, by their pointers. -/
def Node.places (pointer : String) : Node → List (String × Position)
  | .scalar mark _ _ => [(pointer, mark.position)]
  | .sequence mark _ items => (pointer, mark.position) :: Node.placesOfItems pointer 0 items
  | .mapping mark _ entries => (pointer, mark.position) :: Node.placesOfEntries pointer entries

/-- The positions below the items of a sequence, from an index on. -/
def Node.placesOfItems (pointer : String) : Nat → List Node → List (String × Position)
  | _, [] => []
  | i, node :: nodes =>
    node.places (Pointer.extend pointer (toString i)) ++ Node.placesOfItems pointer (i + 1) nodes

/-- The positions below the values of a mapping. -/
def Node.placesOfEntries (pointer : String) : List (Node × Node) → List (String × Position)
  | [] => []
  | (key, value) :: entries =>
    value.places (Pointer.extend pointer key.keyText) ++ Node.placesOfEntries pointer entries

end

end Yaml

namespace SourceMap

/-- The source map of a tree. -/
def ofNode (node : Yaml.Node) : SourceMap := ofList (node.places "")

/-- The source map of a text. A text that breaks the rules of the format has an empty one. -/
def ofText? [Yaml.Engine] (text : String) : Except Yaml.YamlError SourceMap :=
  match Yaml.Engine.compose text with
  | .ok (some node) => .ok (ofNode node)
  | .ok none => .ok []
  | .error .malformed => .ok []
  | .error e => .error e

end SourceMap

end Schemata
