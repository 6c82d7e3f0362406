import Schemata.Yaml.Cursor

/-!
# `Schemata.Yaml.Token` — the words of a YAML text

## Contents
- `TokenKind` and `Token`, a word with the places where it starts and ends.
-/

namespace Schemata.Yaml

/-- The kinds of words. Words that open and close block collections are not written but follow from the
indentation. -/
inductive TokenKind
  | streamEnd
  | versionDirective (major minor : Nat)
  | tagDirective (handle start : String)
  | otherDirective
  | documentStart
  | documentEnd
  | blockSequenceStart
  | blockMappingStart
  | blockEnd
  | flowSequenceStart
  | flowSequenceEnd
  | flowMappingStart
  | flowMappingEnd
  | blockEntry
  | flowEntry
  | key
  | value
  | alias (name : String)
  | anchor (name : String)
  /-- A tag that is written in full, or with a handle in front. -/
  | tag (handle : Option String) (suffix : String)
  /-- A scalar, which may be plain; the text of one that is not may be spelt with halves of pairs of codes. -/
  | scalar (text : String) (isPlain halved : Bool)
deriving DecidableEq, Repr

/-- A word and its place. -/
structure Token where
  kind : TokenKind
  start : Mark
  finish : Mark
deriving DecidableEq, Repr

end Schemata.Yaml
