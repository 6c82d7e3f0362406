import Schemata.Fault

/-!
# `Schemata.Pattern.Engine` — what compilation asks of regular expressions

Patterns are read and searched for by an engine of its own. Compilation knows of it no more than this: a text
is given, and back comes something that can be searched for, or the engine says that the text is malformed, or
it ends with a fault that is no answer about the text at all, as it does when options contradict each other.

## Contents
- `Pattern`, which can be searched for in a text.
- `Pattern.Refusal` and `Pattern.Engine`.
-/

namespace Schemata

/-- A pattern that has been read: the texts in which it is found. -/
structure Pattern where
  search : String → Bool

/-- By default a pattern is found in no text. -/
instance : Inhabited Pattern := ⟨⟨fun _ => false⟩⟩

namespace Pattern

/-- Why a text is not read as a pattern. -/
inductive Refusal
  /-- The text is no regular expression, and the engine says so. -/
  | malformed
  /-- Reading ends with another fault. -/
  | fault (f : Fault)
deriving DecidableEq, Repr

/-- An engine of regular expressions. -/
class Engine where
  /-- Reads the text of a pattern. -/
  read : String → Except Refusal Pattern

end Pattern

end Schemata
