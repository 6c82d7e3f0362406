import Schemata.Fault
import Schemata.Value.Text

/-!
# `Schemata.Schema.Error` — why a schema cannot be compiled

## Contents
- `CompileError` with `CompileError.message`.
- `Remark`, what compilation says in passing, with its `Topic`.
-/

namespace Schemata

/-- What is wrong with a pattern. -/
inductive PatternFault
  /-- The text is no regular expression. -/
  | malformed
  /-- The pattern is no text. -/
  | notText
  /-- The pattern is a value that is neither a text nor a key. -/
  | notAKey (typeName : String)
deriving DecidableEq, Repr

/-- Why a schema cannot be compiled. -/
inductive CompileError
  | badPattern (pattern : Value) (cause : PatternFault)
  | notASchema (typeName : String)
  | fault (f : Fault)

/-- The wording of a pattern's fault; that of a malformed text is left open. -/
def PatternFault.detail : PatternFault → String
  | .malformed => "<detail>"
  | .notText => "first argument must be a string or compiled pattern"
  | .notAKey typeName => s!"unhashable type: '{typeName}'"

namespace CompileError

/-- The message of an error that is the schema's. -/
def message : CompileError → String
  | .badPattern pattern cause => s!"Invalid pattern {pattern.quoted}: {cause.detail}"
  | .notASchema typeName => s!"Schema must be a boolean or a mapping, got {typeName}"
  | .fault _ => ""

end CompileError

/-- The part of compilation that a remark comes from. -/
inductive Topic
  | literals
  | arrays
  | objects
  | annotations
deriving DecidableEq, Repr

/-- What compilation says in passing. -/
structure Remark where
  topic : Topic
  text : String
deriving DecidableEq, Repr

end Schemata
