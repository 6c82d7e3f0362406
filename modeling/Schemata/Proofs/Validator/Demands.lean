import Schemata.Proofs.Validator.Decision
import Schemata.Proofs.Validator.Parts
import Schemata.Proofs.Validator.Suits

/-!
# `Schemata.Proofs.Validator.Demands` — what is asked of the things inside validators

A validator is built from things that a schema supplies: literals, conditions, limits, names and defaults. Much of
what holds of validators follows from what holds of these things, wherever they are inside a validator.

## Contents
- **Demands.** `Demands`, and `Validator.Meets`: what a validator itself has to meet.
-/

namespace Schemata

/-- What is asked of the things inside a validator. -/
structure Demands where
  literal : Value → Prop := fun _ => True
  /-- Conditions on the values of a kind; none has a validator in it. -/
  condition : Kind → Test → Prop := fun _ test => test.validators = []
  /-- Conditions on values of any kind. -/
  anyCondition : Test → Prop := fun _ => True
  /-- Limits on numbers of elements and on sizes. -/
  limit : Value → Prop := fun _ => True
  /-- The names of the fields of an object. -/
  names : List Value → Prop := fun _ => True
  default : Value → Prop := fun _ => True

/-- The things of a validator, apart from those of its parts, are as demanded. A condition may be one on values of any
kind, or one on the values of the kind that all outputs have on which it is put. -/
def Validator.Meets (demands : Demands) : Validator → Prop
  | .literal value => demands.literal value
  | .enumeration values => ∀ value ∈ values, demands.literal value
  | .refined inner test _ =>
    demands.anyCondition test ∨ ∃ kind, inner.Yields kind ∧ demands.condition kind test
  | .defaulted _ value => demands.default value
  | .file limits => limits.size.Each demands.limit
  | .array _ bounds => bounds.Each demands.limit
  | .tuple _ _ bounds => bounds.Each demands.limit
  | .object fields _ bounds => bounds.Each demands.limit ∧ demands.names (fields.map Field.name)
  | _ => True

end Schemata
