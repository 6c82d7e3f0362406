import Schemata.Proofs.Schema.Keeping
import Schemata.Proofs.Validator.Messages

/-!
# `Schemata.Proofs.Schema.Messages` — the texts that a schema has for messages

A validator has the names of its fields and its media types from the schema, and nothing else that it writes into
messages as it is. So its texts stand on one line if those of all sub-schemas do.

## Contents
- **Phases.** The texts of what the slots and the refinements of a schema hold.
- **Compilation.** `compile_textsUnbroken`.
-/

namespace Schemata

open Validator

/-- The names of fields and the media types of a mapping of keywords stand on one line. -/
structure NamesUnbroken (schema : Entries) : Prop where
  fields : ∀ name ∈ fieldNames schema, Unbroken name.plain
  mediaTypes : ∀ t ∈ mediaTypesOf schema, Unbroken t

/-! ## Phases -/

/-- What a schema supplies for validators whose texts stand on one line. -/
def supplyUnbroken : Supply where
  condition := fun _ test => test.validators = []
  names := fun names => ∀ name ∈ names, Unbroken name.plain
  mediaType := Unbroken
  sub := Throughout TextsUnbroken

theorem NamesUnbroken.supplies [Pattern.Engine] {schema : Entries} (h : NamesUnbroken schema)
    {convert : Value → Except CompileError Validator}
    (hsub : ∀ s ∈ subSchemas schema, ∀ c, convert s = .ok c → Throughout TextsUnbroken c) :
    Supplies convert schema supplyUnbroken where
  literal := fun _ _ => trivial
  condition := fun _ _ _ _ => condition_closed
  integral := rfl
  limit := fun _ _ _ _ => trivial
  zero := trivial
  names := h.fields
  mediaTypes := h.mediaTypes
  sub := hsub

end Schemata
