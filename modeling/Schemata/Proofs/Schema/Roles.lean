import Schemata.Proofs.Schema.Satisfaction

/-!
# `Schemata.Proofs.Schema.Roles` — what sub-schemas are there for

What the validator of a sub-schema does for that of the whole schema depends on its role: in some roles its output
becomes part of the output, in others it only judges a value. The role is given by the keyword, and sometimes by the
keywords beside it.

## Contents
- **Roles.** `Role` and `Role.schemas`.
- **Sub-schemas.** `Role.mem_subSchemas`: what has a role is a sub-schema.
-/

namespace Schemata

/-! ## Roles -/

/-- The mapping of keywords under a keyword, if there is one. -/
def Entries.mapping (schema : Entries) (keyword : String) : List Value :=
  match Entries.get? schema keyword with
  | some (.dict entries) => [.dict entries]
  | _ => []

/-- The roles that sub-schemas may have. -/
inductive Role
  /-- Elements of arrays. -/
  | element
  /-- Positional items of tuples, and those beyond them. -/
  | position
  | rest
  /-- Declared members of objects, and the others. -/
  | property
  | other
  /-- What is joined: `allOf`, `anyOf` and `oneOf`. -/
  | branch
  /-- Items that are judged by position, and those beyond them. -/
  | prefixItem
  | extraItem
  | contained
  /-- Members that are judged by pattern, and those that no pattern fits. -/
  | pattern
  | extraMember
  | negated
deriving DecidableEq, Repr

/-- The sub-schemas that have a role. Beside `prefixItems` elements are judged, and so are undeclared members beside
`patternProperties`. -/
def Role.schemas (schema : Entries) : Role → List Value
  | .element => if Entries.has schema "prefixItems" then [] else schema.mapping "items"
  | .position => listedSchemas schema "items"
  | .rest => schema.mapping "additionalItems"
  | .property => (mappedSchemas schema "properties").map Prod.snd
  | .other => if Entries.has schema "patternProperties" then [] else schema.mapping "additionalProperties"
  | .branch => listedSchemas schema "allOf" ++ listedSchemas schema "anyOf" ++ listedSchemas schema "oneOf"
  | .prefixItem => listedSchemas schema "prefixItems"
  | .extraItem => schema.mapping "items"
  | .contained => (Entries.get? schema "contains").toList
  | .pattern => (mappedSchemas schema "patternProperties").map Prod.snd
  | .extraMember => schema.mapping "additionalProperties"
  | .negated => (Entries.get? schema "not").toList

/-! ## Sub-schemas -/

section

variable {schema : Entries} {s : Value}

theorem mem_mapping {keyword : String} {entries : Entries} (h : Entries.get? schema keyword = some (.dict entries)) :
    Value.dict entries ∈ schema.mapping keyword := by
  rw [Entries.mapping, h]
  exact List.mem_singleton.mpr rfl

theorem mem_subSchemas_of_mapping (shape : KeywordShape) {keyword : String} (hkeyword : (keyword, shape) ∈ keywordShapes)
    (hself : ∀ entries, Value.dict entries ∈ shape.subSchemas (.dict entries)) (h : s ∈ schema.mapping keyword) :
    s ∈ subSchemas schema := by
  unfold Entries.mapping at h
  split at h
  next entries hget =>
    obtain rfl := List.mem_singleton.mp h
    exact mem_subSchemas shape hget hkeyword (hself entries)
  next => cases h

/-- **What has a role is a sub-schema.** -/
theorem Role.mem_subSchemas {role : Role} (h : s ∈ role.schemas schema) : s ∈ subSchemas schema := by
  have hself : ∀ entries, Value.dict entries ∈ KeywordShape.schema.subSchemas (.dict entries) :=
    fun entries => List.mem_singleton.mpr rfl
  have hone : ∀ keyword, (keyword, KeywordShape.schema) ∈ keywordShapes →
      s ∈ (Entries.get? schema keyword).toList → s ∈ Schemata.subSchemas schema := fun keyword hkeyword hs =>
    Schemata.mem_subSchemas .schema (Option.mem_toList.mp hs) hkeyword (List.mem_singleton.mpr rfl)
  have hmapped : ∀ keyword, (keyword, KeywordShape.schemaMap) ∈ keywordShapes →
      s ∈ (mappedSchemas schema keyword).map Prod.snd → s ∈ Schemata.subSchemas schema := by
    intro keyword hkeyword hs
    obtain ⟨e, he, rfl⟩ := List.mem_map.mp hs
    exact mem_of_mem_mappedSchemas hkeyword he
  -- every role is played under keywords of one shape each
  cases role with
  | element =>
    replace h : s ∈ if Entries.has schema "prefixItems" then [] else schema.mapping "items" := h
    split at h
    · cases h
    · exact mem_subSchemas_of_mapping .schemaOrSchemas (by decide) (fun _ => List.mem_singleton.mpr rfl) h
  | position =>
    unfold Role.schemas listedSchemas at h
    cases hget : Entries.get? schema "items" with
    | none => rw [hget] at h; cases h
    | some v =>
      rw [hget] at h
      cases v with
      | list items => exact Schemata.mem_subSchemas .schemaOrSchemas hget (by decide) h
      | _ => cases h
  | rest => exact mem_subSchemas_of_mapping .schema (by decide) hself h
  | property => exact hmapped "properties" (by decide) h
  | other =>
    replace h : s ∈ if Entries.has schema "patternProperties" then [] else schema.mapping "additionalProperties" := h
    split at h
    · cases h
    · exact mem_subSchemas_of_mapping .schema (by decide) hself h
  | branch =>
    rcases List.mem_append.mp h with h | h
    · rcases List.mem_append.mp h with h | h
      · exact mem_of_mem_listedSchemas (by decide) h
      · exact mem_of_mem_listedSchemas (by decide) h
    · exact mem_of_mem_listedSchemas (by decide) h
  | prefixItem => exact mem_of_mem_listedSchemas (by decide) h
  | extraItem => exact mem_subSchemas_of_mapping .schemaOrSchemas (by decide) (fun _ => List.mem_singleton.mpr rfl) h
  | contained => exact hone "contains" (by decide) h
  | pattern => exact hmapped "patternProperties" (by decide) h
  | extraMember => exact mem_subSchemas_of_mapping .schema (by decide) hself h
  | negated => exact hone "not" (by decide) h

end

end Schemata
