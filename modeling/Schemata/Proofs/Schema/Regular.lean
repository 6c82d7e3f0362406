import Schemata.Proofs.Schema.Composites
import Schemata.Proofs.Schema.Demands
import Schemata.Proofs.Validator.Safety

/-!
# `Schemata.Proofs.Schema.Regular` — compilation makes regular validators

The conditions of the first phase are put on the validators of single kinds and suit them; those of the second phase
are put on whole values and may be asked of any. So the validators of well-formed schemas are regular, and validation
never ends in a fault on what can be written.

## Contents
- **Schemas.** `IsTidy` mappings of keywords, and `everywhere_of`.
- **Names.** `areNames_fieldNames`: the fields of an object have texts as names.
- **Demands.** `regular_coherent` and `regular_metBy`.
- **Compilation.** `compile_regular`.
-/

namespace Schemata

open Validator

/-! ## Schemas -/

/-- A mapping of keywords with a default of JSON, if any, and with properties that have distinct names. -/
structure IsTidy (schema : Entries) : Prop where
  default : ∀ value, Entries.get? schema "default" = some value → value.IsJson
  properties : ((declaredMembers schema).map Prod.fst).Nodup

/-- What sub-schemas inherit from their schema holds everywhere in it. -/
theorem everywhere_of {good : Value → Prop} {holds : Entries → Prop} (here : ∀ entries, good (.dict entries) → holds entries)
    (inherited : ∀ entries, good (.dict entries) → ∀ s ∈ subSchemas entries, good s) {schema : Value}
    (h : good schema) : Everywhere holds schema := by
  cases schema with
  | dict entries =>
    refine .mapping (here entries h) fun s hs => ?_
    have := depth_lt_of_mem_subSchemas hs
    exact everywhere_of here inherited (inherited entries h s hs)
  | _ => exact .other rfl
termination_by schema.depth

/-! ## Names -/

section

variable {sure neat : Prop}

theorem text_of_declared {schema : Entries} (hshapes : HasShapes schema) {name : Value}
    (h : name ∈ (declaredMembers schema).map Prod.fst) : ∃ s, name = .string s := by
  unfold declaredMembers at h
  cases hget : Entries.get? schema "properties" with
  | none => rw [hget] at h; cases h
  | some value =>
    rw [hget] at h
    have hadmits := hshapes.admits .schemaMap hget (by decide)
    cases value with
    | dict entries =>
      obtain ⟨e, he, rfl⟩ := List.mem_map.mp h
      have htext := (Bool.and_eq_true_iff.mp (List.all_eq_true.mp hadmits e he)).1
      exact text_of_isString htext
    | _ => cases hadmits

theorem areNames_addName {names : List Value} (h : AreNames neat names) (name : String) :
    AreNames neat (addName names name) := by
  unfold addName
  split
  · exact h
  next hnew =>
    refine ⟨List.forall_mem_append.mpr ⟨h.texts, List.forall_mem_singleton.mpr ⟨name, rfl⟩⟩, fun hneat => ?_⟩
    refine List.nodup_append.mpr ⟨h.distinct hneat, by simp, fun other hother text htext heq => hnew ?_⟩
    obtain rfl := List.mem_singleton.mp htext
    exact List.any_eq_true.mpr ⟨other, hother, by rw [heq]; simp [Value.alike_string_right]⟩

/-- Fields have names if the declared members have, for required names are texts, and added only if they are new. -/
theorem areNames_fieldNames {schema : Entries} (hdeclared : AreNames neat ((declaredMembers schema).map Prod.fst)) :
    AreNames neat (fieldNames schema) := by
  unfold fieldNames
  generalize (declaredMembers schema).map Prod.fst = names at hdeclared
  induction requiredNames schema generalizing names with
  | nil => exact hdeclared
  | cons name rest ih => exact ih _ (areNames_addName hdeclared name)

/-- In a schema of JSON, declared members have distinct texts as names. -/
theorem distinctTexts_declared {schema : Entries} (h : (Value.dict schema).IsJson) :
    DistinctTexts ((declaredMembers schema).map Prod.fst) := by
  have hnone : DistinctTexts [] := ⟨List.forall_mem_nil _, .nil⟩
  unfold declaredMembers
  cases hget : Entries.get? schema "properties" with
  | none => exact hnone
  | some value =>
    have hvalue : value.IsJson := Value.goesDown_isJson.get? h hget
    cases value with
    | dict entries => exact hvalue.keys
    | _ => exact hnone

theorem distinctTexts_fieldNames {schema : Entries} (h : (Value.dict schema).IsJson) : DistinctTexts (fieldNames schema) := by
  have hdeclared := distinctTexts_declared h
  have hnames : AreNames True (fieldNames schema) := areNames_fieldNames ⟨hdeclared.texts, fun _ => hdeclared.distinct⟩
  exact ⟨hnames.texts, hnames.distinct trivial⟩

/-! ## Demands -/

/-- A condition that suits a kind has no validators in it. -/
theorem Test.Suits.validators_eq {kind : Kind} {test : Test} (h : test.Suits sure kind) : test.validators = [] := by
  cases h <;> rfl

theorem Test.suits_size {kind : Kind} (hkind : isComposite kind = true) (relation : Relation) {limit : Value}
    (hlimit : limit.IsOrdered) : (Test.size relation limit).Suits sure kind := by
  cases kind with
  | array => exact .items relation hlimit
  | object => exact .members relation hlimit
  | _ => cases hkind

theorem Demands.regular_coherent : (Demands.regular sure neat).Coherent where
  closed := fun _ _ h => h.validators_eq
  sized := fun _ relation _ hkind hlimit => Test.suits_size hkind relation hlimit.ordered
  integral := .integral
  zero := ⟨⟨0, rfl⟩, fun _ => Value.isWritable_zero⟩
  noNames := ⟨List.forall_mem_nil _, fun _ => .nil⟩

/-- **Refinements ask what may be asked of every value**, if their operands are as they should be. -/
theorem SchemaCondition.isUniversal {schema : Entries} (hoperands : HasOperands schema) {holds : Validator → Prop}
    {test : Test} (h : SchemaCondition schema holds test) : test.IsUniversal := by
  cases h with
  | hasKeys hget hproto huntyped => exact hoperands.required _ hget hproto huntyped
  | counted _ => exact ⟨hoperands.minContains, hoperands.limit "maxContains" (by decide)⟩
  | amongComposites | equals | distinct | positions | patterns | rejectedBy => exact trivial

theorem Demands.regular_metBy [Pattern.Engine] {schema : Entries} (hshapes : HasShapes schema)
    (hschema : sure → (Value.dict schema).isWritable = true) (htidy : neat → IsTidy schema) :
    (Demands.regular sure neat).MetBy schema where
  literal := fun _ hw hsure => isWritable_of_mem_literals (hschema hsure) hw
  condition := fun _ _ _ _ hrule htest => condition_suits hshapes.operands hschema hrule htest
  anyCondition := fun _ _ htest => htest.isUniversal hshapes.operands
  limit := fun _ hkeyword _ hgiven => isCount_given hshapes hkeyword hschema hgiven
  names := areNames_fieldNames ⟨fun _ => text_of_declared hshapes, fun hneat => (htidy hneat).properties⟩
  default := fun value hget =>
    ⟨fun hsure => isWritable_get? (hschema hsure) hget, fun hneat => (htidy hneat).default value hget⟩

end

/-! ## Compilation -/

/-- **The validators of well-formed schemas are regular.** -/
theorem compile_regular [Pattern.Engine] {sure neat : Prop} {schema : Value} {vd : Validator}
    (h : compile schema = .ok vd) (hshapes : Everywhere HasShapes schema) (hschema : sure → schema.isWritable = true)
    (htidy : neat → Everywhere IsTidy schema) : Throughout (IsRegular sure neat) vd := by
  refine compile_meets Demands.regular_coherent h ?_
  refine @everywhere_of (fun s => Everywhere HasShapes s ∧ (sure → s.isWritable = true) ∧ (neat → Everywhere IsTidy s))
    _ ?_ ?_ schema ⟨hshapes, hschema, htidy⟩
  · rintro entries ⟨hshapes, hschema, htidy⟩
    exact Demands.regular_metBy hshapes.here hschema fun hneat => (htidy hneat).here
  · rintro entries ⟨hshapes, hschema, htidy⟩ s hs
    exact ⟨hshapes.inside hs, fun hsure => isWritable_of_mem_subSchemas (hschema hsure) hs,
      fun hneat => (htidy hneat).inside hs⟩

end Schemata
