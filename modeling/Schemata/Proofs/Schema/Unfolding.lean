import Schemata.Proofs.Schema.SubSchema

/-!
# `Schemata.Proofs.Schema.Unfolding` — a schema is compiled through its sub-schemas

Compilation goes down to a depth that is fixed in the beginning. What is made of a mapping of keywords depends only on
what is made of its sub-schemas (`compileNode_congr`), and these are less deep, so the depth does not matter and
the compilation of a mapping is that of its keywords with the sub-schemas compiled in the same way (`compile_dict`).

## Contents
- **First phase.** The rules that compile sub-schemas.
- **Second phase.** The refinements that do.
- **Compilation.** `compileNode_congr`, `compileWithin_eq` and `compile_dict`.
-/

namespace Schemata

variable {remark : Remark → Except CompileError Unit} {convert other : Value → Except CompileError Validator}

/-! ## First phase -/

/-- Sub-schemas that are compiled alike one by one are compiled alike in a row. -/
theorem mapM_congr_of_mem {items : List Value} (h : ∀ s ∈ items, convert s = other s) :
    items.mapM convert = items.mapM other := by
  induction items with
  | nil => rfl
  | cons item items ih =>
    obtain ⟨hfirst, hrest⟩ := List.forall_mem_cons.mp h
    rw [List.mapM_cons, List.mapM_cons, hfirst, ih hrest]

section

variable {schema : Entries} (h : ∀ s ∈ subSchemas schema, convert s = other s)
include h

theorem restValidator_congr : restValidator convert schema = restValidator other schema := by
  unfold restValidator
  split
  · rfl
  next entries hget =>
    rw [h _ (mem_subSchemas .schema hget (by decide) (List.mem_singleton.mpr rfl))]
  · rfl

theorem tupleSteps_congr (slots : Admissibility) :
    tupleSteps remark convert slots schema = tupleSteps remark other slots schema := by
  unfold tupleSteps
  split
  next items hget =>
    have hitems : ∀ s ∈ items, convert s = other s := fun s hs =>
      h s (mem_subSchemas .schemaOrSchemas hget (by decide) hs)
    rw [mapM_congr_of_mem hitems, restValidator_congr h]
  · rfl

theorem itemsSteps_congr (slots : Admissibility) :
    itemsSteps convert slots schema = itemsSteps other slots schema := by
  unfold itemsSteps
  split
  · rfl
  dsimp only
  split
  case h_4 entries hget =>
    rw [h _ (mem_subSchemas .schemaOrSchemas hget (by decide) (List.mem_singleton.mpr rfl))]
  all_goals rfl

theorem additionalPolicy_congr : additionalPolicy convert schema = additionalPolicy other schema := by
  unfold additionalPolicy
  split
  · rfl
  split
  · rfl
  next entries hget =>
    rw [h _ (mem_subSchemas .schema hget (by decide) (List.mem_singleton.mpr rfl))]
  · rfl

omit h in
theorem propertyFields_congr (required : List String) {properties : Entries}
    (h : ∀ e ∈ properties, convert e.2 = other e.2) :
    propertyFields convert required properties = propertyFields other required properties := by
  induction properties with
  | nil => rfl
  | cons e es ih =>
    obtain ⟨hfirst, hrest⟩ := List.forall_mem_cons.mp h
    rw [propertyFields, propertyFields, hfirst, ih hrest]

theorem propertiesSteps_congr (slots : Admissibility) :
    propertiesSteps convert slots schema = propertiesSteps other slots schema := by
  have hproperties : ∀ e ∈ ((Entries.get? schema "properties").bind Value.entries?).getD [],
      convert e.2 = other e.2 := fun e he => h e.2 (mem_subSchemas_of_entries "properties" (by decide) he)
  simp only [propertiesSteps, propertyFields_congr _ hproperties, additionalPolicy_congr h]

theorem steps_congr [Pattern.Engine] (rule : KindRule) (slots : Admissibility) :
    rule.steps remark convert slots schema = rule.steps remark other slots schema := by
  cases rule with
  | tuple => exact tupleSteps_congr h slots
  | items => exact itemsSteps_congr h slots
  | properties => exact propertiesSteps_congr h slots
  | _ => rfl

theorem KindRule.runAll_congr [Pattern.Engine] (rules : List KindRule) (slots : Admissibility) :
    KindRule.runAll remark convert schema rules slots = KindRule.runAll remark other schema rules slots := by
  induction rules generalizing slots with
  | nil => rfl
  | cons rule rules ih =>
    rw [KindRule.runAll, KindRule.runAll, steps_congr h]
    exact bind_congr fun steps => ih _

/-! ## Second phase -/

theorem branches_congr {keyword : String} (hkeyword : (keyword, KeywordShape.schemas) ∈ keywordShapes) :
    branches convert schema keyword = branches other schema keyword := by
  unfold branches
  split
  next items hitems => exact mapM_congr_of_mem fun s hs => h s (mem_subSchemas_of_items hkeyword hitems hs)
  · rfl

theorem leftOver_congr (shape : KeywordShape) {keyword : String} (hkeyword : (keyword, shape) ∈ keywordShapes)
    (hself : ∀ entries, Value.dict entries ∈ shape.subSchemas (.dict entries)) :
    leftOver convert schema keyword = leftOver other schema keyword := by
  unfold leftOver
  split
  · rfl
  next entries hget => rw [h _ (mem_subSchemas shape hget hkeyword (hself entries))]
  · rfl

theorem prefixItems?_congr (vd : Validator) : prefixItems? convert vd schema = prefixItems? other vd schema := by
  unfold prefixItems?
  split
  · rfl
  next items hitems =>
    rw [mapM_congr_of_mem fun s hs => h s (mem_subSchemas_of_items (by decide) hitems hs),
      leftOver_congr h .schemaOrSchemas (by decide) fun _ => List.mem_singleton.mpr rfl]

theorem contains?_congr (vd : Validator) : contains? convert vd schema = contains? other vd schema := by
  unfold contains?
  split
  · rfl
  next item hget => rw [h item (mem_subSchemas .schema hget (by decide) (List.mem_singleton.mpr rfl))]

omit h in
theorem patternRules_congr [Pattern.Engine] {entries : Entries} (h : ∀ e ∈ entries, convert e.2 = other e.2) :
    patternRules remark convert entries = patternRules remark other entries := by
  induction entries with
  | nil => rfl
  | cons e es ih =>
    obtain ⟨hfirst, hrest⟩ := List.forall_mem_cons.mp h
    rw [patternRules, patternRules, hfirst, ih hrest]

theorem patternProperties?_congr [Pattern.Engine] (vd : Validator) :
    patternProperties? remark convert vd schema = patternProperties? remark other vd schema := by
  unfold patternProperties?
  split
  · rfl
  next entries hentries =>
    have heach : ∀ e ∈ entries, convert e.2 = other e.2 := fun e he =>
      h e.2 (mem_subSchemas_of_entries "patternProperties" (by decide) (by rw [hentries]; exact he))
    rw [patternRules_congr heach,
      leftOver_congr h .schema (by decide) fun _ => List.mem_singleton.mpr rfl]

theorem not?_congr (vd : Validator) : not? convert vd schema = not? other vd schema := by
  unfold not?
  split
  · rfl
  next negated hget => rw [h negated (mem_subSchemas .schema hget (by decide) (List.mem_singleton.mpr rfl))]

theorem apply?_congr [Pattern.Engine] (refinement : Refinement) (vd : Validator) :
    refinement.apply? remark convert vd schema = refinement.apply? remark other vd schema := by
  cases refinement with
  | allOf =>
    show allOf? convert vd schema = allOf? other vd schema
    unfold allOf?
    rw [branches_congr h (by decide)]
  | anyOf | oneOf =>
    show someOf? convert vd schema _ = someOf? other vd schema _
    unfold someOf?
    rw [branches_congr h (by decide)]
  | prefixItems => exact prefixItems?_congr h vd
  | contains => exact contains?_congr h vd
  | patternProperties => exact patternProperties?_congr h vd
  | not => exact not?_congr h vd
  | _ => rfl

theorem Refinement.runAll_congr [Pattern.Engine] (refinements : List Refinement) (vd : Validator) :
    Refinement.runAll remark convert schema refinements vd = Refinement.runAll remark other schema refinements vd := by
  induction refinements generalizing vd with
  | nil => rfl
  | cons refinement rest ih =>
    rw [Refinement.runAll, Refinement.runAll, apply?_congr h]
    exact bind_congr fun refined => ih _

/-! ## Compilation -/

/-- **What is made of a mapping of keywords depends on what is made of its sub-schemas.** -/
theorem compileNode_congr [Pattern.Engine] : compileNode remark convert schema = compileNode remark other schema := by
  unfold compileNode
  rw [KindRule.runAll_congr h]
  exact bind_congr fun slots => Refinement.runAll_congr h _ _

end

/-- Any depth beyond that of a schema compiles it alike. -/
theorem compileWithin_eq [Pattern.Engine] {depth depth' : Nat} {schema : Value} (h : schema.depth < depth)
    (h' : schema.depth < depth') :
    compileWithin remark depth schema = compileWithin remark depth' schema := by
  induction depth generalizing depth' schema with
  | zero => omega
  | succ depth ih =>
    obtain ⟨depth', rfl⟩ : ∃ d, depth' = d + 1 := ⟨depth' - 1, by omega⟩
    cases schema with
    | dict entries =>
      refine compileNode_congr fun s hs => ih ?_ ?_ <;>
      · have := depth_lt_of_mem_subSchemas hs
        omega
    | _ => rfl

/-- **A mapping of keywords is compiled through its sub-schemas.** -/
theorem compile_dict [Pattern.Engine] (schema : Entries) :
    compile (.dict schema) = compileNode (fun _ => .ok ()) compile schema :=
  compileNode_congr fun _ hs => compileWithin_eq (depth_lt_of_mem_subSchemas hs) (Nat.lt_succ_self _)

theorem compile_bool [Pattern.Engine] (b : Bool) : compile (.bool b) = .ok (if b then .any else .never) := rfl

end Schemata
