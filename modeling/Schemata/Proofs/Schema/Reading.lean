import Schemata.Proofs.Schema.Unfolding

/-!
# `Schemata.Proofs.Schema.Reading` — which keywords are read

Every rule of the first phase and every refinement of the second one reads a few keywords of a schema and looks at
nothing else in it, and of sub-schemas it sees only what they are compiled to. So two schemas are treated alike if the
keywords of one are those of the other, with other sub-schemas in their places (`ReadsAs`).

## Contents
- **Keywords.** `KindRule.keywords` and `Refinement.keywords`.
- **Sub-schemas.** `shapeOf`, `KeywordShape.map`, which replaces the sub-schemas of a keyword, and `ReadsAs`.
- **First phase.** `steps_readsAs` and `KindRule.runAll_readsAs`.
- **Second phase.** `apply?_readsAs` and `Refinement.runAll_readsAs`.
-/

namespace Schemata

/-! ## Keywords -/

/-- The keywords that a rule reads. -/
def KindRule.keywords : KindRule → List String
  | .const => ["const"]
  | .enumeration => ["enum", "type"]
  | .type => ["type"]
  | .file => ["type", "format", "contentEncoding", "minLength", "maxLength", "contentMediaType"]
  | .impliedString => "type" :: stringKeywords
  | .impliedArray => "type" :: arrayKeywords
  | .impliedObject => "type" :: objectKeywords
  | .minLength => ["minLength"]
  | .maxLength => ["maxLength"]
  | .pattern => ["pattern"]
  | .minimum => ["minimum", "exclusiveMinimum"]
  | .maximum => ["maximum", "exclusiveMaximum"]
  | .exclusiveMinimum => ["exclusiveMinimum"]
  | .exclusiveMaximum => ["exclusiveMaximum"]
  | .multipleOf => ["multipleOf"]
  | .tuple => ["items", "additionalItems", "minItems", "maxItems"]
  | .minItems => ["minItems"]
  | .maxItems => ["maxItems"]
  | .items => ["items", "prefixItems"]
  | .properties => ["properties", "required", "additionalProperties", "patternProperties"]
  | .maxProperties => ["maxProperties"]
  | .minProperties => ["minProperties"]

/-- The keywords that a refinement reads. -/
def Refinement.keywords : Refinement → List String
  | .protoRequired => ["required", "type"]
  | .compositeEnumeration => ["enum"]
  | .compositeConst => ["const"]
  | .allOf => ["allOf"]
  | .anyOf => ["anyOf"]
  | .oneOf => ["oneOf"]
  | .prefixItems => ["prefixItems", "items"]
  | .contains => ["contains", "minContains", "maxContains"]
  | .patternProperties => ["patternProperties", "properties", "additionalProperties"]
  | .uniqueItems => ["uniqueItems"]
  | .not => ["not"]
  | .default => ["default"]
  | .description => ["description"]

/-! ## Sub-schemas -/

/-- The shape of a keyword; what stands under other keys is not looked into. -/
def shapeOf (keyword : String) : KeywordShape :=
  ((keywordShapes.find? fun k => k.1 == keyword).map Prod.snd).getD .any

namespace KeywordShape

/-- Whether there are sub-schemas in values of a shape. -/
def isDeep : KeywordShape → Bool
  | .schema | .schemas | .schemaOrSchemas | .schemaMap => true
  | _ => false

/-- A value with its sub-schemas replaced. -/
def map (f : Value → Value) : KeywordShape → Value → Value
  | .schema, v => f v
  | .schemas, .list items => .list (items.map f)
  | .schemaOrSchemas, .list items => .list (items.map f)
  | .schemaOrSchemas, v => f v
  | .schemaMap, .dict entries => .dict (entries.map fun e => (e.1, f e.2))
  | _, v => v

theorem map_shallow {f : Value → Value} {shape : KeywordShape} (h : shape.isDeep = false) (v : Value) :
    shape.map f v = v := by
  cases shape <;> first | rfl | cases h

end KeywordShape

/-- A change of schemas that turns mappings into mappings and leaves everything else. -/
structure KeepsForm (f : Value → Value) : Prop where
  mapping : ∀ entries, ∃ entries', f (.dict entries) = .dict entries'
  other : ∀ v, v.entries? = none → f v = v

/-- A keyword of one schema is that of another with its sub-schemas replaced. -/
def ReadsAs (f : Value → Value) (schema schema' : Entries) (keyword : String) : Prop :=
  Entries.get? schema' keyword = (Entries.get? schema keyword).map ((shapeOf keyword).map f)

section

variable {f : Value → Value} {schema schema' : Entries} {remark : Remark → Except CompileError Unit}
  {convert : Value → Except CompileError Validator} {slots : Admissibility}

theorem keepsForm_id : KeepsForm id where
  mapping := fun entries => ⟨entries, rfl⟩
  other := fun _ _ => rfl

namespace ReadsAs

variable {keyword : String}

theorem of_eq (h : Entries.get? schema' keyword = Entries.get? schema keyword) : ReadsAs id schema schema' keyword := by
  have hid : (shapeOf keyword).map id = id := by
    funext v
    cases shapeOf keyword <;> cases v <;> simp [KeywordShape.map]
  rw [ReadsAs, h, hid, Option.map_id]
  rfl

theorem same (h : ReadsAs f schema schema' keyword) (hshallow : (shapeOf keyword).isDeep = false := by decide) :
    Entries.get? schema' keyword = Entries.get? schema keyword := by
  rw [h, show (shapeOf keyword).map f = id from funext (KeywordShape.map_shallow hshallow), Option.map_id]
  rfl

theorem has (h : ReadsAs f schema schema' keyword) : Entries.has schema' keyword = Entries.has schema keyword := by
  rw [Entries.has, Entries.has, h, Option.isSome_map]

theorem given (h : ReadsAs f schema schema' keyword) (hshallow : (shapeOf keyword).isDeep = false := by decide) :
    Entries.given? schema' keyword = Entries.given? schema keyword := by
  rw [Entries.given?, Entries.given?, h.same hshallow]

theorem setTrue (h : ReadsAs f schema schema' keyword) (hshallow : (shapeOf keyword).isDeep = false := by decide) :
    isSetTrue schema' keyword = isSetTrue schema keyword := by
  rw [isSetTrue, isSetTrue, h.same hshallow]

theorem hasAny {keywords : List String} (h : ∀ keyword ∈ keywords, ReadsAs f schema schema' keyword) :
    Entries.hasAny schema' keywords = Entries.hasAny schema keywords :=
  Bool.eq_iff_iff.mpr <| by
    rw [Entries.hasAny, Entries.hasAny, List.any_eq_true, List.any_eq_true]
    exact exists_congr fun keyword => and_congr_right fun hmem => by rw [(h keyword hmem).has]

/-- What stands under a keyword with one sub-schema, or with one or a list of them: a mapping, a list, or the same. -/
theorem cases (h : ReadsAs f schema schema' keyword) (hf : KeepsForm f)
    (hshape : shapeOf keyword = .schema ∨ shapeOf keyword = .schemaOrSchemas) :
    (∃ entries entries', Entries.get? schema keyword = some (.dict entries) ∧
      Entries.get? schema' keyword = some (.dict entries') ∧ f (.dict entries) = .dict entries') ∨
    (∃ items items', Entries.get? schema keyword = some (.list items) ∧
      Entries.get? schema' keyword = some (.list items') ∧ (shapeOf keyword = .schemaOrSchemas → items' = items.map f)) ∨
    ((∀ v, Entries.get? schema keyword = some v → v.items? = none ∧ v.entries? = none) ∧
      Entries.get? schema' keyword = Entries.get? schema keyword) := by
  unfold ReadsAs at h
  cases hget : Entries.get? schema keyword with
  | none => exact .inr (.inr ⟨nofun, by rw [h, hget]; rfl⟩)
  | some v =>
    rw [hget] at h
    cases v with
    | dict entries =>
      obtain ⟨entries', heq⟩ := hf.mapping entries
      refine .inl ⟨entries, entries', rfl, ?_, heq⟩
      rcases hshape with hshape | hshape <;>
      · rw [hshape] at h
        exact h.trans (congrArg some heq)
    | list items =>
      refine .inr (.inl ?_)
      rcases hshape with hshape | hshape
      · rw [hshape] at h ⊢
        exact ⟨items, items, rfl, h.trans (congrArg some (hf.other _ rfl)), nofun⟩
      · rw [hshape] at h
        exact ⟨items, items.map f, rfl, h, fun _ => rfl⟩
    | _ =>
      refine .inr (.inr ⟨?_, ?_⟩)
      · intro v hv
        obtain rfl := Option.some.inj hv
        exact ⟨rfl, rfl⟩
      · rcases hshape with hshape | hshape <;>
        · rw [hshape] at h
          exact h.trans (congrArg some (hf.other _ rfl))

/-- A list of sub-schemas under a keyword. -/
theorem items (h : ReadsAs f schema schema' keyword) (hshape : shapeOf keyword = .schemas) :
    (Entries.get? schema' keyword).bind Value.items? =
      ((Entries.get? schema keyword).bind Value.items?).map (List.map f) := by
  unfold ReadsAs at h
  rw [h, hshape]
  cases Entries.get? schema keyword with
  | none => rfl
  | some v => cases v <;> rfl

/-- A mapping of names or patterns to sub-schemas under a keyword. -/
theorem entries (h : ReadsAs f schema schema' keyword) (hshape : shapeOf keyword = .schemaMap) :
    (Entries.get? schema' keyword).bind Value.entries? =
      ((Entries.get? schema keyword).bind Value.entries?).map (List.map fun e => (e.1, f e.2)) := by
  unfold ReadsAs at h
  rw [h, hshape]
  cases Entries.get? schema keyword with
  | none => rfl
  | some v => cases v <;> rfl

end ReadsAs

/-! ## First phase -/

theorem restValidator_readsAs (hf : KeepsForm f) (h : ReadsAs f schema schema' "additionalItems") :
    restValidator convert schema' = restValidator (fun s => convert (f s)) schema := by
  unfold restValidator
  rcases h.cases hf (.inl rfl) with ⟨entries, entries', hget, hget', heq⟩ | ⟨items, items', hget, hget', _⟩ | ⟨hother, hget⟩
  · rw [hget, hget']
    dsimp only
    rw [heq]
  · rw [hget, hget']
  · rw [hget]
    split
    · rfl
    next entries hentries => cases (hother _ hentries).2
    · rfl

theorem tupleSteps_readsAs (hf : KeepsForm f)
    (h : ∀ keyword ∈ KindRule.tuple.keywords, ReadsAs f schema schema' keyword) :
    tupleSteps remark convert slots schema' = tupleSteps remark (fun s => convert (f s)) slots schema := by
  unfold tupleSteps
  rcases (h "items" (by decide)).cases hf (.inr rfl) with
    ⟨entries, entries', hget, hget', heq⟩ | ⟨items, items', hget, hget', heq⟩ | ⟨hother, hget⟩
  · rw [hget, hget']
  · obtain rfl := heq rfl
    rw [hget, hget']
    dsimp only
    rw [restValidator_readsAs hf (h "additionalItems" (by decide)), (h "minItems" (by decide)).given,
      (h "maxItems" (by decide)).given, List.mapM_map]
    rfl
  · rw [hget]
    split
    next items hitems => cases (hother _ hitems).1
    · rfl

theorem itemsSteps_readsAs (hf : KeepsForm f)
    (h : ∀ keyword ∈ KindRule.items.keywords, ReadsAs f schema schema' keyword) :
    itemsSteps convert slots schema' = itemsSteps (fun s => convert (f s)) slots schema := by
  unfold itemsSteps
  rw [(h "prefixItems" (by decide)).has]
  rcases (h "items" (by decide)).cases hf (.inr rfl) with
    ⟨entries, entries', hget, hget', heq⟩ | ⟨items, items', hget, hget', heq⟩ | ⟨hother, hget⟩
  · rw [hget, hget']
    dsimp only
    rw [heq]
  · rw [hget, hget']
  · rw [hget]
    split
    · rfl
    dsimp only
    split
    case h_4 entries hentries => cases (hother _ hentries).2
    all_goals rfl

theorem additionalPolicy_readsAs (hf : KeepsForm f) (h : ReadsAs f schema schema' "additionalProperties")
    (hpatterns : ReadsAs f schema schema' "patternProperties") :
    additionalPolicy convert schema' = additionalPolicy (fun s => convert (f s)) schema := by
  unfold additionalPolicy
  rw [hpatterns.has]
  rcases h.cases hf (.inl rfl) with ⟨entries, entries', hget, hget', heq⟩ | ⟨items, items', hget, hget', _⟩ | ⟨hother, hget⟩
  · rw [hget, hget']
    dsimp only
    rw [heq]
  · rw [hget, hget']
  · rw [hget]
    split
    · rfl
    split
    · rfl
    next entries hentries => cases (hother _ hentries).2
    · rfl

theorem propertyFields_map (required : List String) (properties : Entries) :
    propertyFields convert required (properties.map fun e => (e.1, f e.2)) =
      propertyFields (fun s => convert (f s)) required properties := by
  induction properties with
  | nil => rfl
  | cons e es ih => rw [List.map_cons, propertyFields, propertyFields, ih]

theorem requiredNames_readsAs (h : ReadsAs f schema schema' "required") : requiredNames schema' = requiredNames schema := by
  rw [requiredNames, requiredNames, h.same]

theorem propertiesSteps_readsAs (hf : KeepsForm f)
    (h : ∀ keyword ∈ KindRule.properties.keywords, ReadsAs f schema schema' keyword) :
    propertiesSteps convert slots schema' = propertiesSteps (fun s => convert (f s)) slots schema := by
  have hany := ReadsAs.hasAny fun keyword (hkeyword : keyword ∈ ["properties", "required", "additionalProperties"]) =>
    h keyword (List.mem_append_left ["patternProperties"] hkeyword)
  have hproperties : ((Entries.get? schema' "properties").bind Value.entries?).getD [] =
      (((Entries.get? schema "properties").bind Value.entries?).getD []).map fun e => (e.1, f e.2) := by
    rw [(h "properties" (by decide)).entries rfl]
    cases (Entries.get? schema "properties").bind Value.entries? <;> rfl
  simp only [propertiesSteps, hany, requiredNames_readsAs (h "required" (by decide)), hproperties, propertyFields_map,
    additionalPolicy_readsAs hf (h "additionalProperties" (by decide)) (h "patternProperties" (by decide))]

/-- **A rule of the first phase reads its keywords and nothing else**, with their sub-schemas. -/
theorem steps_readsAs [Pattern.Engine] (hf : KeepsForm f) (rule : KindRule)
    (h : ∀ keyword ∈ rule.keywords, ReadsAs f schema schema' keyword) :
    rule.steps remark convert slots schema' = rule.steps remark (fun s => convert (f s)) slots schema := by
  cases rule with
  | const => simp only [KindRule.steps, constSteps, (h "const" (by decide)).same]
  | enumeration =>
    simp only [KindRule.steps, enumSteps, (h "enum" (by decide)).same, (h "type" (by decide)).has]
  | type =>
    have htypes : declaredTypes schema' = declaredTypes schema := by
      rw [declaredTypes, declaredTypes, (h "type" (by decide)).same]
    simp only [KindRule.steps, typeSteps, htypes, (h "type" (by decide)).has]
  | file =>
    have hbinary : isBinary schema' = isBinary schema := by
      rw [isBinary, isBinary, (h "type" (by decide)).same, (h "format" (by decide)).same,
        (h "contentEncoding" (by decide)).same]
    have htypes : mediaTypesOf schema' = mediaTypesOf schema := by
      rw [mediaTypesOf, mediaTypesOf, (h "contentMediaType" (by decide)).same]
    simp only [KindRule.steps, fileSteps, hbinary, htypes, (h "minLength" (by decide)).given,
      (h "maxLength" (by decide)).given]
  | impliedString | impliedObject =>
    have hany := ReadsAs.hasAny fun keyword hkeyword => h keyword (List.mem_cons_of_mem _ hkeyword)
    simp only [KindRule.steps, impliedSteps, hany, (h "type" (by decide)).has]
  | impliedArray =>
    have hany := ReadsAs.hasAny fun keyword hkeyword => h keyword (List.mem_cons_of_mem _ hkeyword)
    simp only [KindRule.steps, impliedArraySteps, impliedSteps, hany, (h "type" (by decide)).has]
    -- of the items it is only asked whether they are a list, which their form tells
    rcases (h "items" (by decide)).cases hf (.inr rfl) with
      ⟨entries, entries', hget, hget', heq⟩ | ⟨items, items', hget, hget', heq⟩ | ⟨hother, hget⟩
    · rw [hget, hget']
    · rw [hget, hget']
    · rw [hget]
  | minLength | maxLength => simp only [KindRule.steps, lengthSteps, (h _ List.mem_cons_self).same]
  | pattern => simp only [KindRule.steps, patternSteps, (h _ List.mem_cons_self).same]
  | minimum =>
    simp only [KindRule.steps, rangeSteps, (h "minimum" (by decide)).same, (h "exclusiveMinimum" (by decide)).setTrue]
  | maximum =>
    simp only [KindRule.steps, rangeSteps, (h "maximum" (by decide)).same, (h "exclusiveMaximum" (by decide)).setTrue]
  | exclusiveMinimum | exclusiveMaximum => simp only [KindRule.steps, exclusiveSteps, (h _ List.mem_cons_self).same]
  | multipleOf => simp only [KindRule.steps, multipleSteps, (h _ List.mem_cons_self).same]
  | tuple => exact tupleSteps_readsAs hf h
  | minItems | maxItems => simp only [KindRule.steps, itemBoundSteps, (h _ List.mem_cons_self).given]
  | items => exact itemsSteps_readsAs hf h
  | properties => exact propertiesSteps_readsAs hf h
  | maxProperties | minProperties => simp only [KindRule.steps, memberBoundSteps, (h _ List.mem_cons_self).given]

/-- **Any rules read their keywords and nothing else.** -/
theorem KindRule.runAll_readsAs [Pattern.Engine] (hf : KeepsForm f) (rules : List KindRule)
    (h : ∀ rule ∈ rules, ∀ keyword ∈ rule.keywords, ReadsAs f schema schema' keyword) :
    KindRule.runAll remark convert schema' rules slots = KindRule.runAll remark (fun s => convert (f s)) schema rules slots := by
  induction rules generalizing slots with
  | nil => rfl
  | cons rule rules ih =>
    obtain ⟨hfirst, hrest⟩ := List.forall_mem_cons.mp h
    rw [KindRule.runAll, KindRule.runAll, steps_readsAs hf rule hfirst]
    exact bind_congr fun steps => ih hrest

/-! ## Second phase -/

theorem branches_readsAs {keyword : String} (h : ReadsAs f schema schema' keyword) (hshape : shapeOf keyword = .schemas) :
    branches convert schema' keyword = branches (fun s => convert (f s)) schema keyword := by
  unfold branches
  rw [h.items hshape]
  cases (Entries.get? schema keyword).bind Value.items? with
  | none => rfl
  | some items => exact List.mapM_map

theorem leftOver_readsAs (hf : KeepsForm f) {keyword : String} (h : ReadsAs f schema schema' keyword)
    (hshape : shapeOf keyword = .schema ∨ shapeOf keyword = .schemaOrSchemas) :
    leftOver convert schema' keyword = leftOver (fun s => convert (f s)) schema keyword := by
  unfold leftOver
  rcases h.cases hf hshape with ⟨entries, entries', hget, hget', heq⟩ | ⟨items, items', hget, hget', _⟩ | ⟨hother, hget⟩
  · rw [hget, hget']
    dsimp only
    rw [heq]
  · rw [hget, hget']
  · rw [hget]
    split
    · rfl
    next entries hentries => cases (hother _ hentries).2
    · rfl

theorem patternRules_map [Pattern.Engine] (entries : Entries) :
    patternRules remark convert (entries.map fun e => (e.1, f e.2)) = patternRules remark (fun s => convert (f s)) entries := by
  induction entries with
  | nil => rfl
  | cons e es ih => rw [List.map_cons, patternRules, patternRules, ih]

/-- **A refinement reads its keywords and nothing else**, with their sub-schemas. -/
theorem apply?_readsAs [Pattern.Engine] (hf : KeepsForm f) (refinement : Refinement) (vd : Validator)
    (h : ∀ keyword ∈ refinement.keywords, ReadsAs f schema schema' keyword) :
    refinement.apply? remark convert vd schema' = refinement.apply? remark (fun s => convert (f s)) vd schema := by
  cases refinement with
  | protoRequired =>
    simp only [ Refinement.apply?, protoRequired?, (h "required" (by decide)).same, (h "type" (by decide)).has]
  | compositeEnumeration => simp only [ Refinement.apply?, compositeEnumeration?, (h "enum" (by decide)).same]
  | compositeConst => simp only [ Refinement.apply?, compositeConst?, (h "const" (by decide)).same]
  | allOf => simp only [ Refinement.apply?, allOf?, branches_readsAs (h _ List.mem_cons_self) rfl]
  | anyOf | oneOf => simp only [ Refinement.apply?, someOf?, branches_readsAs (h _ List.mem_cons_self) rfl]
  | prefixItems =>
    simp only [ Refinement.apply?, prefixItems?, (h "prefixItems" (by decide)).items rfl,
      leftOver_readsAs hf (h "items" (by decide)) (.inr rfl)]
    cases (Entries.get? schema "prefixItems").bind Value.items? with
    | none => rfl
    | some items =>
      dsimp only [Option.map_some]
      rw [List.mapM_map]
      rfl
  | contains =>
    have hcontains := h "contains" (by decide)
    simp only [ Refinement.apply?, contains?, (h "minContains" (by decide)).same, (h "maxContains" (by decide)).given,
      show Entries.get? schema' "contains" = (Entries.get? schema "contains").map f from hcontains]
    cases Entries.get? schema "contains" <;> rfl
  | patternProperties =>
    have hproperties : (((Entries.get? schema' "properties").bind Value.entries?).getD []).map Prod.fst =
        (((Entries.get? schema "properties").bind Value.entries?).getD []).map Prod.fst := by
      rw [(h "properties" (by decide)).entries rfl]
      cases (Entries.get? schema "properties").bind Value.entries? with
      | none => rfl
      | some entries => exact List.map_map
    simp only [ Refinement.apply?, patternProperties?, (h "patternProperties" (by decide)).entries rfl, hproperties,
      leftOver_readsAs hf (h "additionalProperties" (by decide)) (.inl rfl)]
    cases (Entries.get? schema "patternProperties").bind Value.entries? with
    | none => rfl
    | some entries =>
      dsimp only [Option.map_some]
      rw [patternRules_map]
  | uniqueItems => simp only [ Refinement.apply?, uniqueItems?, (h "uniqueItems" (by decide)).setTrue]
  | not =>
    have hnot := h "not" (by decide)
    simp only [ Refinement.apply?, not?, show Entries.get? schema' "not" = (Entries.get? schema "not").map f from hnot]
    cases Entries.get? schema "not" <;> rfl
  | default => simp only [ Refinement.apply?, default?, (h "default" (by decide)).same]
  | description => simp only [ Refinement.apply?, description?, (h "description" (by decide)).same]

/-- **Any refinements read their keywords and nothing else.** -/
theorem Refinement.runAll_readsAs [Pattern.Engine] (hf : KeepsForm f) (refinements : List Refinement) (vd : Validator)
    (h : ∀ refinement ∈ refinements, ∀ keyword ∈ refinement.keywords, ReadsAs f schema schema' keyword) :
    Refinement.runAll remark convert schema' refinements vd =
      Refinement.runAll remark (fun s => convert (f s)) schema refinements vd := by
  induction refinements generalizing vd with
  | nil => rfl
  | cons refinement rest ih =>
    obtain ⟨hfirst, hrest⟩ := List.forall_mem_cons.mp h
    rw [Refinement.runAll, Refinement.runAll, apply?_readsAs hf refinement vd hfirst]
    exact bind_congr fun refined => ih _ hrest

end

end Schemata
