import Schemata.Proofs.Schema.Slots
import Schemata.Proofs.Validator.Combinators
import Schemata.Proofs.Validator.Parts

/-!
# `Schemata.Proofs.Schema.Keeping` — what compilation keeps

The second phase wraps the validator of the first one, puts conditions on it and joins it with the validators of
sub-schemas. A property of validators that is kept by the few ways of doing so, and by those of the first phase,
holds of every validator that compilation makes (`compile_keeps`).

## Contents
- **Conditions.** `SchemaCondition`, the conditions that the second phase takes from a schema.
- **Refinements.** `RefinementInvariant` and `refinements_keep`.
- **Compilation.** `KeepsNode` and `compile_keeps`.
-/

namespace Schemata

/-! ## Conditions -/

/-- The conditions that the second phase takes from a mapping of keywords, with validators of sub-schemas inside. -/
inductive SchemaCondition (schema : Entries) (sub : Validator → Prop) : Test → Prop
  | hasKeys {names : List Value} (required : Entries.get? schema "required" = some (.list names))
      (proto : names.any (Value.isText "__proto__") = true) (untyped : Entries.has schema "type" = false) :
      SchemaCondition schema sub (.hasKeys names)
  | amongComposites {values : List Value} (enum : (Entries.get? schema "enum").bind Value.items? = some values) :
      SchemaCondition schema sub (.amongComposites (values.filter isCompositeValue))
  | equals {value : Value} (const : Entries.get? schema "const" = some value) :
      SchemaCondition schema sub (.equals value)
  | positions {items : List Validator} {extra : Additional} (each : ∀ c ∈ items, sub c)
      (others : ∀ c, extra = .checked c → sub c) : SchemaCondition schema sub (.positions items extra)
  | counted {item : Validator} (each : sub item) :
      SchemaCondition schema sub (.counted item ((Entries.get? schema "minContains").getD (.int 1))
        (Entries.given? schema "maxContains"))
  | patterns {rules : List PatternRule} {declared : List Value} {extra : Additional}
      (each : ∀ rule ∈ rules, sub rule.validator) (others : ∀ c, extra = .checked c → sub c) :
      SchemaCondition schema sub (.patterns rules declared extra)
  | distinct : SchemaCondition schema sub .distinct
  | rejectedBy {negated : Validator} (part : sub negated) : SchemaCondition schema sub (.rejectedBy negated)

theorem SchemaCondition.forall_validators {schema : Entries} {sub : Validator → Prop} {test : Test}
    (h : SchemaCondition schema sub test) : ∀ c ∈ test.validators, sub c := by
  cases h with
  | hasKeys _ _ _ | amongComposites _ | equals _ | distinct => exact List.forall_mem_nil _
  | positions each others => exact List.forall_mem_append.mpr ⟨each, Additional.forall_mem_validator others⟩
  | counted each => exact List.forall_mem_singleton.mpr each
  | patterns each others =>
    exact List.forall_mem_append.mpr ⟨List.forall_mem_map.mpr each, Additional.forall_mem_validator others⟩
  | rejectedBy part => exact List.forall_mem_singleton.mpr part

/-! ## Refinements -/

/-- A property of validators that is kept by what the second phase makes of a mapping of keywords. -/
structure RefinementInvariant (schema : Entries) (holds : Validator → Prop) : Prop where
  any : holds .any
  never : holds .never
  refined : ∀ vd test message, SchemaCondition schema holds test → test.ToldAs message → holds vd →
    holds (.refined vd test message)
  both : ∀ left right, holds left → holds right → holds (.both left right)
  union : ∀ options tags, (∀ c ∈ options, holds c) → (∀ tag ∈ tags, ∃ kind : Kind, tag = kind.name) →
    holds (.union options tags)
  defaulted : ∀ vd value, Entries.get? schema "default" = some value → vd.accepts value = .ok true → holds vd →
    holds (.defaulted vd value)
  described : ∀ vd text, holds vd → holds (.described vd text)

section

variable {schema : Entries} {holds : Validator → Prop} (hinv : RefinementInvariant schema holds)
  {convert : Value → Except CompileError Validator}
  (hsub : ∀ s ∈ subSchemas schema, ∀ c, convert s = .ok c → holds c)

include hsub in
theorem keeps_branches {keyword : String} (hkeyword : (keyword, KeywordShape.schemas) ∈ keywordShapes) :
    Answers False (branches convert schema keyword) fun all => ∀ c ∈ all, holds c := by
  unfold branches
  split
  next items hitems =>
    refine (answers_mapM items fun s hs => .of_meets (hsub s (mem_subSchemas_of_items hkeyword hitems hs))).mono ?_
    rintro _ ⟨done, hdone, rfl⟩
    exact List.forall_mem_map.mpr hdone.fits
  · exact .pure (List.forall_mem_nil _)

include hsub in
theorem keeps_leftOver (shape : KeywordShape) {keyword : String} (hkeyword : (keyword, shape) ∈ keywordShapes)
    (hself : ∀ entries, Value.dict entries ∈ shape.subSchemas (.dict entries)) :
    Answers False (leftOver convert schema keyword) fun additional => ∀ c, additional = .checked c → holds c := by
  unfold leftOver
  split
  · exact .pure nofun
  next entries hget =>
    refine .bind (.of_meets (hsub _ (mem_subSchemas shape hget hkeyword (hself entries)))) fun c hc => .pure fun d hd => ?_
    exact Additional.checked.inj hd ▸ hc
  · exact .pure nofun

theorem keeps_patternRules [Pattern.Engine] {entries : Entries} (h : ∀ e ∈ entries, ∀ c, convert e.2 = .ok c → holds c) :
    Answers False (patternRules (fun _ => .ok ()) convert entries) fun rules =>
      ∀ rule ∈ rules, holds rule.validator := by
  induction entries with
  | nil => exact .pure (List.forall_mem_nil _)
  | cons e es ih =>
    obtain ⟨hfirst, hrest⟩ := List.forall_mem_cons.mp h
    rw [patternRules]
    split
    · exact .error not_false
    · exact .bind (.trivial _) fun _ _ => ih hrest
    · refine .bind (.of_meets hfirst) fun c hc => .bind (ih hrest) fun rules hrules => .pure ?_
      exact List.forall_mem_cons.mpr ⟨hc, hrules⟩

include hinv

theorem keeps_unionOf {options : List Validator} (h : ∀ c ∈ options, holds c) {tags : List String}
    (htags : ∀ tag ∈ tags, ∃ kind : Kind, tag = kind.name) : holds (Validator.unionOf options tags) :=
  Validator.forall_unionOf hinv.never (hinv.union _ _ h htags) h

theorem keeps_foldl_both {vd : Validator} (hvd : holds vd) {all : List Validator} (hall : ∀ c ∈ all, holds c) :
    holds (all.foldl .both vd) :=
  List.foldlRecOn all .both hvd fun _ hinner c hc => hinv.both _ _ hinner (hall c hc)

include hsub

theorem keeps_someOf {vd : Validator} (hvd : holds vd) {keyword : String}
    (hkeyword : (keyword, KeywordShape.schemas) ∈ keywordShapes) :
    Answers False (someOf? convert vd schema keyword) fun w => ∀ c, w = some c → holds c := by
  refine .bind (keeps_branches hsub hkeyword) fun options hoptions => .pure fun c hc => ?_
  split at hc
  · cases hc
  · obtain rfl := Option.some.inj hc
    exact hinv.both _ _ hvd (keeps_unionOf hinv hoptions (List.forall_mem_nil _))

omit hsub in
/-- A condition of the schema on a validator with the property. -/
theorem keeps_condition {inner : Validator} {test : Test} {message : String} (hmessage : Unbroken message)
    (htest : SchemaCondition schema holds test) (hinner : holds inner) :
    ∀ c, some (Validator.refined inner test message) = some c → holds c :=
  fun _ hc => Option.some.inj hc ▸ hinv.refined _ _ _ htest (.unbroken hmessage) hinner

omit hsub in
theorem keeps_protoRequired : ∀ c, protoRequired? schema = some c → holds c := by
  unfold protoRequired?
  split
  next names hget =>
    split
    next hlooked =>
      obtain ⟨hproto, huntyped⟩ := Bool.and_eq_true_iff.mp hlooked
      exact keeps_condition hinv (by decide) (.hasKeys hget hproto (by simpa using huntyped)) hinv.any
    · exact nofun
  · exact nofun

omit hsub in
theorem keeps_compositeEnumeration {vd : Validator} (hvd : holds vd) :
    ∀ c, compositeEnumeration? vd schema = some c → holds c := by
  unfold compositeEnumeration?
  split
  next values hget =>
    dsimp only
    split
    · exact nofun
    · exact keeps_condition hinv (by decide) (.amongComposites hget) hvd
  · exact nofun

omit hsub in
theorem keeps_compositeConst {vd : Validator} (hvd : holds vd) : ∀ c, compositeConst? vd schema = some c → holds c := by
  unfold compositeConst?
  split
  next value hget =>
    split
    · exact keeps_condition hinv (by decide) (.equals hget) hvd
    · exact nofun
  · exact nofun

theorem keeps_prefixItems {vd : Validator} (hvd : holds vd) :
    Answers False (prefixItems? convert vd schema) fun w => ∀ c, w = some c → holds c := by
  unfold prefixItems?
  split
  · exact .pure nofun
  next items hitems =>
    have heach : ∀ s ∈ items, Answers False (convert s) holds := fun s hs =>
      .of_meets (hsub s (mem_subSchemas_of_items (by decide) hitems hs))
    refine .bind (answers_mapM items heach) ?_
    rintro _ ⟨done, hdone, rfl⟩
    refine .bind (keeps_leftOver hsub .schemaOrSchemas (by decide) fun _ => List.mem_singleton.mpr rfl) fun extra hextra => ?_
    exact .pure (keeps_condition hinv (by decide) (.positions (List.forall_mem_map.mpr hdone.fits) hextra) hvd)

theorem keeps_contains {vd : Validator} (hvd : holds vd) :
    Answers False (contains? convert vd schema) fun w => ∀ c, w = some c → holds c := by
  unfold contains?
  split
  · exact .pure nofun
  next item hget =>
    have hmem := mem_subSchemas .schema hget (by decide) (List.mem_singleton.mpr rfl)
    exact .bind (.of_meets (hsub item hmem)) fun c hc => .pure (keeps_condition hinv (by decide) (.counted hc) hvd)

theorem keeps_patternProperties [Pattern.Engine] {vd : Validator} (hvd : holds vd) :
    Answers False (patternProperties? (fun _ => .ok ()) convert vd schema) fun w => ∀ c, w = some c → holds c := by
  unfold patternProperties?
  split
  · exact .pure nofun
  next entries hentries =>
    have heach : ∀ e ∈ entries, ∀ c, convert e.2 = .ok c → holds c := fun e he =>
      hsub e.2 (mem_subSchemas_of_entries "patternProperties" (by decide) (by rw [hentries]; exact he))
    refine .bind (keeps_patternRules heach) fun rules hrules => ?_
    refine .bind (keeps_leftOver hsub .schema (by decide) fun _ => List.mem_singleton.mpr rfl) fun extra hextra => ?_
    exact .pure (keeps_condition hinv (by decide) (.patterns hrules hextra) hvd)

theorem keeps_not {vd : Validator} (hvd : holds vd) :
    Answers False (not? convert vd schema) fun w => ∀ c, w = some c → holds c := by
  unfold not?
  split
  · exact .pure nofun
  next negated hget =>
    have hmem := mem_subSchemas .schema hget (by decide) (List.mem_singleton.mpr rfl)
    exact .bind (.of_meets (hsub negated hmem)) fun c hc => .pure (keeps_condition hinv (by decide) (.rejectedBy hc) hvd)

omit hsub in
/-- A default is attached only after the validator has accepted it. -/
theorem keeps_default {vd : Validator} (hvd : holds vd) :
    Answers False (default? (m := Except CompileError) (fun _ => .ok ()) vd schema) fun w => ∀ c, w = some c → holds c := by
  unfold default?
  split
  · exact .pure nofun
  next value hget =>
    have haccepts : Answers False (orError (m := Except CompileError) (vd.accepts value)) fun b =>
        vd.accepts value = .ok b := by
      cases vd.accepts value with
      | ok b => exact .ok rfl
      | error f => exact .error not_false
    refine .bind haccepts fun accepted haccepted => ?_
    cases accepted with
    | true => exact .pure fun c hc => Option.some.inj hc ▸ hinv.defaulted vd value hget haccepted hvd
    | false => exact .bind (.trivial _) fun _ _ => .bind (.trivial _) fun _ _ => .pure nofun

/-- **Every refinement keeps the property.** -/
theorem keeps_refinement [Pattern.Engine] {vd : Validator} (hvd : holds vd) (refinement : Refinement) :
    Answers False ( refinement.apply? (fun _ => .ok ()) convert vd schema) fun w => ∀ c, w = some c → holds c := by
  cases refinement with
  | protoRequired => exact .pure (keeps_protoRequired hinv)
  | compositeEnumeration => exact .pure (keeps_compositeEnumeration hinv hvd)
  | compositeConst => exact .pure (keeps_compositeConst hinv hvd)
  | allOf =>
    refine .bind (keeps_branches hsub (by decide)) fun all hall => .pure fun c hc => ?_
    split at hc
    · cases hc
    · exact Option.some.inj hc ▸ keeps_foldl_both hinv hvd hall
  | anyOf => exact keeps_someOf hinv hsub hvd (by decide)
  | oneOf => exact keeps_someOf hinv hsub hvd (by decide)
  | prefixItems => exact keeps_prefixItems hinv hsub hvd
  | contains => exact keeps_contains hinv hsub hvd
  | patternProperties => exact keeps_patternProperties hinv hsub hvd
  | uniqueItems =>
    refine .pure ?_
    unfold uniqueItems?
    split
    · exact keeps_condition hinv (by decide) .distinct hvd
    · exact nofun
  | not => exact keeps_not hinv hsub hvd
  | default => exact keeps_default hinv hvd
  | description =>
    refine .pure ?_
    unfold description?
    split
    · exact fun c hc => Option.some.inj hc ▸ hinv.described vd _ hvd
    · exact nofun

/-- All refinements keep the property. -/
theorem refinements_keep [Pattern.Engine] (refinements : List Refinement) {vd : Validator} (hvd : holds vd) :
    Answers False (Refinement.runAll (fun _ => .ok ()) convert schema refinements vd) holds := by
  induction refinements generalizing vd with
  | nil => exact .pure hvd
  | cons refinement rest ih =>
    rw [Refinement.runAll]
    refine .bind (keeps_refinement hinv hsub hvd refinement) fun w hw => ih ?_
    cases w with
    | none => exact hvd
    | some c => exact hw c rfl

end

/-! ## Compilation -/

/-- A property of validators that compilation keeps at a mapping of keywords: validators of sub-schemas that have it
supply slots whose validators have it. -/
structure KeepsNode [Pattern.Engine] (holds : Validator → Prop) (schema : Entries) : Prop where
  slots : ∃ (supply : Supply) (slotHolds : Kind → Validator → Prop), SlotInvariant supply slotHolds ∧
    (∀ convert, (∀ s ∈ subSchemas schema, ∀ c, convert s = .ok c → holds c) → Supplies convert schema supply) ∧
      ∀ kind vd, slotHolds kind vd → holds vd
  refinements : RefinementInvariant schema holds

section

variable [Pattern.Engine] {schema : Entries} {holds : Validator → Prop}
  {convert : Value → Except CompileError Validator}

omit [Pattern.Engine] in
/-- The joined validator of slots whose validators have the property. -/
theorem keeps_assemble (hinv : RefinementInvariant schema holds) {slots : Admissibility}
    (h : ∀ o ∈ slots.validators, holds o.2) : holds (slots.assemble schema) := by
  unfold Admissibility.assemble
  split
  · exact hinv.never
  next heq => exact h _ (heq ▸ List.mem_cons_self)
  · split
    · exact hinv.union _ _ (List.forall_mem_map.mpr h) (List.forall_mem_map.mpr fun o _ => ⟨o.1, rfl⟩)
    · exact hinv.any

/-- What the first phase leaves has the property. -/
theorem KeepsNode.assembled (hnode : KeepsNode holds schema)
    (hsub : ∀ s ∈ subSchemas schema, ∀ c, convert s = .ok c → holds c) :
    Answers False (KindRule.runAll (fun _ => .ok ()) convert schema KindRule.all .initial) fun slots =>
      holds (slots.assemble schema) := by
  obtain ⟨supply, slotHolds, hinv, hsupplies, hslot⟩ := hnode.slots
  refine (slots_keep hinv (hsupplies convert hsub) _ .initial).mono fun slots hslots => ?_
  exact keeps_assemble hnode.refinements fun o ho => hslot o.1 o.2 (validators_keep hinv hslots ho)

theorem KeepsNode.compileNode (hnode : KeepsNode holds schema)
    (hsub : ∀ s ∈ subSchemas schema, ∀ c, convert s = .ok c → holds c) :
    Answers False (compileNode (fun _ => .ok ()) convert schema) holds :=
  .bind (hnode.assembled hsub) fun _ hassembled => refinements_keep hnode.refinements hsub _ hassembled

end

/-- **What every mapping of keywords keeps, compilation keeps.** -/
theorem compile_keeps [Pattern.Engine] {holds : Validator → Prop} {schema : Value} {vd : Validator}
    (h : compile schema = .ok vd) (hany : holds .any) (hnever : holds .never)
    (hnodes : Everywhere (KeepsNode holds) schema) : holds vd := by
  revert hnodes
  refine compile_induction ?_ ?_ h
  · intro b _
    cases b with
    | true => exact hany
    | false => exact hnever
  · intro convert schema hsub vd hvd hnodes
    exact (hnodes.here.compileNode fun s hs c hc => hsub s hs c hc (hnodes.inside hs)).meets vd hvd

end Schemata
