import Schemata.Proofs.Schema.Dispatch
import Schemata.Proofs.Schema.Roles
import Schemata.Proofs.Validator.Sides

/-!
# `Schemata.Proofs.Schema.Layers` — the second phase, layer by layer

A refinement of the second phase puts a layer around the validator that it is given: a condition, or other validators
beside it. Which layer that is depends on the schema and its sub-schemas alone, and only the one that attaches defaults
asks the validator first. So the second phase is compared on two validators, and for two ways of compiling sub-schemas,
by comparing the layers.

## Contents
- **Layers.** `Layer` and `Layer.on`.
- **Pairs.** `PairedLayers`, layers of one refinement that differ in the validators of sub-schemas only.
- **Refinements.** `follows_refinement`, and `follows_constraints` and `constraints_keep` for the refinements before
  annotations.
- **Annotations.** `Annotated`, what defaults and descriptions make of a validator, and `compile_annotated`.
-/

namespace Schemata

open Validator

/-! ## Layers -/

/-- What a refinement puts around a validator. -/
inductive Layer
  | replaced (vd : Validator)
  | condition (test : Test) (message : String)
  | joined (others : List Validator)

/-- A validator with a layer around it. -/
def Layer.on : Layer → Validator → Validator
  | .replaced vd, _ => vd
  | .condition test message, inner => .refined inner test message
  | .joined others, vd => others.foldl .both vd

/-! ## Pairs -/

/-- The layers of a refinement for two ways of compiling sub-schemas. -/
inductive PairedLayers (related : Role → Validator → Validator → Prop) (schema : Entries) : Refinement → Layer → Layer → Prop
  | protoRequired {vd : Validator} (proto : protoRequired? schema = some vd) :
      PairedLayers related schema .protoRequired (.replaced vd) (.replaced vd)
  | compositeEnumeration {values : List Value} (enum : (Entries.get? schema "enum").bind Value.items? = some values)
      (message : String) (some : values.filter isCompositeValue ≠ []) : PairedLayers related schema .compositeEnumeration
        (.condition (.amongComposites (values.filter isCompositeValue)) message)
        (.condition (.amongComposites (values.filter isCompositeValue)) message)
  | compositeConst {value : Value} (const : Entries.get? schema "const" = some value) (message : String)
      (composite : isCompositeValue value = true) :
      PairedLayers related schema .compositeConst (.condition (.equals value) message) (.condition (.equals value) message)
  | allOf {all all' : List Validator} (each : List.Forall₂ (related .branch) all all') :
      PairedLayers related schema .allOf (.joined all) (.joined all')
  | someOf {refinement : Refinement} {options options' : List Validator} (some : options ≠ [])
      (each : List.Forall₂ (related .branch) options options') (choice : refinement = .anyOf ∨ refinement = .oneOf) :
      PairedLayers related schema refinement
        (.joined [Validator.unionOf options []]) (.joined [Validator.unionOf options' []])
  | prefixItems {items items' : List Validator} {extra extra' : Additional} (has : Entries.has schema "prefixItems" = true)
      (each : List.Forall₂ (related .prefixItem) items items') (others : extra.Paired (related .extraItem) extra')
      (message : String) : PairedLayers related schema .prefixItems
        (.condition (.positions items extra) message) (.condition (.positions items' extra') message)
  | contains {c c' : Validator} (has : Entries.has schema "contains" = true) (each : related .contained c c')
      (least : Value) (most : Option Value) (message : String) : PairedLayers related schema .contains
        (.condition (.counted c least most) message) (.condition (.counted c' least most) message)
  | patternProperties {rules rules' : List PatternRule} {extra extra' : Additional}
      (has : Entries.has schema "patternProperties" = true)
      (each : List.Forall₂ (PatternRule.Paired (related .pattern)) rules rules')
      (others : extra.Paired (related .extraMember) extra') (message : String) :
      PairedLayers related schema .patternProperties
        (.condition (.patterns rules ((mappedSchemas schema "properties").map Prod.fst) extra) message)
        (.condition (.patterns rules' ((mappedSchemas schema "properties").map Prod.fst) extra') message)
  | uniqueItems (set : isSetTrue schema "uniqueItems" = true) (message : String) :
      PairedLayers related schema .uniqueItems (.condition .distinct message) (.condition .distinct message)
  | not {c c' : Validator} (has : Entries.has schema "not" = true) (each : related .negated c c') (message : String) :
      PairedLayers related schema .not (.condition (.rejectedBy c) message) (.condition (.rejectedBy c') message)

/-- **Paired conditions hold of the same values**, if the validators in them accept the same. -/
theorem PairedLayers.holdsOn {related : Role → Validator → Validator → Prop} {good : Value → Prop} (hgood : Value.GoesDown good)
    (hrelated : ∀ role c c', related role c c' → AcceptOn good c c') {schema : Entries} {refinement : Refinement}
    {test test' : Test} {message message' : String}
    (h : PairedLayers related schema refinement (.condition test message) (.condition test' message')) :
    message = message' ∧ test.HoldsOn good test' := by
  cases h with
  | compositeEnumeration | compositeConst | uniqueItems => exact ⟨rfl, .refl _⟩
  | prefixItems _ each others =>
    exact ⟨rfl, .positions hgood (each.imp (hrelated _)) (others.imp (hrelated _))⟩
  | contains _ each least most => exact ⟨rfl, .counted hgood (hrelated _ _ _ each) least most⟩
  | patternProperties _ each others =>
    exact ⟨rfl, .patterns hgood (each.imp fun _ _ hrule => hrule.imp (hrelated _)) _ (others.imp (hrelated _))⟩
  | not _ each => exact ⟨rfl, .rejectedBy (hrelated _ _ _ each)⟩

theorem Additional.Paired.eq {extra extra' : Additional} (h : extra.Paired Eq extra') : extra = extra' := by
  cases h with
  | strict => rfl
  | passthrough => rfl
  | checked hc => rw [hc]

theorem PatternRule.Paired.eq {rule rule' : PatternRule} (h : rule.Paired Eq rule') : rule = rule' := by
  obtain ⟨pattern, rfl⟩ := h
  rfl

/-- Layers whose sub-schemas are compiled to the same validators are the same. -/
theorem PairedLayers.eq {schema : Entries} {refinement : Refinement} {layer layer' : Layer}
    (h : PairedLayers (fun _ => Eq) schema refinement layer layer') : layer = layer' := by
  have hlists : ∀ {cs cs' : List Validator}, List.Forall₂ Eq cs cs' → cs = cs' := fun each => List.forall₂_eq_eq_eq ▸ each
  cases h with
  | protoRequired | compositeEnumeration | compositeConst | uniqueItems => rfl
  | allOf each => rw [hlists each]
  | someOf _ each => rw [hlists each]
  | prefixItems _ each others => rw [hlists each, others.eq]
  | contains _ each => rw [each]
  | patternProperties _ each others =>
    obtain rfl := List.forall₂_eq_eq_eq ▸ each.imp fun _ _ => PatternRule.Paired.eq
    rw [others.eq]
  | not _ each => rw [each]

/-! ## Refinements -/

namespace Refinement

/-- The refinements that say something about values. -/
def constraints : List Refinement := [.protoRequired, .compositeEnumeration, .compositeConst, .allOf, .anyOf, .oneOf,
  .prefixItems, .contains, .patternProperties, .uniqueItems, .not]

theorem all_eq : all = constraints ++ [.default, .description] := rfl

theorem runAll_append [Pattern.Engine] {remark : Remark → Except CompileError Unit}
    {convert : Value → Except CompileError Validator} {schema : Entries} (refinements others : List Refinement)
    (vd : Validator) :
    runAll remark convert schema (refinements ++ others) vd =
      runAll remark convert schema refinements vd >>= runAll remark convert schema others := by
  induction refinements generalizing vd with
  | nil => rfl
  | cons refinement rest ih =>
    rw [List.cons_append, runAll, runAll, bind_assoc]
    exact bind_congr fun refined => ih _

end Refinement

section

variable {related : Role → Validator → Validator → Prop} {schema : Entries}
  {convert other : Value → Except CompileError Validator}

/-- No layer on either side, or layers that are paired. -/
def SameLayer (related : Role → Validator → Validator → Prop) (schema : Entries) (refinement : Refinement)
    (vd vd' : Validator) (w w' : Option Validator) : Prop :=
  w = none ∧ w' = none ∨
    ∃ layer layer', PairedLayers related schema refinement layer layer' ∧ w = some (layer.on vd) ∧ w' = some (layer'.on vd')

variable (hpairs : ∀ role : Role, ∀ s ∈ role.schemas schema, Follows (convert s) (other s) (related role))
include hpairs

theorem follows_branches {keyword : String} (hkeyword : ∀ s ∈ listedSchemas schema keyword, s ∈ Role.branch.schemas schema) :
    Follows (branches convert schema keyword) (branches other schema keyword) (List.Forall₂ (related .branch)) := by
  unfold branches
  unfold listedSchemas at hkeyword
  split
  next items hitems =>
    rw [hitems] at hkeyword
    exact .mapM items fun s hs => hpairs .branch s (hkeyword s hs)
  next => exact .pure .nil

theorem follows_someOf {keyword : String} (hkeyword : ∀ s ∈ listedSchemas schema keyword, s ∈ Role.branch.schemas schema)
    {refinement : Refinement} (hchoice : refinement = .anyOf ∨ refinement = .oneOf) (vd vd' : Validator) :
    Follows (someOf? convert vd schema keyword) (someOf? other vd' schema keyword)
      (SameLayer related schema refinement vd vd') := by
  refine .bind (follows_branches hpairs hkeyword) fun options options' hoptions => .pure ?_
  cases hoptions with
  | nil => exact .inl ⟨rfl, rfl⟩
  | cons hfirst hrest => exact .inr ⟨_, _, .someOf (List.cons_ne_nil _ _) (.cons hfirst hrest) hchoice, rfl, rfl⟩

theorem follows_leftOver (role : Role) {keyword : String} (hrole : ∀ s ∈ schema.mapping keyword, s ∈ role.schemas schema) :
    Follows (leftOver convert schema keyword) (leftOver other schema keyword)
      fun extra extra' => extra.Paired (related role) extra' := by
  unfold leftOver
  split
  · exact .pure .strict
  next entries hget =>
    exact .bind (hpairs role _ (hrole _ (mem_mapping hget))) fun c c' hc => .pure (.checked hc)
  · exact .pure .passthrough

omit hpairs in
theorem follows_patternRules [Pattern.Engine] {entries : Entries} {related : Validator → Validator → Prop}
    (h : ∀ e ∈ entries, Follows (convert e.2) (other e.2) related) :
    Follows (patternRules (fun _ => .ok ()) convert entries) (patternRules (fun _ => .ok ()) other entries)
      (List.Forall₂ (PatternRule.Paired related)) := by
  induction entries with
  | nil => exact .pure .nil
  | cons e es ih =>
    obtain ⟨hfirst, hrest⟩ := List.forall_mem_cons.mp h
    rw [patternRules, patternRules]
    split
    · exact .error
    · exact .bind (.self _) fun _ _ _ => ih hrest
    next pattern _ =>
      exact .bind hfirst fun c c' hc => .bind (ih hrest) fun rules rules' hrules => .pure (.cons (.mk pattern hc) hrules)

omit hpairs in
theorem sameLayer_compositeEnumeration (vd vd' : Validator) :
    SameLayer related schema .compositeEnumeration vd vd' (compositeEnumeration? vd schema) (compositeEnumeration? vd' schema) := by
  unfold compositeEnumeration?
  split
  next values hvalues =>
    dsimp only
    split
    · exact .inl ⟨rfl, rfl⟩
    next hsome => exact .inr ⟨_, _, .compositeEnumeration hvalues _ fun hnone => hsome (by rw [hnone]; rfl), rfl, rfl⟩
  next => exact .inl ⟨rfl, rfl⟩

omit hpairs in
theorem sameLayer_compositeConst (vd vd' : Validator) :
    SameLayer related schema .compositeConst vd vd' (compositeConst? vd schema) (compositeConst? vd' schema) := by
  unfold compositeConst?
  split
  next value hvalue =>
    split
    next hcomposite => exact .inr ⟨_, _, .compositeConst hvalue _ hcomposite, rfl, rfl⟩
    next => exact .inl ⟨rfl, rfl⟩
  next => exact .inl ⟨rfl, rfl⟩

theorem follows_prefixItems (vd vd' : Validator) :
    Follows (prefixItems? convert vd schema) (prefixItems? other vd' schema)
      (SameLayer related schema .prefixItems vd vd') := by
  unfold prefixItems?
  split
  · exact .pure (.inl ⟨rfl, rfl⟩)
  next items hitems =>
    have heach : ∀ s ∈ items, Follows (convert s) (other s) (related .prefixItem) := fun s hs =>
      hpairs .prefixItem s (show s ∈ listedSchemas schema "prefixItems" from (listedSchemas_eq hitems).symm ▸ hs)
    refine .bind (.mapM items heach) fun cs cs' hcs => ?_
    refine .bind (follows_leftOver hpairs .extraItem fun s hs => hs) fun extra extra' hextra => .pure ?_
    exact .inr ⟨_, _, .prefixItems (Entries.has_of_bind hitems) hcs hextra _, rfl, rfl⟩

theorem follows_contains (vd vd' : Validator) :
    Follows (contains? convert vd schema) (contains? other vd' schema) (SameLayer related schema .contains vd vd') := by
  unfold contains?
  split
  · exact .pure (.inl ⟨rfl, rfl⟩)
  next item hget =>
    refine .bind (hpairs .contained item (Option.mem_toList.mpr hget)) fun c c' hc => .pure ?_
    exact .inr ⟨_, _, .contains (Entries.has_of_get? hget) hc _ _ _, rfl, rfl⟩

theorem follows_patternProperties [Pattern.Engine] (vd vd' : Validator) :
    Follows (patternProperties? (fun _ => .ok ()) convert vd schema) (patternProperties? (fun _ => .ok ()) other vd' schema)
      (SameLayer related schema .patternProperties vd vd') := by
  unfold patternProperties?
  split
  · exact .pure (.inl ⟨rfl, rfl⟩)
  next entries hentries =>
    have heach : ∀ e ∈ entries, Follows (convert e.2) (other e.2) (related .pattern) := fun e he =>
      hpairs .pattern e.2 (List.mem_map_of_mem ((mappedSchemas_eq hentries).symm ▸ he))
    refine .bind (follows_patternRules heach) fun rules rules' hrules => ?_
    refine .bind (follows_leftOver hpairs .extraMember fun s hs => hs) fun extra extra' hextra => .pure ?_
    exact .inr ⟨_, _, .patternProperties (Entries.has_of_bind hentries) hrules hextra _, rfl, rfl⟩

theorem follows_not (vd vd' : Validator) :
    Follows (not? convert vd schema) (not? other vd' schema) (SameLayer related schema .not vd vd') := by
  unfold not?
  split
  · exact .pure (.inl ⟨rfl, rfl⟩)
  next negated hget =>
    refine .bind (hpairs .negated negated (Option.mem_toList.mpr hget)) fun c c' hc => .pure ?_
    exact .inr ⟨_, _, .not (Entries.has_of_get? hget) hc _, rfl, rfl⟩

/-- **A refinement puts paired layers** around any two validators. -/
theorem follows_refinement [Pattern.Engine] {refinement : Refinement} (h : refinement ∈ Refinement.constraints)
    (vd vd' : Validator) :
    Follows ( refinement.apply? (fun _ => .ok ()) convert vd schema) ( refinement.apply? (fun _ => .ok ()) other vd' schema)
      (SameLayer related schema refinement vd vd') := by
  cases refinement with
  | protoRequired =>
    refine .pure ?_
    cases hproto : protoRequired? schema with
    | none => exact .inl ⟨rfl, rfl⟩
    | some w => exact .inr ⟨_, _, .protoRequired hproto, rfl, rfl⟩
  | compositeEnumeration => exact .pure (sameLayer_compositeEnumeration vd vd')
  | compositeConst => exact .pure (sameLayer_compositeConst vd vd')
  | allOf =>
    refine .bind (follows_branches hpairs fun s hs => List.mem_append_left _ (List.mem_append_left _ hs))
      fun all all' hall => .pure ?_
    cases hall with
    | nil => exact .inl ⟨rfl, rfl⟩
    | cons hfirst hrest => exact .inr ⟨_, _, .allOf (.cons hfirst hrest), rfl, rfl⟩
  | anyOf => exact follows_someOf hpairs (fun s hs => List.mem_append_left _ (List.mem_append_right _ hs)) (.inl rfl) vd vd'
  | oneOf => exact follows_someOf hpairs (fun s hs => List.mem_append_right _ hs) (.inr rfl) vd vd'
  | prefixItems => exact follows_prefixItems hpairs vd vd'
  | contains => exact follows_contains hpairs vd vd'
  | patternProperties => exact follows_patternProperties hpairs vd vd'
  | uniqueItems =>
    refine .pure ?_
    unfold uniqueItems?
    split
    next hset => exact .inr ⟨_, _, .uniqueItems hset _, rfl, rfl⟩
    next => exact .inl ⟨rfl, rfl⟩
  | not => exact follows_not hpairs vd vd'
  | default => simp [Refinement.constraints] at h
  | description => simp [Refinement.constraints] at h

/-- **What paired layers keep, the refinements before annotations keep.** -/
theorem follows_constraints [Pattern.Engine] (holds : Validator → Validator → Prop) {refinements : List Refinement}
    (hrefinements : refinements ⊆ Refinement.constraints)
    (hlayers : ∀ refinement ∈ refinements, ∀ layer layer', PairedLayers related schema refinement layer layer' →
      ∀ vd vd', holds vd vd' → holds (layer.on vd) (layer'.on vd'))
    (vd vd' : Validator) (h : holds vd vd') :
    Follows (Refinement.runAll (fun _ => .ok ()) convert schema refinements vd)
      (Refinement.runAll (fun _ => .ok ()) other schema refinements vd') holds := by
  induction refinements generalizing vd vd' with
  | nil => exact .pure h
  | cons refinement rest ih =>
    obtain ⟨hfirst, hrest⟩ := List.forall_mem_cons.mp hlayers
    rw [Refinement.runAll, Refinement.runAll]
    refine .bind (follows_refinement hpairs (hrefinements List.mem_cons_self) vd vd') ?_
    rintro _ _ (⟨rfl, rfl⟩ | ⟨layer, layer', hpaired, rfl, rfl⟩)
    · exact ih (List.subset_of_cons_subset hrefinements) hrest vd vd' h
    · exact ih (List.subset_of_cons_subset hrefinements) hrest _ _ (hfirst layer layer' hpaired vd vd' h)

omit hpairs in
/-- **What layers keep, the refinements before annotations keep**, for one way of compiling sub-schemas. -/
theorem constraints_keep [Pattern.Engine] {inside : Role → Validator → Prop}
    (hinside : ∀ role : Role, ∀ s ∈ role.schemas schema, ∀ c, convert s = .ok c → inside role c) {holds : Validator → Prop}
    (hlayers : ∀ {refinement layer layer'}, PairedLayers (fun role c _ => inside role c) schema refinement layer layer' →
      ∀ vd, holds vd → holds (layer.on vd)) {base : Validator} (h : holds base) :
    Answers False (Refinement.runAll (fun _ => .ok ()) convert schema Refinement.constraints base) holds := by
  have hself : ∀ role : Role, ∀ s ∈ role.schemas schema, Follows (convert s) (convert s) fun c _ => inside role c :=
    fun role s hs c hc => ⟨c, hc, hinside role s hs c hc⟩
  refine .of_meets fun core hcore => ?_
  obtain ⟨_, _, hheld⟩ := follows_constraints hself (fun vd _ => holds vd) (List.Subset.refl _)
    (fun _ _ _ _ hpaired vd _ => hlayers hpaired vd) base base h core hcore
  exact hheld

end

/-! ## Annotations -/

section

variable [Pattern.Engine] {schema : Entries} {core vd : Validator}

/-- A validator with the default of a schema attached if it accepts it, and with its description. -/
inductive Annotated (schema : Entries) (core : Validator) : Validator → Prop
  | plain (dropped : ∀ value, Entries.get? schema "default" = some value → core.accepts value = .ok false) :
      Annotated schema core core
  | defaulted {value : Value} (given : Entries.get? schema "default" = some value) (accepted : core.accepts value = .ok true) :
      Annotated schema core (.defaulted core value)
  | described {vd : Validator} (h : Annotated schema core vd) (text : String) : Annotated schema core (.described vd text)

theorem answers_annotations (convert : Value → Except CompileError Validator) :
    Answers False (Refinement.runAll (fun _ => .ok ()) convert schema [.default, .description] core)
      (Annotated schema core) := by
  have hdefault : Answers False (default? (m := Except CompileError) (fun _ => .ok ()) core schema) fun w =>
      Annotated schema core (w.getD core) := by
    unfold default?
    split
    next hnone => exact .pure (.plain fun value hvalue => by rw [hnone] at hvalue; cases hvalue)
    next value hvalue =>
      have haccepts : Answers False (core.accepts value) fun accepted => core.accepts value = .ok accepted :=
        .of_meets fun _ h => h
      refine .bind (answers_orError haccepts) fun accepted haccepted => ?_
      cases accepted with
      | true => exact .pure (.defaulted hvalue haccepted)
      | false =>
        refine .bind (.trivial _) fun _ _ => .bind (.trivial _) fun _ _ => .pure (.plain fun other hother => ?_)
        obtain rfl : value = other := Option.some.inj (hvalue.symm.trans hother)
        exact haccepted
  refine .bind hdefault fun w hw => .pure ?_
  unfold description?
  split
  · exact hw.described _
  · exact hw

omit [Pattern.Engine] in
/-- Annotations are of no matter to values that are there. -/
theorem Annotated.check_present (h : Annotated schema core vd) {v : Value} (hv : v ≠ .absent) (path : Pointer) :
    vd.check v path = core.check v path := by
  induction h with
  | plain _ => rfl
  | defaulted _ _ => exact check_defaulted hv _ _
  | described _ _ ih => exact ih

omit [Pattern.Engine] in
/-- The absent value is left to the validator inside, or a default stands in for it. -/
theorem Annotated.check_absent (h : Annotated schema core vd) :
    (∀ path, vd.check .absent path = core.check .absent path) ∧
        (∀ value, Entries.get? schema "default" = some value → core.accepts value = .ok false) ∨
      ∃ value, Entries.get? schema "default" = some value ∧ core.accepts value = .ok true ∧
        ∀ path, vd.check .absent path = .ok (.accept value) := by
  induction h with
  | plain dropped => exact .inl ⟨fun _ => rfl, dropped⟩
  | defaulted given accepted => exact .inr ⟨_, given, accepted, fun _ => rfl⟩
  | described _ _ ih => exact ih

/-- The validator of a mapping before annotations. -/
def coreValidator (schema : Entries) : Except CompileError Validator :=
  baseValidator schema >>= Refinement.runAll (fun _ => .ok ()) compile schema Refinement.constraints

theorem compile_dict_core (schema : Entries) : compile (.dict schema) =
    coreValidator schema >>= Refinement.runAll (fun _ => .ok ()) compile schema [.default, .description] := by
  rw [compile_dict_base, coreValidator, bind_assoc, Refinement.all_eq]
  exact bind_congr fun base => Refinement.runAll_append _ _ base

/-- **A compiled mapping is annotated in the end.** -/
theorem compile_annotated (h : compile (.dict schema) = .ok vd) :
    ∃ core, coreValidator schema = .ok core ∧ Annotated schema core vd := by
  rw [compile_dict_core] at h
  obtain ⟨core, hcore, hvd⟩ := exists_of_bind_eq_ok h
  exact ⟨core, hcore, (answers_annotations compile).meets vd hvd⟩

end

end Schemata
