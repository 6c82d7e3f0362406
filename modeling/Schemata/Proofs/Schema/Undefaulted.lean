import Schemata.Pattern.Reader
import Schemata.Proofs.Schema.Regular
import Schemata.Proofs.Schema.Unread
import Schemata.Proofs.Validator.Issues

/-!
# `Schemata.Proofs.Schema.Undefaulted` — a schema without its defaults

Defaults are filled into outputs, and issues are reported on values. So a schema finds the same issues with and without
its defaults, but for two reasons. A required property with a default is not missing. And a refinement judges the output
of what stands before it: a constant, for instance, is compared with what has been filled in.

## Contents
- **Schemas that fill nothing in.** `FillsNothing`, and `DefaultsAside`, where no default is required or judged.
- **Kinds.** `SameUndefaulted` sub-schemas, and `sameLayers_of_paired` for the validators that they are used in.
- **Layers.** `SameLayers`, what the second phase keeps, and `sameLayers_literals` and `sameLayers_others`.
- **Mappings.** `follows_undefaulted`, by induction over sub-schemas.
- **Acceptance.** `acceptance_undefaulted`, and a constant that a default keeps from being met.
-/

namespace Schemata

open Value Validator

/-! ## Schemas that fill nothing in -/

/-- Whether a schema has a default of its own. -/
def Value.hasDefault : Value → Bool
  | .dict schema => Entries.has schema "default"
  | _ => false

/-- The roles of the sub-schemas that outputs of lists come from. -/
def Role.ofItems : List Role := [.element, .position, .rest]

/-- The roles of the sub-schemas that outputs of mappings come from. -/
def Role.ofMembers : List Role := [.property, .other]

/-- A schema that fills nothing in, at any depth: where outputs come from, no property has a default. -/
inductive FillsNothing : Value → Prop
  | mapping {schema : Entries} (properties : ∀ e ∈ mappedSchemas schema "properties", e.2.hasDefault = false)
      (inside : ∀ role ∈ .branch :: (Role.ofItems ++ Role.ofMembers), ∀ s ∈ role.schemas schema, FillsNothing s) :
      FillsNothing (.dict schema)
  | other {v : Value} (noEntries : v.entries? = none) : FillsNothing v

/-- Nothing is filled into the items of a list. -/
def ItemsUnfilled (schema : Entries) : Prop := ∀ role ∈ Role.ofItems, ∀ s ∈ role.schemas schema, FillsNothing s

/-- Nothing is filled into a mapping or its members. -/
def MembersUnfilled (schema : Entries) : Prop :=
  (∀ e ∈ mappedSchemas schema "properties", e.2.hasDefault = false) ∧
    ∀ role ∈ Role.ofMembers, ∀ s ∈ role.schemas schema, FillsNothing s

/-- The branches of `allOf`, `anyOf` and `oneOf` fill nothing in. -/
def BranchesFillNothing (schema : Entries) : Prop := ∀ s ∈ Role.branch.schemas schema, FillsNothing s

/-- A list or a mapping is the constant or a member of the enumeration. -/
def HasCompositeLiteral (schema : Entries) : Prop :=
  (∃ value, Entries.get? schema "const" = some value ∧ isCompositeValue value = true) ∨
    ∃ values, (Entries.get? schema "enum").bind Value.items? = some values ∧ values.filter isCompositeValue ≠ []

/-- What a refinement judges has not been filled in before. -/
structure JudgesUnfilled (schema : Entries) : Prop where
  literal : HasCompositeLiteral schema → ItemsUnfilled schema ∧ MembersUnfilled schema
  items : Entries.has schema "prefixItems" = true ∨ Entries.has schema "contains" = true ∨
    isSetTrue schema "uniqueItems" = true → ItemsUnfilled schema
  patterns : Entries.has schema "patternProperties" = true → BranchesFillNothing schema
  negated : Entries.has schema "not" = true → ItemsUnfilled schema ∧ MembersUnfilled schema ∧ BranchesFillNothing schema

/-- No default is required or judged. -/
structure DefaultsAside (schema : Entries) : Prop where
  optional : ∀ e ∈ mappedSchemas schema "properties", ((requiredNames schema).any fun key => e.1.isText key) = true →
    e.2.hasDefault = false
  branches : BranchesUnfilled schema
  judged : JudgesUnfilled schema

/-- Nothing is judged but scalars where none of these keywords is. -/
theorem JudgesUnfilled.of_none {schema : Entries} (h : Entries.hasAny schema ["const", "enum", "prefixItems", "contains",
    "uniqueItems", "patternProperties", "not"] = false) : JudgesUnfilled schema := by
  have hnone : ∀ keyword ∈ ["const", "enum", "prefixItems", "contains", "uniqueItems", "patternProperties", "not"],
      Entries.get? schema keyword = none := fun keyword hmem =>
    Entries.has_eq_false_iff.mp (by simpa using List.any_eq_false.mp h keyword hmem)
  constructor
  · rintro (⟨value, hget, _⟩ | ⟨values, hget, _⟩)
    · rw [hnone _ (by decide)] at hget
      cases hget
    · rw [hnone _ (by decide)] at hget
      cases hget
  · simp [Entries.has, isSetTrue, hnone]
  · simp [Entries.has, hnone]
  · simp [Entries.has, hnone]

theorem FillsNothing.unfilled {schema : Entries} (h : FillsNothing (.dict schema)) :
    ItemsUnfilled schema ∧ MembersUnfilled schema ∧ BranchesFillNothing schema := by
  cases h with
  | mapping properties inside =>
    refine ⟨fun role hrole => inside role ?_, ⟨properties, fun role hrole => inside role ?_⟩, inside _ List.mem_cons_self⟩
    · exact List.mem_cons_of_mem _ (List.mem_append_left _ hrole)
    · exact List.mem_cons_of_mem _ (List.mem_append_right _ hrole)
  | other noEntries => cases noEntries

/-! ## Kinds -/

/-- Anything may be put around validators that fill nothing in, but an object. -/
theorem unfilling_refinementInvariant (schema : Entries) : RefinementInvariant schema Unfilling where
  any := .intro nofun (List.forall_mem_nil _)
  never := .intro nofun (List.forall_mem_nil _)
  refined := fun _ _ _ _ _ h => .intro nofun (List.forall_mem_singleton.mpr h)
  both := fun _ _ hleft hright => .intro nofun (List.forall_mem_cons.mpr ⟨hleft, List.forall_mem_singleton.mpr hright⟩)
  union := fun _ _ h _ => .intro nofun h
  defaulted := fun _ _ _ _ h => .intro nofun (List.forall_mem_singleton.mpr h)
  described := fun _ _ h => .intro nofun (List.forall_mem_singleton.mpr h)

theorem Validator.Unfilling.refined {inner : Validator} (h : Unfilling inner) (test : Test) (message : String) :
    Unfilling (.refined inner test message) := .intro nofun (List.forall_mem_singleton.mpr h)

/-- What is compiled from a sub-schema with and without its defaults. -/
structure SameUndefaulted (nothing : Prop) (c c' : Validator) : Prop where
  issues : SameIssues c c'
  plain : Unfilling c'
  unfilled : nothing → Unfilling c

/-- What is compiled from a declared property with and without its defaults. -/
structure SameProperty (nothing : Prop) (required : Bool) (c c' : Validator) : Prop extends SameUndefaulted nothing c c' where
  missing : SameMissing required c c'
  absent : nothing → StaysAbsent c

section

variable {schema : Entries}

/-- The names of the declared properties. -/
abbrev propertyNames (schema : Entries) : List Value := (mappedSchemas schema "properties").map Prod.fst

/-- What a mapping is compiled to before annotations, with and without its defaults, as far as it has been built. With a
list, no more is filled in than into its items. Beside `patternProperties`, undeclared members are left alone. -/
structure SameLayers (schema : Entries) (whole : Prop) (vd vd' : Validator) : Prop where
  issues : SameIssues vd vd'
  plain : Unfilling vd'
  whole : whole → Unfilling vd
  items : ItemsUnfilled schema → LeavesAs SameList vd
  others : Entries.has schema "patternProperties" = true → BranchesFillNothing schema →
    LeavesAs (SameOthers (propertyNames schema)) vd

/-- The same validator, if it fills nothing in. -/
theorem SameLayers.of_sameIssues {whole : Prop} {vd vd' : Validator} (h : SameIssues vd vd') (hvd : Unfilling vd)
    (hvd' : Unfilling vd') : SameLayers schema whole vd vd' :=
  ⟨h, hvd', fun _ => hvd, fun _ => hvd.leavesAs.mono fun _ _ => .of_eq, fun _ _ => hvd.leavesAs.mono fun _ _ => .of_eq⟩

theorem SameLayers.mono {whole other : Prop} {vd vd' : Validator} (h : SameLayers schema whole vd vd') (hother : other → whole) :
    SameLayers schema other vd vd' := { h with whole := fun ho => h.whole (hother ho) }

theorem SameLayers.union {whole : Prop} {options options' : List Validator}
    (h : List.Forall₂ (SameLayers schema whole) options options') (tags : List String) :
    SameLayers schema whole (.union options tags) (.union options' tags) := by
  have heach : ∀ {holds : Validator → Prop}, (∀ c c', SameLayers schema whole c c' → holds c) → ∀ c ∈ options, holds c :=
    fun hholds => forall_of_forall₂ h hholds
  have heach' : ∀ c' ∈ options', Unfilling c' := forall_of_forall₂ h.flip fun _ _ hc => hc.plain
  constructor
  · exact .union (h.imp fun _ _ hc => hc.issues) tags
  · exact .intro nofun heach'
  · exact fun hwhole => .intro nofun (heach fun _ _ hc => hc.whole hwhole)
  · exact fun hitems => .union (heach fun _ _ hc => hc.items hitems) tags
  · exact fun hhas hbranches => .union (heach fun _ _ hc => hc.others hhas hbranches) tags

/-- The sub-schemas in a role fill nothing in. -/
abbrev Unfilled (schema : Entries) (role : Role) : Prop := ∀ s ∈ role.schemas schema, FillsNothing s

/-- **The validators of a kind**, with and without the defaults of sub-schemas. -/
theorem sameLayers_of_paired {kind : Kind} {vd vd' : Validator}
    (h : PairedKind (fun role => SameUndefaulted (Unfilled schema role)) (SameProperty (MembersUnfilled schema)) kind vd vd')
    (hplain : Unfilling vd') (hobject : kind = .object → Entries.has schema "patternProperties" = true →
      LeavesAs (SameOthers (propertyNames schema)) vd) :
    SameLayers schema (ItemsUnfilled schema ∧ MembersUnfilled schema) vd vd' := by
  have hany : Unfilling .any := (unfilling_refinementInvariant schema).any
  have hpasses : ∀ {role : Role} {c c'}, OrPasses (SameUndefaulted (Unfilled schema role)) c c' →
      SameIssues c c' ∧ (Unfilled schema role → Unfilling c) := by
    intro role c c' hc
    cases hc with
    | passes => exact ⟨.refl _, fun _ => hany⟩
    | related hc => exact ⟨hc.issues, hc.unfilled⟩
  -- a list that the items leave as they are, and mappings that are refused
  have hlists : ∀ {vd : Validator}, (ItemsUnfilled schema → Unfilling vd) → SameIssues vd vd' →
      LeavesAs (SameOthers (propertyNames schema)) vd → SameLayers schema (ItemsUnfilled schema ∧ MembersUnfilled schema) vd vd' :=
    fun hvd hissues hothers => ⟨hissues, hplain, fun hwhole => hvd hwhole.1,
      fun hitems => (hvd hitems).leavesAs.mono fun _ _ => .of_eq, fun _ _ => hothers⟩
  have hrefused : ∀ {vd : Validator}, (∀ entries p, ∃ cause, vd.check (.dict entries) p = .ok (.reject (.dict entries) p cause)) →
      LeavesAs (SameOthers (propertyNames schema)) vd := by
    rintro vd hvd v _ p
    refine .of_meets ?_
    rintro r hr hok entries rfl
    obtain ⟨cause, hcause⟩ := hvd entries p
    obtain rfl := Except.ok.inj (hcause.symm.trans hr)
    cases hok
  cases h with
  | plain vd _ _ => exact .of_sameIssues (.refl vd) hplain hplain
  | array each bounds =>
    refine hlists (fun hitems => .intro nofun (List.forall_mem_singleton.mpr ?_)) (.array (hpasses each).1 bounds) ?_
    · exact (hpasses each).2 (hitems .element (by decide))
    · exact hrefused fun entries p => ⟨_, rfl⟩
  | @tuple items items' rest rest' each beyond bounds =>
    have hrest : Option.Rel SameIssues rest rest' ∧ (ItemsUnfilled schema → ∀ c ∈ rest.toList, Unfilling c) := by
      cases beyond with
      | none => exact ⟨.none, fun _ => List.forall_mem_nil _⟩
      | some hc =>
        exact ⟨.some (hpasses hc).1, fun hitems => List.forall_mem_singleton.mpr ((hpasses hc).2 (hitems .rest (by decide)))⟩
    refine hlists (fun hitems => .intro nofun (List.forall_mem_append.mpr ⟨?_, hrest.2 hitems⟩))
      (.tuple (each.imp fun _ _ hc => hc.issues) hrest.1 bounds) ?_
    · exact forall_of_forall₂ each fun _ _ hc => hc.unfilled (hitems .position (by decide))
    · exact hrefused fun entries p => ⟨_, rfl⟩
  | @object fields fields' additional additional' each others bounds =>
    have hfields : List.Forall₂ (Field.Paired fun required c c' => SameIssues c c' ∧ SameMissing required c c') fields fields' := by
      refine each.imp fun f f' hf => ?_
      obtain ⟨name, required, hc⟩ := hf
      refine .mk name required ?_
      cases hc with
      | passes => exact ⟨.refl _, fun p => .ok fun _ => rfl⟩
      | related hc => exact ⟨hc.issues, hc.missing⟩
    have hunfilled : MembersUnfilled schema → ∀ f ∈ fields, StaysAbsent f.validator ∧ Unfilling f.validator := by
      refine fun hmembers => forall_of_forall₂ each fun f f' hf => ?_
      obtain ⟨name, required, hc⟩ := hf
      cases hc with
      | passes => exact ⟨fun p => .ok fun _ => rfl, hany⟩
      | related hc => exact ⟨hc.absent hmembers, hc.unfilled hmembers⟩
    have hothers : MembersUnfilled schema → ∀ c ∈ additional.validator?.toList, Unfilling c := by
      intro hmembers
      cases others with
      | checked hc => exact List.forall_mem_singleton.mpr (hc.unfilled (hmembers.2 .other (by decide)))
      | _ => exact List.forall_mem_nil _
    refine ⟨.object hfields (others.imp fun _ _ hc => hc.issues) bounds, hplain, fun hwhole => ?_, fun _ => ?_,
      fun hhas _ => hobject rfl hhas⟩
    · refine .intro ?_ (List.forall_mem_append.mpr ⟨List.forall_mem_map.mpr fun f hf => (hunfilled hwhole.2 f hf).2, hothers hwhole.2⟩)
      rintro _ _ _ ⟨⟩ f hf
      exact (hunfilled hwhole.2 f hf).1
    · intro v _ p
      cases v with
      | list items => exact .ok nofun
      | _ => exact (Answers.trivial _).mono fun _ _ _ items hlist => nomatch hlist

/-! ## Layers -/

namespace SameLayers

variable {whole : Prop} {vd vd' : Validator} (h : SameLayers schema whole vd vd')
include h

/-- A condition that judges what has been left as it is. -/
theorem refined {like : Value → Value → Prop} (hleaves : LeavesAs like vd) {test test' : Test} (hjudges : test.Judges like)
    (htest : test.HoldsOn IsJson test') (message : String) :
    SameLayers schema whole (.refined vd test message) (.refined vd' test' message) where
  issues := h.issues.refined hleaves h.plain.leavesAs hjudges htest message
  plain := h.plain.refined test' message
  whole := fun hwhole => (h.whole hwhole).refined test message
  items := fun hitems => (h.items hitems).refined test message
  others := fun hhas hbranches => (h.others hhas hbranches).refined test message

/-- A branch. It fills nothing into lists, for joining leaves these to the left side. -/
theorem both (hbranches : whole → BranchesFillNothing schema) {c c' : Validator}
    (hc : SameUndefaulted (BranchesFillNothing schema) c c') : SameLayers schema whole (.both vd c) (.both vd' c') where
  issues := h.issues.both hc.issues
  plain := (unfilling_refinementInvariant schema).both _ _ h.plain hc.plain
  whole := fun hwhole => (unfilling_refinementInvariant schema).both _ _ (h.whole hwhole) (hc.unfilled (hbranches hwhole))
  items := fun hitems => by
    have hright : LeavesAs (fun _ _ => True) c := fun v hv p => .of_meets fun _ _ _ => trivial
    exact (h.items hitems).both hright fun v l r _ hl _ => hl.mergeOutputs
  others := fun hhas hnothing => by
    refine (h.others hhas hnothing).both (hc.unfilled hnothing).leavesAs ?_
    rintro v l _ hv hl rfl
    exact hl.mergeOutputs hv

theorem foldl (hbranches : whole → BranchesFillNothing schema) {all all' : List Validator}
    (hall : List.Forall₂ (SameUndefaulted (BranchesFillNothing schema)) all all') :
    SameLayers schema whole (all.foldl .both vd) (all'.foldl .both vd') :=
  List.rel_foldl (fun _ _ hvd _ _ hc => hvd.both hbranches hc) h hall

end SameLayers

theorem SameUndefaulted.unionOf {nothing : Prop} {options options' : List Validator}
    (h : List.Forall₂ (SameUndefaulted nothing) options options') :
    SameUndefaulted nothing (Validator.unionOf options []) (Validator.unionOf options' []) where
  issues := .unionOf (h.imp fun _ _ hc => hc.issues) []
  plain := keeps_unionOf (unfilling_refinementInvariant [])
    (forall_of_forall₂ h.flip fun _ _ hc => hc.plain) (List.forall_mem_nil _)
  unfilled := fun hnothing => keeps_unionOf (unfilling_refinementInvariant [])
    (forall_of_forall₂ h fun _ _ hc => hc.unfilled hnothing) (List.forall_mem_nil _)

section

variable (hdefaults : DefaultsAside schema) {refinement : Refinement} {layer layer' : Layer}
  (hpaired : PairedLayers (fun role => SameUndefaulted (Unfilled schema role)) schema refinement layer layer') {vd vd' : Validator}
include hdefaults hpaired

/-- **Literals judge** what the first phase leaves. -/
theorem sameLayers_literals (hrefinement : refinement ∈ [Refinement.protoRequired, .compositeEnumeration, .compositeConst])
    (h : SameLayers schema (ItemsUnfilled schema ∧ MembersUnfilled schema) vd vd') :
    SameLayers schema (ItemsUnfilled schema ∧ MembersUnfilled schema) (layer.on vd) (layer'.on vd') := by
  cases hpaired with
  | protoRequired proto =>
    obtain ⟨names, rfl⟩ := protoRequired?_eq_some proto
    have hkeys := (unfilling_refinementInvariant schema).any.refined (.hasKeys names) "Missing required properties"
    exact .of_sameIssues (.refl _) hkeys hkeys
  | compositeEnumeration enum message some =>
    have hunfilled := h.whole (hdefaults.judged.literal (.inr ⟨_, enum, some⟩))
    exact h.refined hunfilled.leavesAs (Test.judges_eq _) (.refl _) message
  | compositeConst const message composite =>
    have hunfilled := h.whole (hdefaults.judged.literal (.inl ⟨_, const, composite⟩))
    exact h.refined hunfilled.leavesAs (Test.judges_eq _) (.refl _) message
  | someOf _ _ choice => rcases choice with rfl | rfl <;> simp at hrefinement
  | _ => simp at hrefinement

/-- **The other refinements judge** what the branches leave. -/
theorem sameLayers_others (hrefinement : refinement ∈ [Refinement.allOf, .anyOf, .oneOf, .prefixItems, .contains,
      .patternProperties, .uniqueItems, .not])
    (h : SameLayers schema (ItemsUnfilled schema ∧ MembersUnfilled schema ∧ BranchesFillNothing schema) vd vd') :
    SameLayers schema (ItemsUnfilled schema ∧ MembersUnfilled schema ∧ BranchesFillNothing schema) (layer.on vd)
      (layer'.on vd') := by
  have hjudged := hdefaults.judged
  have htest : ∀ {test test' message message'}, layer = .condition test message → layer' = .condition test' message' →
      test.HoldsOn IsJson test' := by
    rintro test test' message message' rfl rfl
    exact (hpaired.holdsOn goesDown_isJson fun _ _ _ hc => hc.issues.acceptOn).2
  cases hpaired with
  | allOf each => exact h.foldl (fun hwhole => hwhole.2.2) each
  | someOf _ each _ => exact h.both (fun hwhole => hwhole.2.2) (.unionOf each)
  | prefixItems has _ _ message =>
    exact h.refined (h.items (hjudged.items (.inl has))) (Test.judges_sameList rfl) (htest rfl rfl) message
  | contains has _ _ _ message =>
    exact h.refined (h.items (hjudged.items (.inr (.inl has)))) (Test.judges_sameList rfl) (htest rfl rfl) message
  | uniqueItems set message =>
    exact h.refined (h.items (hjudged.items (.inr (.inr set)))) (Test.judges_sameList rfl) (htest rfl rfl) message
  | patternProperties has _ _ message =>
    exact h.refined (h.others has (hjudged.patterns has)) (Test.judges_sameOthers _ _ _) (htest rfl rfl) message
  | not has _ message =>
    exact h.refined (h.whole (hjudged.negated has)).leavesAs (Test.judges_eq _) (htest rfl rfl) message
  | _ => simp at hrefinement

end

/-- The field of an object has the name of a property, or passes everything. -/
theorem BuiltObject.named_or_any {convert : Value → Except CompileError Validator} {fields : List Field}
    {additional : Additional} (h : BuiltObject convert schema fields additional) {f : Field} (hf : f ∈ fields) :
    f.name ∈ propertyNames schema ∨ f.validator = .any := by
  obtain ⟨⟨declared, hdeclared, rfl⟩, _⟩ := h
  rcases Field.mem_addRequired hf with hf | ⟨key, _, rfl, _⟩
  · obtain ⟨d, hd, rfl⟩ := List.mem_map.mp hf
    exact .inl (List.mem_map_of_mem (hdeclared.mem hd))
  · exact .inr rfl

/-- **An object leaves undeclared members alone** beside `patternProperties`. -/
theorem BuiltObject.leavesOthers {convert : Value → Except CompileError Validator} {fields : List Field}
    {additional : Additional} (h : BuiltObject convert schema fields additional) (hjson : (Value.dict schema).IsJson)
    (hpatterns : Entries.has schema "patternProperties" = true) (bounds : Bounds) :
    LeavesAs (SameOthers (propertyNames schema)) (.object fields additional bounds) := by
  obtain rfl : additional = .passthrough := by
    have hpolicy := h.policy
    rw [additionalPolicy, if_pos hpatterns] at hpolicy
    exact (Except.ok.inj hpolicy).symm
  rintro v hv p
  cases v with
  | dict entries =>
    have hmember : ∀ e ∈ entries, ∀ f, Field.find? fields e.1 = some f →
        Answers False (f.validator.check e.2 (p ++ [e.1.plain])) fun r => r.ok = true →
          IsAmong (propertyNames schema) e.1 ∨ r.output = e.2 := by
      intro e _ f hf
      rcases h.named_or_any (List.mem_of_find?_eq_some hf) with hname | hany
      · have halike : f.name.alike e.1 = true := List.find?_some (p := fun f : Field => f.name.alike e.1) hf
        exact (Answers.trivial _).mono fun _ _ _ => .inl (List.any_eq_true.mpr ⟨_, hname, halike⟩)
      · rw [hany]
        exact .ok fun _ => .inr rfl
    have hobject : Answers False ((Validator.object fields .passthrough bounds).check (.dict entries) p) _ :=
      answers_object (memberCountIssues_at _ bounds p) hmember (fun _ _ _ _ hchecked => by cases hchecked)
        fun f _ => (.of_meets fun r hr => hr : Answers False (f.validator.check .absent (p ++ [f.name.plain]))
          fun r => f.validator.check .absent (p ++ [f.name.plain]) = .ok r)
    refine hobject.mono ?_
    rintro out ⟨counts, done, gone, _, hdone, hgone, rfl⟩ hok
    have hissues := List.append_eq_nil_iff.mp (Report.ok_iff.mp hok)
    have hmembers := (List.append_eq_nil_iff.mp hissues.1).2
    let same : Value × Value → Value → Prop := fun e o => IsAmong (propertyNames schema) e.1 ∨ o = e.2
    have hkept := @Visits.kept_members same _ _ _ _ _ hdone (fun _ _ => .inr rfl) (List.flatMap_eq_nil_iff.mp hmembers)
    have heach := hdone.args ▸ @kept_entries same done hkept
    rintro _ ⟨⟩
    refine ⟨_, _, rfl, heach, fun e he => ?_⟩
    -- what passes everything leaves the absent value absent, and fills nothing in
    obtain ⟨⟨f, r⟩, hd, rfl, _, hpresent⟩ := mem_filled he
    rcases h.named_or_any (List.mem_of_mem_filter (hgone.mem hd)) with hname | hany
    · exact List.any_eq_true.mpr ⟨_, hname, (distinctTexts_declared hjson).alike_self hname⟩
    · have hcheck : f.validator.check .absent (p ++ [f.name.plain]) = .ok r := hgone.fits _ hd
      rw [hany] at hcheck
      exact absurd (Except.ok.inj hcheck ▸ rfl) hpresent
  | _ => exact (Answers.trivial _).mono fun _ _ _ entries hdict => by cases hdict

end

/-! ## Mappings -/

/-- A schema without its defaults, at every depth. -/
abbrev Value.undefaulted (schema : Value) : Value := schema.edited (·.without "default")

/-- The keywords of a mapping without its defaults. -/
abbrev undefaultedKeywords (schema : Entries) : Entries := (editedKeywords (·.without "default") schema).without "default"

theorem noDefaults_undefaulted (schema : Value) : NoDefaults schema.undefaulted := by
  refine everywhere_edited (fun entries => ?_) (fun k _ entries v hget => ?_) schema
  · rw [Entries.has, Entries.get?_without_self]
    rfl
  · by_cases hdefault : k.1 = "default"
    · rw [hdefault, Entries.get?_without_self] at hget
      cases hget
    · rwa [Entries.get?_without hdefault] at hget

/-- Without a default of its own, a schema leaves the absent value absent. -/
theorem leavesAbsent_of_hasDefault [Pattern.Engine] {schema : Value} {vd : Validator} (hcompile : compile schema = .ok vd)
    (hbranches : Everywhere BranchesUnfilled schema) (hnone : schema.hasDefault = false) : LeavesAbsent vd := by
  rcases compile_forms hcompile with ⟨b, rfl, rfl⟩ | ⟨entries, rfl⟩
  · cases b with
    | true => exact fun path => .ok fun _ => rfl
    | false => exact fun path => .ok nofun
  · obtain ⟨core, hcore, hannotated⟩ := compile_annotated hcompile
    have hleaves := leavesAbsent_core hbranches hcore
    rcases hannotated.check_absent with ⟨hcheck, _⟩ | ⟨value, hgiven, _⟩
    · intro path
      rw [hcheck path]
      exact hleaves path
    · rw [Entries.has_eq_false_iff.mp hnone] at hgiven
      cases hgiven

theorem Annotated.unfilling {schema : Entries} {core vd : Validator} (h : Annotated schema core vd) (hcore : Unfilling core) :
    Unfilling vd := by
  induction h with
  | plain _ => exact hcore
  | defaulted _ _ => exact .intro nofun (List.forall_mem_singleton.mpr hcore)
  | described _ _ ih => exact .intro nofun (List.forall_mem_singleton.mpr ih)

section

variable [Pattern.Engine] {schema : Entries} (hdefaults : Everywhere DefaultsAside (.dict schema))
  (hpairs : ∀ s ∈ subSchemas schema, Follows (compile s) (compile s.undefaulted) (SameUndefaulted (FillsNothing s)))
include hdefaults hpairs

/-- A property is missing with its default if it is missing without, for then it is not required. -/
theorem follows_property {e : Value × Value} (he : e ∈ mappedSchemas schema "properties") :
    Follows (compile e.2) (compile e.2.undefaulted)
      (SameProperty (MembersUnfilled schema) ((requiredNames schema).any fun key => e.1.isText key)) := by
  have hsub : e.2 ∈ subSchemas schema := mem_of_mem_mappedSchemas (by decide) he
  have hbranches : Everywhere BranchesUnfilled e.2 := (hdefaults.inside hsub).mono fun _ haside => haside.branches
  intro c hc
  obtain ⟨c', hc', hsame⟩ := hpairs e.2 hsub c hc
  have hnothing := noDefaults_undefaulted e.2
  refine ⟨c', hc', ⟨hsame.issues, hsame.plain, fun hmembers => ?_⟩, fun p => ?_, fun hmembers p => ?_⟩
  · exact hsame.unfilled (hmembers.2 .property (by decide) e.2 (List.mem_map_of_mem he))
  · obtain ⟨r, hr⟩ := (answers_absent hc hbranches p).returns trivial
    obtain ⟨r', hr'⟩ := (answers_absent hc' hnothing.branchesUnfilled p).returns trivial
    rw [hr, hr']
    refine .ok fun hrequired => ?_
    have hleaves := leavesAbsent_of_hasDefault hc hbranches (hdefaults.here.optional e he hrequired)
    rw [Field.gives_eq_false ((hleaves p).meets r hr),
      Field.gives_eq_false (((compile_defaultFree hc' hnothing).answers_absent p).meets r' hr')]
  · exact .of_meets (leavesAbsent_of_hasDefault hc hbranches (hmembers.1 e he) p).meets

/-- What the first phase makes of a mapping with and without defaults. -/
theorem follows_undefaulted_base (hjson : (Value.dict schema).IsJson) {labels : Entries}
    (hlabels : hasConstraints labels = hasConstraints schema) :
    Follows (KindRule.runAll (fun _ => .ok ()) compile schema KindRule.all .initial)
      (KindRule.runAll (fun _ => .ok ()) (fun s => compile s.undefaulted) schema KindRule.all .initial) fun slots slots' =>
        SameLayers schema (ItemsUnfilled schema ∧ MembersUnfilled schema) (slots.assemble schema) (slots'.assemble labels) := by
  have hkeep : Answers False (KindRule.runAll (fun _ => .ok ()) (fun s => compile s.undefaulted) schema KindRule.all .initial)
      (Admissibility.Keep fun _ => DefaultFree) :=
    slots_keep defaultsAre_slotInvariant (.of_sub (fun _ _ => trivial) fun s _ c hc =>
      compile_defaultFree hc (noDefaults_undefaulted s)) KindRule.all .initial
  have hphase : Follows (KindRule.runAll (fun _ => .ok ()) compile schema KindRule.all .initial)
      (KindRule.runAll (fun _ => .ok ()) (fun s => compile s.undefaulted) schema KindRule.all .initial)
      (PairedSlots (fun role => SameUndefaulted (Unfilled schema role)) (SameProperty (MembersUnfilled schema))) :=
    follows_firstPhase (fun role s hs => (hpairs s (Role.mem_subSchemas hs)).mono fun c c' hc =>
      ⟨hc.issues, hc.plain, fun hunfilled => hc.unfilled (hunfilled s hs)⟩) fun e he => follows_property hdefaults hpairs he
  refine (hphase.both (holdsObject_all (v := .dict []) rfl) hkeep).mono ?_
  rintro slots slots' ⟨hslots, ⟨fields, additional, hholds, hbuilt⟩, hkept⟩
  have hany : Unfilling .any := (unfilling_refinementInvariant schema).any
  have hnever : Unfilling .never := (unfilling_refinementInvariant schema).never
  refine hslots.assemble hlabels (.of_sameIssues (.refl _) hany hany) (.of_sameIssues (.refl _) hnever hnever) ?_
    fun options options' tags heach => .union heach tags
  intro kind vd vd' hvd hvd' hpaired
  have hfree : DefaultFree vd' := validators_keep defaultsAre_slotInvariant hkept (mem_validators_of_admitted hvd')
  refine sameLayers_of_paired hpaired hfree.unfilling fun hkind hpatterns => ?_
  subst hkind
  rw [hholds] at hvd
  split at hvd
  next hadmits =>
    obtain rfl := Option.some.inj hvd
    exact (hbuilt hadmits).leavesOthers hjson hpatterns _
  next => cases hvd

/-- **Before annotations, a mapping is compiled** to validators that report the same issues with and without defaults. -/
theorem follows_undefaulted_core (hjson : (Value.dict schema).IsJson) :
    Follows (coreValidator schema) (coreValidator (undefaultedKeywords schema))
      (SameLayers schema (ItemsUnfilled schema ∧ MembersUnfilled schema ∧ BranchesFillNothing schema)) := by
  cases hrest : hasConstraints (undefaultedKeywords schema) with
  | false =>
    -- there was nothing but a default, and values of JSON are of some kind
    have hsilent' := isSilent_of_not_hasConstraints hrest
    have hsilent : IsSilent schema := fun k hk hspeaks => by
      have hne : k.1 ≠ "default" := fun hdefault => hspeaks (List.mem_cons.mpr (.inl hdefault))
      have hnone := hsilent' k hk hspeaks
      rw [Entries.get?_without hne, get?_editedKeywords] at hnone
      exact Option.map_eq_none_iff.mp hnone
    have hplain : ∀ labels, Unfilling (Admissibility.initial.assemble labels) := fun labels =>
      keeps_assemble (unfilling_refinementInvariant labels) fun o ho =>
        DefaultFree.unfilling (validators_keep defaultsAre_slotInvariant .initial ho)
    rw [coreValidator_silent hsilent, coreValidator_silent hsilent']
    exact .ok (.of_sameIssues (.of_sameOnNodes .silent) (hplain schema) (hplain (undefaultedKeywords schema)))
  | true =>
    have hlabels : hasConstraints (undefaultedKeywords schema) = hasConstraints schema := by
      rw [hrest, ← hasConstraints_editedKeywords schema, hasConstraints_of_without hrest]
    rw [coreValidator_eq, coreValidator_edited fun k _ hk => fun entries =>
      Entries.get?_without (fun hdefault => hk (List.mem_cons.mpr (.inl hdefault))) entries]
    refine .bind (follows_undefaulted_base hdefaults hpairs hjson hlabels) fun slots slots' hbase => ?_
    have hrole : ∀ role : Role, ∀ s ∈ role.schemas schema, Follows (compile s) (compile s.undefaulted)
        (SameUndefaulted (Unfilled schema role)) := fun role s hs =>
      (hpairs s (Role.mem_subSchemas hs)).mono fun c c' hc => ⟨hc.issues, hc.plain, fun hunfilled => hc.unfilled (hunfilled s hs)⟩
    rw [show Refinement.constraints = [Refinement.protoRequired, .compositeEnumeration, .compositeConst] ++
      [.allOf, .anyOf, .oneOf, .prefixItems, .contains, .patternProperties, .uniqueItems, .not] from rfl,
      Refinement.runAll_append, Refinement.runAll_append]
    refine .bind (follows_constraints hrole _ (by decide) (fun refinement hrefinement layer layer' hpaired vd vd' hvd =>
      sameLayers_literals hdefaults.here hpaired hrefinement hvd) _ _ hbase) fun first first' hfirst => ?_
    exact follows_constraints hrole _ (by decide) (fun refinement hrefinement layer layer' hpaired vd vd' hvd =>
      sameLayers_others hdefaults.here hpaired hrefinement hvd) _ _ (hfirst.mono fun hwhole => ⟨hwhole.1, hwhole.2.1⟩)

end

/-- **A schema without its defaults** is compiled if the schema is, and reports the same issues. -/
theorem follows_undefaulted [Pattern.Engine] {schema : Value} (hjson : schema.IsJson)
    (hdefaults : Everywhere DefaultsAside schema) :
    Follows (compile schema) (compile schema.undefaulted) (SameUndefaulted (FillsNothing schema)) := by
  induction schema using schema_induction with
  | mapping schema ih =>
    intro vd hvd
    have hpairs : ∀ s ∈ subSchemas schema, Follows (compile s) (compile s.undefaulted) (SameUndefaulted (FillsNothing s)) :=
      fun s hs => ih s hs (Value.goesDown_isJson.subSchema hjson hs) (hdefaults.inside hs)
    obtain ⟨core, hcore, hannotated⟩ := compile_annotated hvd
    obtain ⟨core', hcore', hlayers⟩ := follows_undefaulted_core hdefaults hpairs hjson core hcore
    obtain ⟨vd', hvd'⟩ := compile_of_core hcore' (Entries.get?_without_self _ _)
    obtain ⟨_, hsame, hannotated'⟩ := compile_annotated hvd'
    obtain rfl := Except.ok.inj (hcore'.symm.trans hsame)
    refine ⟨vd', hvd', fun v hv p => ?_, ?_, fun hnothing => ?_⟩
    · rw [hannotated.check_present hv.ne_absent, hannotated'.check_present hv.ne_absent]
      exact hlayers.issues v hv p
    · exact (compile_defaultFree hvd' (noDefaults_undefaulted (.dict schema))).unfilling
    · exact hannotated.unfilling (hlayers.whole hnothing.unfilled)
  | other v hother =>
    rw [show v.undefaulted = v from keepsForm_edited.other v hother]
    intro vd hvd
    have hplain : Unfilling vd := (compile_defaultFree hvd (.other hother)).unfilling
    exact ⟨vd, hvd, .refl vd, hplain, fun _ => hplain⟩

/-! ## Acceptance -/

/-- **Defaults do not change what is accepted**, if none is required or judged. Without its defaults a schema is compiled
as well, accepts the same values of JSON, and refuses the others for the same reasons. -/
theorem acceptance_undefaulted [Pattern.Engine] {schema : Value} {vd : Validator} (hcompile : compile schema = .ok vd)
    (hjson : schema.IsJson) (hdefaults : Everywhere DefaultsAside schema) :
    ∃ bare, compile schema.undefaulted = .ok bare ∧ NoDefaults schema.undefaulted ∧
      ∀ v : Value, v.IsJson → bare.accepts v = vd.accepts v ∧
        ∀ issues, bare.validate v = .ok (.error issues) ↔ vd.validate v = .ok (.error issues) := by
  obtain ⟨bare, hbare, hsame⟩ := follows_undefaulted hjson hdefaults vd hcompile
  refine ⟨bare, hbare, noDefaults_undefaulted schema, fun v hv => ⟨(hsame.issues.acceptOn v hv).symm, fun issues => ?_⟩⟩
  have hrefused : ∀ {c c' : Validator}, Lockstep (fun r r' => r.issues = r'.issues) (c.check v []) (c'.check v []) →
      c.validate v = .ok (.error issues) → c'.validate v = .ok (.error issues) := by
    intro c c' hlockstep hvalidate
    obtain ⟨r, hr, houtcome⟩ := exists_of_map_eq_ok hvalidate
    obtain ⟨r', hr', hissues⟩ := hlockstep.exists_of_ok hr
    have hok : r.ok = r'.ok := SameIssues.ok_eq hissues
    unfold Report.outcome at houtcome
    rw [Validator.validate, hr']
    show Except.ok r'.outcome = _
    rw [Report.outcome, ← hok, ← hissues]
    split at houtcome
    · cases houtcome
    next hnot => rw [if_neg hnot, houtcome]
  have hissues := hsame.issues v hv []
  exact ⟨hrefused (hissues.symm.mono fun _ _ hr => hr.symm), hrefused hissues⟩

attribute [local instance] Pattern.engine

/-- A default beside a list whose items have to be distinct. -/
theorem acceptance_undefaulted_list :
    let tags := Value.dict [(.string "type", .string "array"), (.string "uniqueItems", .bool true)]
    let schema := fun port : Entries => Value.dict [(.string "type", .string "object"),
      (.string "properties", .dict [(.string "port", .dict port), (.string "tags", tags)])]
    ∃ vd bare, compile (schema [(.string "default", .int 80)]) = .ok vd ∧ compile (schema []) = .ok bare ∧
      vd.validate (.dict []) = .ok (.ok (.dict [(.string "port", .int 80)])) ∧
      ∀ v : Value, v.IsJson → bare.accepts v = vd.accepts v ∧
        ∀ issues, bare.validate v = .ok (.error issues) ↔ vd.validate v = .ok (.error issues) := by
  intro tags schema
  have hcompile : compile (schema [(.string "default", .int 80)]) =
      .ok (.object [.mk (.string "port") false (.defaulted everyKind (.int 80)),
        .mk (.string "tags") false (.refined (.array .any {}) .distinct "Array items must be unique")] .passthrough {}) := by
    with_unfolding_all rfl
  have hjson : (schema [(.string "default", .int 80)]).IsJson := by
    refine .dict ⟨by simp, by simp⟩ (List.forall_mem_cons.mpr ⟨.leaf rfl rfl rfl, List.forall_mem_singleton.mpr ?_⟩)
    refine .dict ⟨by simp, by simp⟩ (List.forall_mem_cons.mpr ⟨?_, List.forall_mem_singleton.mpr ?_⟩)
    · exact .dict ⟨by simp, by simp⟩ (List.forall_mem_singleton.mpr (.leaf rfl rfl rfl))
    · refine .dict ⟨by simp, by simp⟩ (List.forall_mem_cons.mpr ⟨.leaf rfl rfl rfl, ?_⟩)
      exact List.forall_mem_singleton.mpr (.leaf rfl rfl rfl)
  -- nothing is required, and of what is judged only the list of tags is composite
  have haside : ∀ {entries : Entries}, requiredNames entries = [] → JudgesUnfilled entries → DefaultsAside entries := by
    intro entries hrequired hjudged
    refine ⟨fun e _ hname => ?_, fun hproto => ?_, hjudged⟩
    · rw [hrequired] at hname
      cases hname
    · rw [requiresProto, hrequired] at hproto
      simp at hproto
  have hdefaults : Everywhere DefaultsAside (schema [(.string "default", .int 80)]) := by
    refine .mapping (haside rfl (.of_none rfl)) (List.forall_mem_cons.mpr ⟨?_, List.forall_mem_singleton.mpr ?_⟩)
    · exact .mapping (haside rfl (.of_none rfl)) (List.forall_mem_nil _)
    · refine .mapping (haside rfl ⟨?_, fun _ => ?_, fun h => ?_, fun h => ?_⟩) (List.forall_mem_nil _)
      · rintro (⟨_, ⟨⟩, _⟩ | ⟨_, ⟨⟩, _⟩)
      · refine List.forall_mem_cons.mpr ⟨List.forall_mem_nil _, List.forall_mem_cons.mpr ⟨List.forall_mem_nil _, ?_⟩⟩
        exact List.forall_mem_singleton.mpr (List.forall_mem_nil _)
      · cases h
      · cases h
  obtain ⟨bare, hbare, _, hsame⟩ := acceptance_undefaulted hcompile hjson hdefaults
  exact ⟨_, bare, hcompile, hbare, by with_unfolding_all rfl, hsame⟩

/-- A constant that is not met once a default has been filled in. -/
theorem default_judged_by_const :
    let schema := Value.dict [(.string "type", .string "object"),
      (.string "properties", .dict [(.string "a", .dict [(.string "default", .int 1)])]), (.string "const", .dict [])]
    Everywhere HasShapes schema ∧ Everywhere (fun entries => requiredNames entries = []) schema ∧
      ∃ vd bare, compile schema = .ok vd ∧ compile schema.undefaulted = .ok bare ∧
        bare.validate (.dict []) = .ok (.ok (.dict [])) ∧
        vd.validate (.dict []) = .ok (.error [⟨[], .refinement "Value must equal the constant"⟩]) := by
  intro schema
  have hcompile : compile schema = .ok (.refined (.object [.mk (.string "a") false (.defaulted everyKind (.int 1))]
      .passthrough {}) (.equals (.dict [])) "Value must equal the constant") := by with_unfolding_all rfl
  have hbare : compile schema.undefaulted = .ok (.refined (.object [.mk (.string "a") false .any] .passthrough {})
      (.equals (.dict [])) "Value must equal the constant") := by with_unfolding_all rfl
  refine ⟨?_, ?_, _, _, hcompile, hbare, rfl, rfl⟩
  · exact .mapping (hasShapes_iff.mpr (by decide)) (List.forall_mem_singleton.mpr
      (.mapping (hasShapes_iff.mpr (by decide)) (List.forall_mem_nil _)))
  · exact .mapping rfl (List.forall_mem_singleton.mpr (.mapping rfl (List.forall_mem_nil _)))

end Schemata
