import Schemata.Pattern.Reader
import Schemata.Proofs.Schema.Editing
import Schemata.Proofs.Schema.Pairs
import Schemata.Proofs.Validator.Interchange

/-!
# `Schemata.Proofs.Schema.Unread` — keywords that are not read

A key that no rule reads says nothing, wherever it is added to a schema. If it stands beside a key that may constrain
values, the schema is compiled to the same validator as before. A mapping that has no such key passes everything, and
with the key it is compiled to a union of all kinds: values of JSON are of some kind, but the absent value, infinite
numbers and files are not.

## Contents
- **Cores.** `follows_coreWith`: the same on trees of nodes before annotations.
- **Annotations.** `Interchangeable`, and `follows_annotations`.
- **Keys.** `dropBeside` and `compile_dropBeside`, and `interchangeable_without`.
- **Unread keys.** `unread_ignored`, and what they change: `unread_noticed`.
-/

namespace Schemata

open Value Validator

/-! ## Cores -/

theorem Value.AllNodes.isNode {v : Value} (h : v.AllNodes) : v.isNode = true := by
  cases h with
  | scalar here => rw [Value.isNode, here]; rfl
  | list _ => rfl
  | dict _ => rfl

/-- What is compiled from a sub-schema in two ways: validators that are the same on trees of nodes and on the absent
value. -/
structure Interchangeable (c c' : Validator) : Prop where
  nodes : SameOnNodes c c'
  absent : SameOnAbsent c c'
  defaults : DefaultsAre AllNodes c

section

variable {convert other : Value → Except CompileError Validator} {schema labels labels' : Entries}

/-- The validators of a kind are the same if their parts are. -/
theorem SameOnNodes.of_paired {kind : Kind} {vd vd' : Validator}
    (h : PairedKind (fun _ => Interchangeable) (fun _ => Interchangeable) kind vd vd') : SameOnNodes vd vd' := by
  have hpasses : ∀ {c c'}, OrPasses Interchangeable c c' → SameOnNodes c c' ∧ SameOnAbsent c c' := by
    intro c c' hc
    cases hc with
    | passes => exact ⟨.refl _, fun p => .ok ⟨rfl, fun _ => rfl⟩⟩
    | related hc => exact ⟨hc.nodes, hc.absent⟩
  cases h with
  | plain vd _ _ => exact .refl vd
  | array each bounds => exact .array (hpasses each).1 bounds
  | tuple each beyond bounds =>
    refine .tuple (each.imp fun _ _ hc => hc.nodes) ?_ bounds
    cases beyond with
    | none => exact .none
    | some hc => exact .some (hpasses hc).1
  | object each others bounds =>
    refine .object (each.imp fun f f' hf => ?_) (others.imp fun _ _ hc => hc.nodes) bounds
    obtain ⟨name, required, hc⟩ := hf
    exact .mk name required (hpasses hc)

theorem SameOnNodes.any_everyKind : SameOnNodes .any everyKind := fun _ hv p => (check_everyKind hv.isNode p).symm

/-- What a silent schema is compiled to depends on its keys alone. -/
theorem SameOnNodes.silent : SameOnNodes (Admissibility.initial.assemble labels) (Admissibility.initial.assemble labels') := by
  have hsilent : ∀ labels : Entries,
      Admissibility.initial.assemble labels = if hasConstraints labels then everyKind else .any := fun _ => rfl
  rw [hsilent, hsilent]
  split
  · split
    · exact .refl _
    · exact fun _ hv p => check_everyKind hv.isNode p
  · split
    · exact any_everyKind
    · exact .refl _

/-- A layer of the second phase keeps validators the same on trees of nodes. -/
theorem sameOnNodes_layers {refinement : Refinement} {layer layer' : Layer}
    (h : PairedLayers (fun _ c c' => SameOnNodes c c' ∧ KeepsNodes c) schema refinement layer layer') {vd vd' : Validator}
    (hvd : SameOnNodes vd vd' ∧ KeepsNodes vd) : SameOnNodes (layer.on vd) (layer'.on vd') ∧ KeepsNodes (layer.on vd) := by
  obtain ⟨hsame, hkeeps⟩ := hvd
  have hbranches : ∀ {all all' : List Validator},
      List.Forall₂ (fun c c' => SameOnNodes c c' ∧ KeepsNodes c) all all' → ∀ c ∈ all, KeepsNodes c := fun each =>
    forall_of_forall₂ each fun _ _ hc => hc.2
  have hconditions : ∀ {test test' message message'}, layer = .condition test message → layer' = .condition test' message' →
      SameOnNodes (layer.on vd) (layer'.on vd') ∧ KeepsNodes (layer.on vd) := by
    rintro test test' message message' rfl rfl
    obtain ⟨rfl, htest⟩ := h.holdsOn goesDown_allNodes fun _ _ _ hc => hc.1.acceptOn
    exact ⟨hsame.refined hkeeps htest message, hkeeps.refined _ message⟩
  cases h with
  | protoRequired proto =>
    obtain ⟨names, rfl⟩ := protoRequired?_eq_some proto
    exact ⟨.refl _, (KeepsNodes.leaf rfl).refined _ _⟩
  | allOf each => exact ⟨hsame.foldl (each.imp fun _ _ hc => hc.1), hkeeps.foldl (hbranches each)⟩
  | someOf _ each =>
    exact ⟨hsame.both (.unionOf (each.imp fun _ _ hc => hc.1) []), hkeeps.both (.unionOf (hbranches each) [])⟩
  | _ => exact hconditions rfl rfl

/-- **Before annotations**, two ways of compiling sub-schemas make validators that are the same on trees of nodes. -/
theorem follows_coreWith [Pattern.Engine]
    (hpairs : ∀ s ∈ subSchemas schema, Follows (convert s) (other s) Interchangeable)
    (hlabels : hasConstraints labels' = hasConstraints labels ∨ IsSilent schema)
    (hdefault : ∀ value, Entries.get? labels "default" = some value → value.AllNodes) :
    Follows (coreWith convert schema labels) (coreWith other schema labels')
      fun core core' => SameOnNodes core core' ∧ KeepsNodes core := by
  have hkeep : Answers False (KindRule.runAll (fun _ => .ok ()) convert schema KindRule.all .initial)
      (Admissibility.Keep fun _ => DefaultsAre AllNodes) :=
    slots_keep defaultsAre_slotInvariant (.of_sub (fun _ _ => trivial) fun s hs c hc =>
      (hpairs s hs c hc).choose_spec.2.defaults) KindRule.all .initial
  have hphase : Follows (KindRule.runAll (fun _ => .ok ()) convert schema KindRule.all .initial)
      (KindRule.runAll (fun _ => .ok ()) other schema KindRule.all .initial)
      (PairedSlots (fun _ => Interchangeable) fun _ => Interchangeable) :=
    follows_firstPhase (fun role s hs => hpairs s (Role.mem_subSchemas hs))
      fun e he => hpairs e.2 (mem_of_mem_mappedSchemas (by decide) he)
  refine .bind ((hphase.and hkeep).both (.of_meets fun slots h => h) (.of_meets fun slots h => h)) ?_
  rintro slots slots' ⟨⟨hslots, hkept⟩, hrun, hrun'⟩
  have hbase : KeepsNodes (slots.assemble labels) := by
    refine keepsNodes_of_defaults (keeps_assemble (defaultsAre_refinementInvariant hdefault) fun o ho => ?_)
    exact validators_keep defaultsAre_slotInvariant hkept ho
  have hsame : SameOnNodes (slots.assemble labels) (slots'.assemble labels') := by
    rcases hlabels with hlabels | hsilent
    · exact hslots.assemble hlabels (.refl _) (.refl _) (fun _ _ _ _ _ => .of_paired) fun _ _ tags each => .union each tags
    · rw [KindRule.runAll_silent hsilent] at hrun hrun'
      obtain rfl := Except.ok.inj hrun
      obtain rfl := Except.ok.inj hrun'
      exact .silent
  refine follows_constraints ?_ _ (List.Subset.refl _) (fun _ _ _ _ hpaired _ _ => sameOnNodes_layers hpaired) _ _ ⟨hsame, hbase⟩
  exact fun role s hs => (hpairs s (Role.mem_subSchemas hs)).mono fun c c' hc => ⟨hc.nodes, keepsNodes_of_defaults hc.defaults⟩

end

/-! ## Annotations -/

section

variable [Pattern.Engine] {schema schema' : Entries} {core core' vd vd' : Validator}

omit [Pattern.Engine] in
/-- The same defaults stand in for the absent value. -/
theorem sameOnAbsent_of_annotated (h : Annotated schema core vd) (h' : Annotated schema' core' vd')
    (hdefault : Entries.get? schema' "default" = Entries.get? schema "default")
    (hnodes : ∀ value, Entries.get? schema "default" = some value → value.AllNodes) (hsame : SameOnNodes core core')
    (hleaves : LeavesAbsent core) (hleaves' : LeavesAbsent core') : SameOnAbsent vd vd' := by
  have haccepts : ∀ value, Entries.get? schema "default" = some value → core.accepts value = core'.accepts value :=
    fun value hvalue => hsame.acceptOn value (hnodes value hvalue)
  intro p
  rcases h.check_absent with ⟨hcheck, hdropped⟩ | ⟨value, hvalue, haccepted, hcheck⟩ <;>
    rcases h'.check_absent with ⟨hcheck', hdropped'⟩ | ⟨value', hvalue', haccepted', hcheck'⟩
  · obtain ⟨r, hr, hout⟩ := (hleaves p).answer trivial
    obtain ⟨r', hr', hout'⟩ := (hleaves' p).answer trivial
    rw [hcheck p, hcheck' p, hr, hr']
    refine .ok ⟨by rw [Field.gives_eq_false hout, Field.gives_eq_false hout'], fun hgiven => ?_⟩
    rw [Field.gives_eq_false hout] at hgiven
    cases hgiven
  · rw [hdefault] at hvalue'
    rw [← haccepts value' hvalue', hdropped value' hvalue'] at haccepted'
    cases haccepted'
  · rw [haccepts value hvalue, hdropped' value (hdefault.trans hvalue)] at haccepted
    cases haccepted
  · obtain rfl : value = value' := Option.some.inj (hvalue.symm.trans (hdefault.symm.trans hvalue'))
    rw [hcheck p, hcheck' p]
    exact .ok ⟨rfl, fun _ => rfl⟩

/-- **Annotations are attached alike** to validators that are the same on trees of nodes. -/
theorem follows_annotations (hdefault : Entries.get? schema' "default" = Entries.get? schema "default")
    (hnodes : ∀ value, Entries.get? schema "default" = some value → value.AllNodes) (hsame : SameOnNodes core core') :
    Follows (Refinement.runAll (fun _ => .ok ()) compile schema [.default, .description] core)
      (Refinement.runAll (fun _ => .ok ()) compile schema' [.default, .description] core')
      fun vd vd' => Annotated schema core vd ∧ Annotated schema' core' vd' := by
  have hattached : Follows (default? (m := Except CompileError) (fun _ => .ok ()) core schema)
      (default? (m := Except CompileError) (fun _ => .ok ()) core' schema') fun _ _ => True := by
    unfold default?
    rw [hdefault]
    split
    · exact .pure trivial
    next value hvalue =>
      rw [hsame.acceptOn value (hnodes value hvalue)]
      refine .bind (.self _) ?_
      rintro accepted _ rfl
      split
      · exact .pure trivial
      · exact .bind (.self _) fun text _ _ => .bind (.self _) fun _ _ _ => .pure trivial
  have hboth : Follows (Refinement.runAll (fun _ => .ok ()) compile schema [.default, .description] core)
      (Refinement.runAll (fun _ => .ok ()) compile schema' [.default, .description] core') fun _ _ => True :=
    .bind hattached fun _ _ _ => .pure trivial
  exact (hboth.both (answers_annotations compile) (answers_annotations compile)).mono fun vd vd' h => h.2

/-- Whether defaults are trees of nodes, and branches have none where required names are plain keys. -/
structure IsSettled (schema : Entries) : Prop where
  default : ∀ value, Entries.get? schema "default" = some value → value.AllNodes
  branches : BranchesUnfilled schema

/-- What is compiled from a settled mapping leaves the absent value absent, before annotations. -/
theorem leavesAbsent_of_settled (h : Everywhere IsSettled (.dict schema)) (hcore : coreValidator schema = .ok core) :
    LeavesAbsent core :=
  leavesAbsent_core (h.mono fun _ hsettled => hsettled.branches) hcore

/-- **Settled mappings are compiled to interchangeable validators**, if they are before annotations. -/
theorem follows_mapping (h : Everywhere IsSettled (.dict schema)) (h' : Everywhere IsSettled (.dict schema'))
    (hdefault : Entries.get? schema' "default" = Entries.get? schema "default")
    (hcore : Follows (coreValidator schema) (coreValidator schema') fun core core' => SameOnNodes core core' ∧ KeepsNodes core) :
    Follows (compile (.dict schema)) (compile (.dict schema')) Interchangeable := by
  intro vd hvd
  have hdefaults : DefaultsAre AllNodes vd := compile_defaultsAre hvd (h.mono fun _ hsettled => hsettled.default)
  rw [compile_dict_core] at hvd ⊢
  obtain ⟨core, hcompiled, hannotations⟩ := exists_of_bind_eq_ok hvd
  obtain ⟨core', hcompiled', hsame, hkeeps⟩ := hcore core hcompiled
  obtain ⟨vd', hvd', hannotated, hannotated'⟩ :=
    follows_annotations hdefault h.here.default hsame vd hannotations
  refine ⟨vd', by rw [hcompiled']; exact hvd', ⟨fun v hv p => ?_, ?_, hdefaults⟩⟩
  · rw [hannotated.check_present hv.ne_absent, hannotated'.check_present hv.ne_absent, hsame v hv]
  · exact sameOnAbsent_of_annotated hannotated hannotated' hdefault h.here.default hsame
      (leavesAbsent_of_settled h hcompiled) (leavesAbsent_of_settled h' hcompiled')

end

/-! ## Keys -/

/-- A mapping without a key, unless it is the only one that may constrain values. -/
def dropBeside (keyword : String) (entries : Entries) : Entries :=
  if hasConstraints (entries.without keyword) = hasConstraints entries then entries.without keyword else entries

section

variable {keyword : String} (hunread : keyword ∉ keywordShapes.map Prod.fst)
include hunread

theorem spares_without : ∀ k ∈ keywordShapes, Spares (·.without keyword) k.1 := fun k hk entries =>
  Entries.get?_without (fun h : k.1 = keyword => hunread (h ▸ List.mem_map_of_mem hk)) entries

theorem spares_dropBeside : ∀ k ∈ keywordShapes, Spares (dropBeside keyword) k.1 := fun k hk entries => by
  unfold dropBeside
  split
  · exact spares_without hunread k hk entries
  · rfl

/-- **An unread key beside another constraint is of no matter at all.** -/
theorem compile_dropBeside [Pattern.Engine] (schema : Value) :
    compile (schema.edited (dropBeside keyword)) = compile schema := by
  induction schema using schema_induction with
  | mapping schema ih =>
    have hspares := spares_dropBeside hunread
    have hconstraints : hasConstraints (dropBeside keyword (editedKeywords (dropBeside keyword) schema)) = hasConstraints schema := by
      rw [← show hasConstraints (editedKeywords (dropBeside keyword) schema) = _ from hasConstraints_editedKeywords schema, dropBeside]
      split
      next heq => exact heq
      next => rfl
    show compile (.dict (dropBeside keyword (editedKeywords (dropBeside keyword) schema))) = _
    rw [compile_dict_core, compile_dict_core, coreValidator_edited fun k hk _ => hspares k hk, coreValidator_eq,
      coreWith_congr ih hconstraints]
    have hdefault := get?_edited_shallow hspares schema "default"
    have hdescription := get?_edited_shallow hspares schema "description"
    simp only [Refinement.runAll, Refinement.apply?, default?, description?, hdefault, hdescription]
  | other v hother => rw [keepsForm_edited.other v hother]

/-- Without an unread key, a schema is as settled as it is. -/
theorem isSettled_without (schema : Value) :
    Everywhere IsSettled (schema.edited (·.without keyword)) ↔ Everywhere IsSettled schema := by
  have hspares := spares_without hunread
  refine everywhere_edited_iff hspares schema fun schema => ?_
  have hdefault := get?_edited_shallow hspares schema "default"
  have hdefaults : ∀ s : Value, NoDefaults (s.edited (·.without keyword)) ↔ NoDefaults s := fun s =>
    everywhere_edited_iff hspares s fun schema => by
      rw [Entries.has, Entries.has, get?_edited_shallow hspares schema "default"]
  have hproto : requiresProto (Entries.without (editedKeywords (·.without keyword) schema) keyword) = requiresProto schema := by
    unfold requiresProto requiredNames
    rw [Entries.has, Entries.has, get?_edited_shallow hspares schema "type", get?_edited_shallow hspares schema "required"]
  have hbranches : Role.branch.schemas (Entries.without (editedKeywords (·.without keyword) schema) keyword) =
      (Role.branch.schemas schema).map (Value.edited (·.without keyword)) := by
    simp only [Role.schemas, List.map_append, listedSchemas_edited hspares schema "allOf",
      listedSchemas_edited hspares schema "anyOf", listedSchemas_edited hspares schema "oneOf"]
  have hunfilled : BranchesUnfilled (Entries.without (editedKeywords (·.without keyword) schema) keyword) ↔
      BranchesUnfilled schema := by
    rw [BranchesUnfilled, BranchesUnfilled, hproto, hbranches, List.forall_mem_map]
    exact imp_congr_right fun _ => forall₂_congr fun s _ => hdefaults s
  constructor
  · exact fun h => ⟨fun value hvalue => h.default value (hdefault.trans hvalue), hunfilled.mp h.branches⟩
  · exact fun h => ⟨fun value hvalue => h.default value (hdefault.symm.trans hvalue), hunfilled.mpr h.branches⟩

/-- **Without an unread key**, a settled schema is compiled to an interchangeable validator, and the other way round. -/
theorem interchangeable_without [Pattern.Engine] {schema : Value} (h : Everywhere IsSettled schema) :
    Follows (compile schema) (compile (schema.edited (·.without keyword))) Interchangeable ∧
      Follows (compile (schema.edited (·.without keyword))) (compile schema) Interchangeable := by
  have hspares := spares_without hunread
  induction schema using schema_induction with
  | mapping schema ih =>
    have hedited : Everywhere IsSettled (.dict (Entries.without (editedKeywords (·.without keyword) schema) keyword)) :=
      (isSettled_without hunread (.dict schema)).mpr h
    have hdefault := get?_edited_shallow hspares schema "default"
    -- what is left without the key has constraints, or there was nothing but the key
    have hlabels : hasConstraints (Entries.without (editedKeywords (·.without keyword) schema) keyword) = hasConstraints schema ∨
        IsSilent schema := by
      cases hrest : hasConstraints (Entries.without (editedKeywords (·.without keyword) schema) keyword) with
      | true =>
        exact .inl ((hasConstraints_of_without hrest).symm.trans (hasConstraints_editedKeywords schema))
      | false =>
        refine .inr fun k hk hspeaks => ?_
        have hnone := isSilent_of_not_hasConstraints hrest k hk hspeaks
        rw [edited_readsAs (hspares k hk)] at hnone
        exact Option.map_eq_none_iff.mp hnone
    have hcore : coreValidator (Entries.without (editedKeywords (·.without keyword) schema) keyword) = coreWith
        (fun s => compile (s.edited (·.without keyword))) schema (Entries.without (editedKeywords (·.without keyword) schema) keyword) :=
      coreValidator_edited fun k hk _ => hspares k hk
    constructor
    · refine follows_mapping h hedited hdefault ?_
      rw [hcore, coreValidator_eq]
      exact follows_coreWith (fun s hs => (ih s hs (h.inside hs)).1) hlabels h.here.default
    · refine follows_mapping hedited h hdefault.symm ?_
      rw [hcore, coreValidator_eq]
      refine follows_coreWith (fun s hs => (ih s hs (h.inside hs)).2) (hlabels.imp_left Eq.symm) hedited.here.default
  | other v hother =>
    rw [keepsForm_edited.other v hother]
    have hself : Follows (compile v) (compile v) Interchangeable := by
      intro vd hvd
      rcases compile_forms hvd with ⟨b, rfl, rfl⟩ | ⟨entries, rfl⟩
      · refine ⟨_, hvd, .refl _, fun p => ?_, compile_defaultsAre hvd (h.mono fun _ hsettled => hsettled.default)⟩
        exact (Lockstep.self _).mono fun r r' hr => by rw [hr]; exact ⟨rfl, fun _ => rfl⟩
      · cases hother
    exact ⟨hself, hself⟩

end

/-! ## Unread keys -/

/-- **Unread keys are ignored.** Let two schemas differ in a key that no rule reads, wherever it stands. If they are the
same without it where it stands beside a key that may constrain values, they are compiled alike, and so every value is
validated alike. In any case values of JSON are, if the defaults are trees of nodes and branches beside plain keys have
none. -/
theorem unread_ignored [Pattern.Engine] {keyword : String} (hunread : keyword ∉ keywordShapes.map Prod.fst)
    (schema other : Value) :
    (schema.edited (dropBeside keyword) = other.edited (dropBeside keyword) → compile other = compile schema) ∧
      (schema.edited (·.without keyword) = other.edited (·.without keyword) → Everywhere IsSettled schema →
        ∀ vd, compile schema = .ok vd →
          ∃ vd', compile other = .ok vd' ∧ ∀ v : Value, v.IsJson → vd'.validate v = vd.validate v) := by
  refine ⟨fun hsame => ?_, fun hsame hsettled vd hvd => ?_⟩
  · rw [← compile_dropBeside hunread other, ← hsame, compile_dropBeside hunread schema]
  · have hother : Everywhere IsSettled other :=
      (isSettled_without hunread other).mp (hsame ▸ (isSettled_without hunread schema).mpr hsettled)
    obtain ⟨bare, hbare, hnodes⟩ := (interchangeable_without hunread hsettled).1 vd hvd
    obtain ⟨vd', hvd', hnodes'⟩ := (interchangeable_without hunread hother).2 bare (hsame ▸ hbare)
    refine ⟨vd', hvd', fun v hv => ?_⟩
    rw [validate, validate, hnodes.nodes v hv.allNodes, hnodes'.nodes v hv.allNodes]

attribute [local instance] Pattern.engine

/-- A note beside a type, and a note that stands alone. -/
theorem unread_ignored_note :
    let typed : Entries := [(.string "type", .string "null")]
    let note : Value × Value := (.string "x-note", .int 1)
    let schema := fun a : Entries => Value.dict [(.string "properties", .dict [(.string "a", .dict a)])]
    "x-note" ∉ keywordShapes.map Prod.fst ∧ compile (.dict (typed ++ [note])) = compile (.dict typed) ∧
      Everywhere IsSettled (schema []) ∧ ∃ vd vd', compile (schema []) = .ok vd ∧ compile (schema [note]) = .ok vd' ∧
        ∀ v : Value, v.IsJson → vd'.validate v = vd.validate v := by
  intro typed note schema
  have hunread : "x-note" ∉ keywordShapes.map Prod.fst := by decide
  have hsettled : Everywhere IsSettled (schema []) := .mapping ⟨nofun, nofun⟩ <| List.forall_mem_singleton.mpr <|
    .mapping ⟨nofun, nofun⟩ (List.forall_mem_nil _)
  obtain ⟨vd, hvd⟩ : ∃ vd, compile (schema []) = .ok vd := ⟨_, by with_unfolding_all rfl⟩
  obtain ⟨vd', hvd', hsame⟩ := (unread_ignored hunread (schema []) (schema [note])).2 (by with_unfolding_all rfl) hsettled vd hvd
  exact ⟨hunread, (unread_ignored hunread _ _).1 (by with_unfolding_all rfl), hsettled, vd, vd', hvd, hvd', hsame⟩

/-- An object whose member has a branch beside plain keys, and a default in another branch. -/
def branchedMember (branch : Entries) : Value := .dict [(.string "type", .string "object"), (.string "properties", .dict
  [(.string "p", .dict [(.string "required", .list [.string "__proto__"]),
    (.string "allOf", .list [.dict branch, .dict [(.string "default", .int 1)]])])])]

/-- What is compiled from `branchedMember`. -/
def checksBranches (branch : Validator) : Validator :=
  .object [.mk (.string "p") false (.both (.both (.refined .any (.hasKeys [.string "__proto__"]) "Missing required properties")
    branch) (.defaulted everyKind (.int 1)))] .passthrough {}

/-- **What a key adds that is not read.** Alone, it makes a schema refuse what is of no kind. In a branch beside plain
keys, it keeps the default of another branch from being filled in. -/
theorem unread_noticed :
    let note : Value × Value := (.string "x-note", .int 1)
    let infinite := Value.float (.infinity false)
    "x-note" ∉ keywordShapes.map Prod.fst ∧
      (∃ vd vd', compile (.dict []) = .ok vd ∧ compile (.dict [note]) = .ok vd' ∧
        vd.validate .absent = .ok (.ok .absent) ∧ vd.validate infinite = .ok (.ok infinite) ∧
        vd'.validate .absent = .ok (.error [⟨[], .required⟩]) ∧ vd'.validate infinite = .ok (.error [⟨[], .notFinite⟩])) ∧
      ∃ vd vd', compile (branchedMember []) = .ok vd ∧ compile (branchedMember [note]) = .ok vd' ∧
        vd.validate (.dict []) = .ok (.ok (.dict [(.string "p", .int 1)])) ∧ vd'.validate (.dict []) = .ok (.ok (.dict [])) := by
  intro note infinite
  have hnote : compile (.dict [note]) = .ok everyKind := by with_unfolding_all rfl
  have hbare : compile (branchedMember []) = .ok (checksBranches .any) := by with_unfolding_all rfl
  have hnoted : compile (branchedMember [note]) = .ok (checksBranches everyKind) := by with_unfolding_all rfl
  refine ⟨by decide, ⟨_, _, rfl, hnote, rfl, rfl, rfl, rfl⟩, _, _, hbare, hnoted, ?_, ?_⟩
  · with_unfolding_all rfl
  · with_unfolding_all rfl

end Schemata
