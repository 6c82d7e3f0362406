import Schemata.Proofs.Schema.Correctness
import Schemata.Proofs.Schema.Defaults
import Schemata.Proofs.Schema.Silence

/-!
# `Schemata.Proofs.Schema.Absence` — what stands in for the absent value

A schema refuses the absent value, unless it says nothing at all or has a default that it accepts. The reason is in the
first phase: the validator of every kind refuses the absent value, and so does whatever is built around it.

## Contents
- **First phase.** `RefusesAbsent`, and what the slots are joined into.
- **Second phase.** `coreValidator_refusesAbsent` and `coreValidator_unconstrained`.
- **Schemas without a keyword, and with one more.** `Entries.without`, `Entries.adding`, and `coreValidator_withoutDefault`.
- **Stand-ins.** `StandsIn`, and `check_absent`.
-/

namespace Schemata

open Value Validator

/-! ## First phase -/

/-- A validator refuses a value. Under the condition `sure`, it does so without a fault. -/
def Refuses (sure : Prop) (v : Value) (vd : Validator) : Prop :=
  ∀ path, Answers sure (vd.check v path) fun r => r.ok = false

/-- A validator refuses the absent value. Under the condition `sure`, it does so without a fault. -/
def RefusesAbsent (sure : Prop) (vd : Validator) : Prop :=
  ∀ path, Answers sure (vd.check .absent path) fun r => r.ok = false

section

variable {sure : Prop} {v : Value} {inner left right : Validator}

theorem Refuses.refined (h : Refuses sure v inner) (test : Test) (message : String) :
    Refuses sure v (.refined inner test message) := fun path => by
  refine .bind (h path) fun r hr => ?_
  rw [if_pos (by rw [hr]; rfl)]
  exact .pure hr

/-- The left side is enough, if the right one answers. -/
theorem Refuses.both (hleft : Refuses sure v left) (hright : ∀ path, Answers sure (right.check v path) fun _ => True) :
    Refuses sure v (.both left right) := fun path => by
  refine .bind (hleft path) fun l hl => .bind (hright path) fun r _ => ?_
  rw [hl]
  refine .pure ?_
  rw [Report.ok_append, hl]
  rfl

theorem Refuses.foldl {vd : Validator} (h : Refuses sure v vd) {others : List Validator}
    (hothers : ∀ c ∈ others, ∀ path, Answers sure (c.check v path) fun _ => True) : Refuses sure v (others.foldl .both vd) :=
  List.foldlRecOn others .both h fun _ hvd c hc => hvd.both (hothers c hc)

theorem RefusesAbsent.union {options : List Validator} (h : ∀ c ∈ options, RefusesAbsent sure c) (tags : List String) :
    RefusesAbsent sure (.union options tags) := fun path => by
  refine (answers_union fun c hc => h c (mem_of_mem_tried hc) path).mono ?_
  rintro out (⟨c, _, r, hr, hok, _⟩ | ⟨_, _, _, hout, _⟩)
  · rw [hr] at hok
    cases hok
  · exact hout

/-- **The validators of all kinds refuse the absent value.** -/
theorem refusesAbsent_slotInvariant : SlotInvariant {} fun _ vd => RefusesAbsent sure vd where
  default := by
    intro kind vd h path
    cases kind <;> cases h <;> exact .ok rfl
  literal := by
    intro kind members _ _ path
    unfold literalValidator
    split <;> exact .ok rfl
  refined := fun _ _ test message _ _ h => Refuses.refined h test message
  sized := fun _ _ _ _ message _ _ _ h => Refuses.refined h _ message
  both := fun _ _ _ hleft hright => Refuses.both hleft fun path => (hright path).mono fun _ _ => trivial
  file := fun _ _ _ _ => .ok rfl
  passes := trivial
  array := fun _ _ _ => .ok rfl
  arrayElement := fun _ _ _ _ _ _ => .ok rfl
  arrayBounds := fun _ _ _ _ _ _ => .ok rfl
  tuple := fun _ _ _ _ _ _ _ => .ok rfl
  object := fun _ _ _ _ _ _ => .ok rfl
  objectBounds := fun _ _ _ _ _ _ _ => .ok rfl

theorem refusesAbsent_assemble {slots : Admissibility} (h : slots.Keep fun _ vd => RefusesAbsent sure vd) {schema : Entries}
    (hconstraints : hasConstraints schema = true) : RefusesAbsent sure (slots.assemble schema) := by
  have heach : ∀ o ∈ slots.validators, RefusesAbsent sure o.2 :=
    fun _ ho => validators_keep refusesAbsent_slotInvariant h ho
  unfold Admissibility.assemble
  split
  · exact fun _ => .ok rfl
  next kind vd hvalidators => exact heach (kind, vd) (hvalidators ▸ List.mem_singleton_self _)
  next =>
    rw [if_pos hconstraints]
    refine .union (fun c hc => ?_) _
    obtain ⟨o, ho, rfl⟩ := List.mem_map.mp hc
    exact heach o ho

theorem baseValidator_refusesAbsent [Pattern.Engine] {schema : Entries} (hconstraints : hasConstraints schema = true) :
    Answers False (baseValidator schema) (RefusesAbsent sure) := by
  refine .bind (slots_keep refusesAbsent_slotInvariant (Supplies.of_sub ?_ ?_) KindRule.all .initial) fun slots hslots =>
    .pure (refusesAbsent_assemble hslots hconstraints)
  · exact fun _ _ => trivial
  · exact fun _ _ _ _ => trivial

end

/-! ## Second phase -/

section

variable [Pattern.Engine] {sure : Prop} {schema : Entries}

omit [Pattern.Engine] in
theorem answers_unionOf {v : Value} {options : List Validator}
    (h : ∀ c ∈ options, ∀ path, Answers sure (c.check v path) fun _ => True) (path : Pointer) :
    Answers sure ((unionOf options []).check v path) fun _ => True := by
  refine forall_unionOf (.ok trivial) ?_ fun c hc => h c hc path
  exact (answers_union fun c hc => h c (mem_of_mem_tried hc) path).mono fun _ _ => trivial

/-- **What the first phase refuses is refused**, unless required names are turned into plain keys. There is no fault if
the branches do not end in one. -/
theorem refuses_constraints {v : Value} (hproto : requiresProto schema = false)
    (hbranches : ∀ s ∈ Role.branch.schemas schema, ∀ c, compile s = .ok c → ∀ path,
      Answers sure (c.check v path) fun _ => True) {base : Validator} (h : Refuses sure v base) :
    Answers False (Refinement.runAll (fun _ => .ok ()) compile schema Refinement.constraints base) (Refuses sure v) := by
  let inside : Role → Validator → Prop := fun role c => role = .branch → ∀ path, Answers sure (c.check v path) fun _ => True
  have hinside : ∀ role : Role, ∀ s ∈ role.schemas schema, ∀ c, compile s = .ok c → inside role c :=
    fun role s hs c hc hrole => hbranches s (hrole ▸ hs) c hc
  have hbranch : ∀ {all all' : List Validator}, List.Forall₂ (fun c _ => inside .branch c) all all' →
      ∀ c ∈ all, ∀ path, Answers sure (c.check v path) fun _ => True :=
    fun each => forall_of_forall₂ each fun _ _ hc => hc rfl
  refine constraints_keep hinside (fun hpaired vd hvd => ?_) h
  cases hpaired with
  | protoRequired proto =>
    rw [protoRequired?_eq_none hproto] at proto
    cases proto
  | allOf each => exact hvd.foldl (hbranch each)
  | someOf _ each => exact hvd.foldl (List.forall_mem_singleton.mpr (answers_unionOf (hbranch each)))
  | _ => exact hvd.refined _ _

/-- **A schema that says something refuses the absent value**, unless it turns required names into plain keys. It
does so without a fault if its branches do not end in one. -/
theorem coreValidator_refusesAbsent (hconstraints : hasConstraints schema = true) (hproto : requiresProto schema = false)
    (hbranches : ∀ s ∈ Role.branch.schemas schema, ∀ c, compile s = .ok c → ∀ path,
      Answers sure (c.check .absent path) fun _ => True) :
    Answers False (coreValidator schema) (RefusesAbsent sure) :=
  .bind (baseValidator_refusesAbsent hconstraints) fun _ hbase => refuses_constraints hproto hbranches hbase

omit [Pattern.Engine] in
/-- A schema without constraints speaks of nothing that is read. -/
theorem isSilent_of_not_hasConstraints (h : hasConstraints schema = false) : IsSilent schema := by
  intro k hk hspeaks
  refine get?_of_not_hasConstraints h fun hannotation => ?_
  revert k
  decide

theorem coreValidator_silent (h : IsSilent schema) :
    coreValidator schema = .ok (if hasConstraints schema then everyKind else .any) := by
  rw [coreValidator, baseValidator_silent h]
  exact Refinement.runAll_silent h _

end

/-! ## Plain keys -/

/-- A validator answers about the absent value, and refuses it or leaves it absent. -/
def LeavesAbsent (vd : Validator) : Prop :=
  ∀ path, Answers True (vd.check .absent path) fun r => r.ok = true → r.output = .absent

/-- Where required names are turned into plain keys, the branches have no default. -/
def BranchesUnfilled (schema : Entries) : Prop :=
  requiresProto schema = true → ∀ s ∈ Role.branch.schemas schema, NoDefaults s

section

variable {inner left right : Validator}

theorem RefusesAbsent.leavesAbsent (h : RefusesAbsent True inner) : LeavesAbsent inner := fun path =>
  (h path).mono fun r hr hok => by rw [hr] at hok; cases hok

/-- The validator of a schema without defaults leaves the absent value absent if it answers about it. -/
theorem DefaultFree.leavesAbsent (h : DefaultFree inner)
    (hanswers : ∀ path, Answers True (inner.check .absent path) fun _ => True) : LeavesAbsent inner := fun path =>
  ⟨(h.answers_absent path).meets, (hanswers path).returns⟩

theorem LeavesAbsent.refined (h : LeavesAbsent inner) {test : Test} (htest : Answers True (test.holds .absent) fun _ => True)
    (message : String) : LeavesAbsent (.refined inner test message) := fun path => by
  refine output_refined (· = .absent) (h path) ?_
  rintro _ rfl
  exact htest

theorem LeavesAbsent.both (hleft : LeavesAbsent left) (hright : LeavesAbsent right) : LeavesAbsent (.both left right) :=
  fun path => by
  refine output_both (· = .absent) (hleft path) (hright path) ?_
  rintro _ _ rfl rfl
  rfl

theorem protoRequired?_eq_some {schema : Entries} {vd : Validator} (h : protoRequired? schema = some vd) :
    ∃ names, vd = .refined .any (.hasKeys names) "Missing required properties" := by
  unfold protoRequired? at h
  split at h
  · split at h
    · exact ⟨_, (Option.some.inj h).symm⟩
    · cases h
  · cases h

theorem LeavesAbsent.foldl {vd : Validator} (h : LeavesAbsent vd) {others : List Validator}
    (hothers : ∀ c ∈ others, LeavesAbsent c) : LeavesAbsent (others.foldl .both vd) :=
  List.foldlRecOn others .both h fun _ hvd c hc => hvd.both (hothers c hc)

theorem LeavesAbsent.unionOf {options : List Validator} (h : ∀ c ∈ options, LeavesAbsent c) :
    LeavesAbsent (Validator.unionOf options []) :=
  forall_unionOf (fun _ => .ok nofun) (fun path => output_union (· = .absent) fun c hc => h c hc path) h

end

section

variable [Pattern.Engine] {schema : Entries} (hbranches : BranchesUnfilled schema)
  (hinside : ∀ s ∈ subSchemas schema, ∀ c, compile s = .ok c → ∀ path, Answers True (c.check .absent path) fun _ => True)
include hbranches hinside

/-- Plain keys say nothing about the absent value, and neither does what is built around them. -/
theorem coreValidator_plainKeys (hconstraints : hasConstraints schema = true) (hproto : requiresProto schema = true) :
    Answers False (coreValidator schema) LeavesAbsent := by
  have hbase : Answers False (baseValidator schema) (RefusesAbsent True) := baseValidator_refusesAbsent hconstraints
  refine .bind hbase fun base hbase => ?_
  let inside : Role → Validator → Prop := fun role c =>
    (∀ path, Answers True (c.check .absent path) fun _ => True) ∧ (role = .branch → LeavesAbsent c)
  have hcompiled : ∀ role : Role, ∀ s ∈ role.schemas schema, ∀ c, compile s = .ok c → inside role c := by
    intro role s hs c hc
    have hanswers := hinside s (Role.mem_subSchemas hs) c hc
    refine ⟨hanswers, fun hrole => DefaultFree.leavesAbsent ?_ hanswers⟩
    exact compile_defaultFree hc (hbranches hproto s (hrole ▸ hs))
  have hbranch : ∀ {all all' : List Validator}, List.Forall₂ (fun c _ => inside .branch c) all all' → ∀ c ∈ all, LeavesAbsent c :=
    fun each => forall_of_forall₂ each fun _ _ hc => hc.2 rfl
  refine constraints_keep hcompiled (fun hpaired vd hvd => ?_) hbase.leavesAbsent
  cases hpaired with
  | protoRequired proto =>
    obtain ⟨names, rfl⟩ := protoRequired?_eq_some proto
    exact LeavesAbsent.refined (fun path => .ok fun _ => rfl) (.ok trivial) _
  | allOf each => exact hvd.foldl (hbranch each)
  | someOf _ each => exact hvd.both (.unionOf (hbranch each))
  | @not c _ _ each _ =>
    have haccepts : Answers True (c.accepts .absent) fun _ => True := .map (each.1 []) fun _ _ => trivial
    refine hvd.refined ?_ _
    rw [Test.holds_rejectedBy]
    exact haccepts.map fun _ _ => trivial
  | _ => exact hvd.refined (.ok trivial) _

/-- **Before annotations the absent value stays absent**, or it is refused. -/
theorem coreValidator_leavesAbsent : Answers False (coreValidator schema) LeavesAbsent := by
  cases hconstraints : hasConstraints schema with
  | false =>
    rw [coreValidator_silent (isSilent_of_not_hasConstraints hconstraints), hconstraints]
    exact .ok fun path => .ok fun _ => rfl
  | true =>
    cases hproto : requiresProto schema with
    | true => exact coreValidator_plainKeys hbranches hinside hconstraints hproto
    | false =>
      refine (coreValidator_refusesAbsent hconstraints hproto fun s hs => ?_).mono fun core hcore => hcore.leavesAbsent
      exact hinside s (Role.mem_subSchemas hs)

end

/-- **There is an answer about the absent value** wherever plain keys are not joined with defaults. -/
theorem answers_absent [Pattern.Engine] {schema : Value} {vd : Validator} (h : compile schema = .ok vd)
    (hbranches : Everywhere BranchesUnfilled schema) (path : Pointer) :
    Answers True (vd.check .absent path) fun _ => True := by
  induction schema using schema_induction generalizing vd path with
  | mapping schema ih =>
    obtain ⟨core, hcore, hannotated⟩ := compile_annotated h
    have hleaves := (coreValidator_leavesAbsent hbranches.here fun s hs c hc path =>
      ih s hs hc (hbranches.inside hs) path).meets core hcore
    rcases hannotated.check_absent with ⟨hcheck, _⟩ | ⟨_, _, _, hcheck⟩
    · rw [hcheck path]
      exact (hleaves path).mono fun _ _ => trivial
    · rw [hcheck path]
      exact .ok trivial
  | other v hother =>
    rcases compile_forms h with ⟨b, rfl, rfl⟩ | ⟨entries, rfl⟩
    · cases b <;> exact .ok trivial
    · cases hother

/-- Before annotations, a compiled mapping leaves the absent value absent wherever that is so. -/
theorem leavesAbsent_core [Pattern.Engine] {schema : Entries} {core : Validator}
    (h : Everywhere BranchesUnfilled (.dict schema)) (hcore : coreValidator schema = .ok core) : LeavesAbsent core :=
  (coreValidator_leavesAbsent h.here fun _ hs _ hc => answers_absent hc (h.inside hs)).meets core hcore

theorem NoDefaults.branchesUnfilled {schema : Value} (h : NoDefaults schema) : Everywhere BranchesUnfilled schema := by
  induction schema using schema_induction with
  | mapping schema ih =>
    exact .mapping (fun _ s hs => h.inside (Role.mem_subSchemas hs)) fun s hs => ih s hs (h.inside hs)
  | other v hother => exact .other hother

/-! ## Schemas without a keyword -/

namespace Entries

/-- A mapping without a key. -/
def without (entries : Entries) (keyword : String) : Entries := entries.filter fun e => !e.1.isText keyword

theorem get?_without_self (entries : Entries) (keyword : String) : get? (entries.without keyword) keyword = none := by
  have hnone : (entries.without keyword).find? (fun e => e.1.isText keyword) = none := by
    rw [List.find?_eq_none]
    intro e he
    simpa [without] using (List.mem_filter.mp he).2
  rw [get?, hnone]
  rfl

theorem get?_without {keyword other : String} (h : other ≠ keyword) (entries : Entries) :
    get? (entries.without keyword) other = get? entries other := by
  rw [get?, get?, without, List.find?_filter]
  congr 2
  funext e
  by_cases hother : e.1.isText other = true
  · rw [isText_iff] at hother
    simp [hother, h]
  · simp [hother]

/-- A mapping with a key added. -/
def adding (entries : Entries) (keyword : String) (value : Value) : Entries := entries ++ [(.string keyword, value)]

theorem get?_adding_self {entries : Entries} {keyword : String} (h : get? entries keyword = none) (value : Value) :
    get? (entries.adding keyword value) keyword = some value := by
  rw [get?, Option.map_eq_none_iff] at h
  rw [get?, adding, List.find?_append, h, List.find?_singleton, isText_string, if_pos (beq_self_eq_true keyword)]
  rfl

theorem get?_adding {keyword other : String} (h : other ≠ keyword) (entries : Entries) (value : Value) :
    get? (entries.adding keyword value) other = get? entries other := by
  rw [get?, get?, adding, List.find?_append, List.find?_singleton, isText_string, beq_false_of_ne h.symm,
    if_neg (by decide), Option.or_none]

end Entries

section

variable {schema : Entries}

theorem without_readsAs {keyword other : String} (h : other ≠ keyword) :
    ReadsAs id schema (schema.without keyword) other :=
  ReadsAs.of_eq (Entries.get?_without h schema)

/-- Constraints that are left without a keyword were there before. -/
theorem hasConstraints_of_without {keyword : String} (h : hasConstraints (schema.without keyword) = true) :
    hasConstraints schema = true := by
  rw [hasConstraints, List.any_eq_true] at h ⊢
  obtain ⟨e, he, hconstrains⟩ := h
  exact ⟨e, List.mem_of_mem_filter he, hconstrains⟩

theorem assemble_congr {slots : Admissibility} {other : Entries} (h : hasConstraints other = hasConstraints schema) :
    slots.assemble other = slots.assemble schema := by
  rw [Admissibility.assemble, Admissibility.assemble, h]

/-- **Without its default, a schema has the same validator before annotations**, or the default was the only keyword
that it had. -/
theorem coreValidator_withoutDefault [Pattern.Engine] {core : Validator} (h : coreValidator schema = .ok core) :
    coreValidator (schema.without "default") = .ok core ∨
      core = everyKind ∧ coreValidator (schema.without "default") = .ok .any := by
  have hrules : ∀ rule ∈ KindRule.all, ∀ keyword ∈ rule.keywords, keyword ≠ "default" := by decide
  have hrefinements : ∀ refinement ∈ Refinement.constraints, ∀ keyword ∈ refinement.keywords, keyword ≠ "default" := by decide
  have hslots : KindRule.runAll (fun _ => .ok ()) compile (schema.without "default") KindRule.all .initial =
      KindRule.runAll (fun _ => .ok ()) compile schema KindRule.all .initial :=
    KindRule.runAll_readsAs keepsForm_id _ fun rule hrule keyword hkeyword =>
      without_readsAs (hrules rule hrule keyword hkeyword)
  have hlayers : ∀ base, Refinement.runAll (fun _ => .ok ()) compile (schema.without "default") Refinement.constraints base =
      Refinement.runAll (fun _ => .ok ()) compile schema Refinement.constraints base := fun base =>
    Refinement.runAll_readsAs keepsForm_id _ base fun refinement hrefinement keyword hkeyword =>
      without_readsAs (hrefinements refinement hrefinement keyword hkeyword)
  -- No rule and no refinement reads the default, but it counts as a constraint. So only a mapping with a default
  -- and nothing else is read in another way without it: everything then passes, also what is absent.
  cases hrest : hasConstraints (schema.without "default") with
  | true =>
    have hbase : baseValidator (schema.without "default") = baseValidator schema := by
      rw [baseValidator, baseValidator, hslots]
      exact bind_congr fun slots => by rw [assemble_congr (hrest.trans (hasConstraints_of_without hrest).symm)]
    refine .inl (Eq.trans ?_ h)
    rw [coreValidator, coreValidator, hbase]
    exact bind_congr hlayers
  | false =>
    have hsilent : IsSilent schema := fun k hk hspeaks => by
      have hne : k.1 ≠ "default" := fun hdefault => hspeaks (List.mem_cons.mpr (.inl hdefault))
      rw [← Entries.get?_without hne]
      exact isSilent_of_not_hasConstraints hrest k hk hspeaks
    have hcore := coreValidator_silent (isSilent_of_not_hasConstraints hrest)
    rw [hrest] at hcore
    rw [coreValidator_silent hsilent] at h
    cases hconstraints : hasConstraints schema with
    | true =>
      rw [hconstraints] at h
      exact .inr ⟨(Except.ok.inj h).symm, hcore⟩
    | false =>
      rw [hconstraints] at h
      exact .inl (hcore.trans h)

/-- A mapping without a default gets its description alone. -/
theorem compile_of_core [Pattern.Engine] {core : Validator} (h : coreValidator schema = .ok core)
    (hdefault : Entries.get? schema "default" = none) : ∃ vd, compile (.dict schema) = .ok vd := by
  refine ⟨(description? core schema).getD core, ?_⟩
  have hnone : default? (m := Except CompileError) (fun _ => .ok ()) core schema = .ok none := by
    rw [default?, hdefault]
    rfl
  rw [compile_dict_core, h]
  show (default? (m := Except CompileError) (fun _ => .ok ()) core schema >>= _) = _
  rw [hnone]
  rfl

end

/-! ## Stand-ins -/

/-- What stands in for the absent value: itself, if everything passes, or a default that the rest of the schema
accepts. -/
inductive StandsIn [Pattern.Engine] : Value → Value → Prop
  | truth : StandsIn (.bool true) .absent
  | unconstrained {schema : Entries} (nothing : hasConstraints schema = false) : StandsIn (.dict schema) .absent
  | default {schema : Entries} {value : Value} {rest : Validator} (given : Entries.get? schema "default" = some value)
      (compiled : compile (.dict (schema.without "default")) = .ok rest) (accepted : rest.accepts value = .ok true) :
      StandsIn (.dict schema) value

/-- A schema whose default, if there is one, is a value of JSON, and which does not turn required names into plain
keys. -/
inductive IsOrdinary : Value → Prop
  | mapping {schema : Entries} (default : ∀ value, Entries.get? schema "default" = some value → value.IsJson)
      (proto : requiresProto schema = false) : IsOrdinary (.dict schema)
  | other {v : Value} (noEntries : v.entries? = none) : IsOrdinary v

theorem IsOrdinary.of_mapping {schema : Entries} (h : IsOrdinary (.dict schema)) :
    (∀ value, Entries.get? schema "default" = some value → value.IsJson) ∧ requiresProto schema = false := by
  cases h with
  | mapping default proto => exact ⟨default, proto⟩
  | other noEntries => cases noEntries

section

variable [Pattern.Engine] {schema : Entries} {core vd : Validator}

/-- The rest of a schema accepts a default if the schema itself accepts it. -/
theorem accepts_rest (hcore : coreValidator schema = .ok core) {value : Value} (hvalue : value.IsJson) {rest : Validator}
    (hrest : compile (.dict (schema.without "default")) = .ok rest) : rest.accepts value = core.accepts value := by
  obtain ⟨core', hcore', hannotated⟩ := compile_annotated hrest
  rw [accepts, accepts, hannotated.check_present hvalue.ne_absent]
  rcases coreValidator_withoutDefault hcore with hsame | ⟨rfl, hany⟩
  · rw [Except.ok.inj (hcore'.symm.trans hsame)]
  · rw [Except.ok.inj (hcore'.symm.trans hany), check_everyKind hvalue.isNode]
    rfl

/-- **The absent value and a mapping**: it passes if nothing is said, or the default stands in for it. -/
theorem check_absent_mapping (h : compile (.dict schema) = .ok vd) (hordinary : IsOrdinary (.dict schema)) :
    (∃ value, StandsIn (.dict schema) value ∧ ∀ path, vd.check .absent path = .ok (.accept value)) ∨
      (∀ value, ¬ StandsIn (.dict schema) value) ∧ RefusesAbsent False vd := by
  obtain ⟨hdefault, hproto⟩ := hordinary.of_mapping
  obtain ⟨core, hcore, hannotated⟩ := compile_annotated h
  rcases hannotated.check_absent with ⟨hcheck, hdropped⟩ | ⟨value, hgiven, haccepted, hcheck⟩
  · cases hconstraints : hasConstraints schema with
    | true =>
      refine .inr ⟨fun value hstands => ?_, fun path => ?_⟩
      · cases hstands with
        | unconstrained nothing => rw [hconstraints] at nothing; cases nothing
        | default given compiled accepted =>
          rw [accepts_rest hcore (hdefault _ given) compiled, hdropped _ given] at accepted
          cases accepted
      · rw [hcheck path]
        exact (coreValidator_refusesAbsent hconstraints hproto fun _ _ _ _ _ => .trivial _).meets core hcore path
    | false =>
      have hany := coreValidator_silent (isSilent_of_not_hasConstraints hconstraints)
      rw [hconstraints] at hany
      obtain rfl : core = .any := Except.ok.inj (hcore.symm.trans hany)
      exact .inl ⟨.absent, .unconstrained hconstraints, fun path => hcheck path⟩
  · left
    obtain ⟨core', hcore'⟩ : ∃ core', coreValidator (schema.without "default") = .ok core' := by
      rcases coreValidator_withoutDefault hcore with hsame | ⟨_, hany⟩
      · exact ⟨_, hsame⟩
      · exact ⟨_, hany⟩
    obtain ⟨rest, hrest⟩ := compile_of_core hcore' (Entries.get?_without_self schema "default")
    refine ⟨value, .default hgiven hrest ?_, hcheck⟩
    rw [accepts_rest hcore (hdefault value hgiven) hrest, haccepted]

/-- **The absent value and a schema**: something stands in for it, or it is refused. -/
theorem check_absent {schema : Value} (h : compile schema = .ok vd) (hordinary : IsOrdinary schema) :
    (∃ value, StandsIn schema value ∧ ∀ path, vd.check .absent path = .ok (.accept value)) ∨
      (∀ value, ¬ StandsIn schema value) ∧ RefusesAbsent False vd := by
  rcases compile_forms h with ⟨b, rfl, rfl⟩ | ⟨entries, rfl⟩
  · cases b with
    | true => exact .inl ⟨.absent, .truth, fun _ => rfl⟩
    | false => exact .inr ⟨nofun, fun _ => .ok rfl⟩
  · exact check_absent_mapping h hordinary

end

end Schemata
