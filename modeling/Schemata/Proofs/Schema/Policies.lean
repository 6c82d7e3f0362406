import Schemata.Pattern.Reader
import Schemata.Proofs.Schema.Absence
import Schemata.Proofs.Schema.Admission
import Schemata.Proofs.Schema.Objects
import Schemata.Proofs.Validator.Congruence
import Schemata.Proofs.Validator.Passing

/-!
# `Schemata.Proofs.Schema.Policies` — two ways of treating members that are left over

What becomes of members that no property declares is settled in the first phase, as a part of the validator of objects.
Beside `patternProperties` it is settled in the second phase, by a condition, and objects let all members pass. So an
empty `patternProperties` moves the policy from the one place to the other. The same members are refused, but for those
that are required and not declared: the validator of objects has fields for them, and the condition has not.

## Contents
- **Layers.** `PassSame`, and `follows_layers`: layers keep what sets two validators apart.
- **Slots.** `SameButObjects`, and `runAll_sameButObjects`: the policy is of no matter to other kinds.
- **Joining.** `passes_assemble`: a value passes what is joined if it passes the validator of its kind.
- **Objects.** `PolicyMoved`, and `passes_base`: the policy in the first phase, and the condition of the second one.
- **Policies.** `policies_agree`, and where they do not: `policies_differ`.
-/

namespace Schemata

open Value Validator

/-! ## Layers -/

section

variable {schema : Entries}

/-- What is compiled from a sub-schema without defaults is itself, and has none. -/
abbrev SameFree (_ : Role) (c c' : Validator) : Prop := c = c' ∧ DefaultFree c

theorem eq_of_sameFree {cs cs' : List Validator} {role : Role} (h : List.Forall₂ (SameFree role) cs cs') :
    cs = cs' ∧ ∀ c ∈ cs, DefaultFree c :=
  ⟨List.forall₂_eq_eq_eq ▸ h.imp fun _ _ hc => hc.1,
    forall_of_forall₂ h fun _ _ hc => hc.2⟩

/-- What a layer asks of a value. -/
def Layer.Asks (layer : Layer) (v : Value) : Prop :=
  match layer with
  | .replaced _ => True
  | .condition test _ => test.holds v = .ok true
  | .joined others => ∀ c ∈ others, c.Passes v

/-- The same layer for two validators, unless it replaces them: it has no defaults, and asks the same of both. -/
theorem layer_same (hproto : requiresProto schema = false) {refinement : Refinement} {layer layer' : Layer}
    (h : PairedLayers SameFree schema refinement layer layer') :
    layer = layer' ∧ ∀ vd, DefaultFree vd → DefaultFree (layer.on vd) ∧
      ∀ v : Value, v.IsJson → ((layer.on vd).Passes v ↔ vd.Passes v ∧ layer.Asks v) := by
  have hcondition : ∀ test message vd, DefaultFree vd → DefaultFree (Layer.on (.condition test message) vd) ∧
      ∀ v : Value, v.IsJson → ((Layer.on (.condition test message) vd).Passes v ↔ vd.Passes v ∧ test.holds v = .ok true) :=
    fun test message vd hvd => ⟨.intro (fun _ _ h => nomatch h) (List.forall_mem_singleton.mpr hvd),
      fun v hv => passes_refined hvd hv test message⟩
  have hfreed : RefinementInvariant [] DefaultFree := defaultsAre_refinementInvariant nofun
  have hjoined : ∀ others : List Validator, (∀ c ∈ others, DefaultFree c) → ∀ vd, DefaultFree vd →
      DefaultFree (Layer.on (.joined others) vd) ∧ ∀ v : Value, v.IsJson →
        ((Layer.on (.joined others) vd).Passes v ↔ vd.Passes v ∧ ∀ c ∈ others, c.Passes v) :=
    fun others hothers vd hvd => ⟨keeps_foldl_both hfreed hvd hothers, fun v _ => passes_foldl⟩
  -- validators without defaults are the same on both sides, so layers made of them are
  cases h with
  | protoRequired proto =>
    rw [protoRequired?_eq_none hproto] at proto
    cases proto
  | compositeEnumeration _ message => exact ⟨rfl, hcondition _ message⟩
  | compositeConst _ message => exact ⟨rfl, hcondition _ message⟩
  | allOf each =>
    obtain ⟨rfl, hfree⟩ := eq_of_sameFree each
    exact ⟨rfl, hjoined _ hfree⟩
  | someOf some each =>
    obtain ⟨rfl, hfree⟩ := eq_of_sameFree each
    exact ⟨rfl, hjoined _ (List.forall_mem_singleton.mpr (keeps_unionOf hfreed hfree (List.forall_mem_nil _)))⟩
  | prefixItems _ each others message =>
    obtain ⟨rfl, _⟩ := eq_of_sameFree each
    obtain rfl := (others.imp fun _ _ hc => hc.1).eq
    exact ⟨rfl, hcondition _ message⟩
  | contains _ each least most message =>
    obtain ⟨rfl, _⟩ := each
    exact ⟨rfl, hcondition _ message⟩
  | patternProperties _ each others message =>
    have hrules : ∀ rule rule', PatternRule.Paired (SameFree .pattern) rule rule' → rule = rule' :=
      fun _ _ hrule => (hrule.imp fun _ _ hc => hc.1).eq
    obtain rfl := List.forall₂_eq_eq_eq ▸ each.imp hrules
    obtain rfl := (others.imp fun _ _ hc => hc.1).eq
    exact ⟨rfl, hcondition _ message⟩
  | uniqueItems _ message => exact ⟨rfl, hcondition _ message⟩
  | not _ each message =>
    obtain ⟨rfl, _⟩ := each
    exact ⟨rfl, hcondition _ message⟩

/-- Two validators without defaults pass the same values of JSON, with a further condition on either side. -/
structure PassSame (left right : Value → Prop) (vd vd' : Validator) : Prop where
  free : DefaultFree vd
  free' : DefaultFree vd'
  passes : ∀ v : Value, v.IsJson → (vd.Passes v ∧ left v ↔ vd'.Passes v ∧ right v)

theorem PassSame.symm {left right : Value → Prop} {vd vd' : Validator} (h : PassSame left right vd vd') :
    PassSame right left vd' vd :=
  ⟨h.free', h.free, fun v hv => (h.passes v hv).symm⟩

/-- **Layers keep what sets two validators apart.** -/
theorem follows_layers [Pattern.Engine] (hproto : requiresProto schema = false)
    (hdefaults : ∀ s ∈ subSchemas schema, NoDefaults s) {refinements : List Refinement}
    (hrefinements : refinements ⊆ Refinement.constraints) {left right : Value → Prop} {vd vd' : Validator}
    (h : PassSame left right vd vd') :
    Follows (Refinement.runAll (fun _ => .ok ()) compile schema refinements vd)
      (Refinement.runAll (fun _ => .ok ()) compile schema refinements vd') (PassSame left right) := by
  have hpairs : ∀ role : Role, ∀ s ∈ role.schemas schema, Follows (compile s) (compile s) (SameFree role) :=
    fun role s hs c hc => ⟨c, hc, rfl, compile_defaultFree hc (hdefaults s (Role.mem_subSchemas hs))⟩
  refine follows_constraints hpairs _ hrefinements (fun refinement _ layer layer' hpaired w w' hw => ?_) vd vd' h
  obtain ⟨rfl, hlayer⟩ := layer_same hproto hpaired
  refine ⟨(hlayer w hw.free).1, (hlayer w' hw.free').1, fun v hv => ?_⟩
  rw [(hlayer w hw.free).2 v hv, (hlayer w' hw.free').2 v hv, and_right_comm, hw.passes v hv, and_right_comm]

end

/-! ## Slots -/

namespace Admissibility

variable {slots slots' : Admissibility} {kind : Kind}

/-- A step changes a slot by what is in it. -/
theorem apply_congr (h : slots' kind = slots kind) (step : Step) : slots'.apply step kind = slots.apply step kind := by
  cases htouches : step.touches kind with
  | false => rw [apply_other htouches, apply_other htouches, h]
  | true =>
    cases step with
    | disableAllExcept kinds => simp only [apply, h]
    | set k _ | disable k | markPending k | update k _ | settle k =>
      obtain rfl : k = kind := beq_iff_eq.mp htouches
      cases hdefault : defaultValidator? k <;> cases hslot : slots k <;>
        simp [apply, fill, current?, h, hslot, hdefault, Slot.isDisabled, Slot.validator?, Slot.isOpen]

theorem run_congr (h : slots' kind = slots kind) (steps : List Step) : slots'.run steps kind = slots.run steps kind := by
  induction steps generalizing slots slots' with
  | nil => exact h
  | cons step steps ih => exact ih (apply_congr h step)

end Admissibility

/-- The slots agree but for the validators of objects, which are admitted in both or in neither. -/
structure SameButObjects (slots slots' : Admissibility) : Prop where
  others : ∀ kind, kind ≠ .object → slots' kind = slots kind
  admits : (slots' .object).isDisabled = (slots .object).isDisabled

section

variable [Pattern.Engine] {slots slots' : Admissibility} {schema schema' : Entries} {additional : Additional}

omit [Pattern.Engine] in
theorem SameButObjects.run (h : SameButObjects slots slots') (steps : List Step) :
    SameButObjects (slots.run steps) (slots'.run steps) where
  others := fun kind hkind => Admissibility.run_congr (h.others kind hkind) steps
  admits := by rw [Admissibility.isDisabled_run_eq, Admissibility.isDisabled_run_eq, h.admits]

omit [Pattern.Engine] in
/-- Steps about objects that do not disable them. -/
theorem SameButObjects.objects (h : SameButObjects slots slots') {steps steps' : List Step} (honly : TouchOnly [.object] steps)
    (honly' : TouchOnly [.object] steps') (henabling : Enabling .object steps) (henabling' : Enabling .object steps') :
    SameButObjects (slots.run steps) (slots'.run steps') where
  others := by
    intro kind hkind
    have hother : kind ∉ [Kind.object] := by simpa using hkind
    rw [Admissibility.run_other fun step hstep => honly step hstep kind hother,
      Admissibility.run_other fun step hstep => honly' step hstep kind hother, h.others kind hkind]
  admits := by rw [Admissibility.isDisabled_run_eq, Admissibility.isDisabled_run_eq, henabling, henabling', h.admits]

/-- The fields of declared properties fail alike, whatever is required. -/
theorem lockstep_propertyFields (required required' : List String) (properties : Entries) :
    Lockstep (fun _ _ => True) (propertyFields compile required properties) (propertyFields compile required' properties) := by
  induction properties with
  | nil => exact .pure trivial
  | cons e es ih =>
    rw [propertyFields, propertyFields]
    refine (Lockstep.self (compile e.2)).bind fun _ _ _ => ih.bind fun _ _ _ => .pure trivial

/-- While objects are admitted, `properties` and its neighbours are about objects, and fail where a property or the
policy does. -/
theorem lockstep_propertiesSteps (schema : Entries) (hopen : (slots .object).isDisabled = false) :
    Lockstep (fun steps _ => TouchOnly [.object] steps ∧ Enabling .object steps) (propertiesSteps compile slots schema)
      (propertyFields compile (requiredNames schema) (mappedSchemas schema "properties") >>= fun _ =>
        additionalPolicy compile schema) := by
  unfold propertiesSteps
  rw [hopen, if_neg (by decide)]
  split
  next hnone =>
    -- nothing is declared then, and nothing is said about what is left over
    have hget : ∀ keyword ∈ ["properties", "required", "additionalProperties"], Entries.get? schema keyword = none := by
      intro keyword hkeyword
      rw [Bool.not_eq_true', Entries.hasAny, List.any_eq_false] at hnone
      exact Entries.has_eq_false_iff.mp (Bool.eq_false_iff.mpr (hnone keyword hkeyword))
    have hproperties : mappedSchemas schema "properties" = [] := by
      rw [mappedSchemas, hget _ (by decide)]
      rfl
    have hpolicy : additionalPolicy (m := Except CompileError) compile schema = .ok .passthrough := by
      rw [additionalPolicy, hget _ (by decide)]
      split <;> rfl
    rw [hproperties, hpolicy]
    exact .ok ⟨fun _ hstep => (List.not_mem_nil hstep).elim, rfl⟩
  next =>
    refine (Lockstep.self _).bind fun fields _ _ => ?_
    cases additionalPolicy (m := Except CompileError) compile schema with
    | error e => exact .error e
    | ok policy => exact .ok ⟨.update, rfl⟩

variable (hreads : ∀ keyword, keyword ∉ ["required", "patternProperties"] →
  Entries.get? schema' keyword = Entries.get? schema keyword)
include hreads

/-- The rules that read neither `required` nor `patternProperties` take the same steps. -/
theorem steps_sameButObjects (h : SameButObjects slots slots') {rule : KindRule}
    (hrule : ∀ keyword ∈ rule.keywords, keyword ∉ ["required", "patternProperties"]) :
    rule.steps (fun _ => .ok ()) compile slots' schema' =
      rule.steps (m := Except CompileError) (fun _ => .ok ()) compile slots schema := by
  rw [steps_readsAs keepsForm_id rule fun keyword hkeyword => .of_eq (hreads keyword (hrule keyword hkeyword))]
  show rule.steps (m := Except CompileError) (fun _ => .ok ()) compile slots' schema = _
  have hstring := h.others .string (by decide)
  have hnumber := h.others .number (by decide)
  have harray := h.others .array (by decide)
  have hboolean := h.others .boolean (by decide)
  have hnull := h.others .null (by decide)
  cases rule with
  | enumeration =>
    simp only [KindRule.steps, enumSteps, scalarEnumStep, List.map_cons, List.map_nil, hstring, hnumber, hboolean, hnull]
  | impliedObject => simp [KindRule.keywords, objectKeywords] at hrule
  | properties => simp [KindRule.keywords] at hrule
  | _ =>
    simp only [KindRule.steps, impliedSteps, impliedArraySteps, lengthSteps, patternSteps, rangeSteps, exclusiveSteps,
      multipleSteps, boundSteps, tupleSteps, itemsSteps, hstring, hnumber, harray]

/-- The rules of two schemas whose policies fail alike change other slots alike. -/
theorem lockstep_sameButObjects
    (hpolicy : Lockstep (fun _ _ => True) (additionalPolicy compile schema) (additionalPolicy compile schema'))
    (h : SameButObjects slots slots') (rule : KindRule) :
    Lockstep (fun steps steps' => SameButObjects (slots.run steps) (slots'.run steps'))
      (rule.steps (fun _ => .ok ()) compile slots schema) (rule.steps (fun _ => .ok ()) compile slots' schema') := by
  cases rule with
  | impliedObject =>
    exact .pure (h.objects (touchOnly_impliedSteps _ _) (touchOnly_impliedSteps _ _) (enabling_impliedSteps _ _)
      (enabling_impliedSteps _ _))
  | properties =>
    show Lockstep _ (propertiesSteps compile slots schema) (propertiesSteps compile slots' schema')
    cases hdisabled : (slots .object).isDisabled with
    | true =>
      have hdisabled' : (slots' .object).isDisabled = true := h.admits.trans hdisabled
      rw [propertiesSteps, propertiesSteps, if_pos hdisabled, if_pos hdisabled']
      exact .pure h
    | false =>
      have hdisabled' : (slots' .object).isDisabled = false := h.admits.trans hdisabled
      have hmiddle := (lockstep_propertyFields (requiredNames schema) (requiredNames schema')
        (mappedSchemas schema "properties")).bind fun _ _ _ => hpolicy
      have hright := (lockstep_propertiesSteps schema' hdisabled').symm
      rw [mappedSchemas, hreads "properties" (by decide)] at hright
      refine (((lockstep_propertiesSteps schema hdisabled).trans hmiddle).trans hright).mono ?_
      rintro steps steps' ⟨_, ⟨_, ⟨honly, henabling⟩, _⟩, honly', henabling'⟩
      exact h.objects honly honly' henabling henabling'
  | _ =>
    rw [steps_sameButObjects hreads h (by decide)]
    exact (Lockstep.self _).mono fun steps _ heq => heq ▸ h.run steps

theorem runAll_sameButObjects
    (hpolicy : Lockstep (fun _ _ => True) (additionalPolicy compile schema) (additionalPolicy compile schema'))
    (rules : List KindRule) (h : SameButObjects slots slots') :
    Lockstep SameButObjects (KindRule.runAll (fun _ => .ok ()) compile schema rules slots)
      (KindRule.runAll (fun _ => .ok ()) compile schema' rules slots') := by
  induction rules generalizing slots slots' with
  | nil => exact .pure h
  | cons rule rules ih =>
    rw [KindRule.runAll, KindRule.runAll]
    exact .bind (lockstep_sameButObjects hreads hpolicy h rule) fun steps steps' hsteps => ih hsteps

end

/-! ## Joining -/

section

variable {slots : Admissibility} {schema : Entries} {v : Value}

/-- **What is joined of the slots passes a value** if the validator of its kind does. -/
theorem passes_assemble [Pattern.Engine]
    (hslots : KindRule.runAll (fun _ => .ok ()) compile schema KindRule.all .initial = .ok slots) (hv : v.IsJson) :
    (slots.assemble schema).Passes v ↔
      ∃ kind vd, slots.admitted? kind = some vd ∧ tagAdmits kind.name v.kind = true ∧ vd.Passes v := by
  suffices h : (slots.assemble schema).Passes v ↔ ∃ o ∈ slots.validators, tagAdmits o.1.name v.kind = true ∧ o.2.Passes v by
    rw [h]
    exact ⟨fun ⟨o, ho, hpasses⟩ => ⟨o.1, o.2, mem_validators ho, hpasses⟩,
      fun ⟨kind, vd, hadmitted, hpasses⟩ => ⟨(kind, vd), mem_validators_of_admitted hadmitted, hpasses⟩⟩
  have hforeign : slots.Keep (RefusesOthers ((Value.dict schema).isWritable = true)) :=
    (slots_keep foreign_refused (.of_sub (fun w hw hwritable => isWritable_of_mem_literals hwritable hw)
      fun _ _ _ _ => trivial) KindRule.all .initial).meets slots hslots
  have hasked : ∀ labels, hasConstraints labels = true → ((slots.assemble labels).Passes v ↔
      ∃ o ∈ slots.validators, tagAdmits o.1.name v.kind = true ∧ o.2.Passes v) := by
    intro labels hconstraints
    have hsame : ∀ o ∈ slots.validators, tagAdmits o.1.name v.kind = true →
        ((slots.assemble labels).Passes v ↔ o.2.Passes v) := by
      intro o ho htag
      rw [passes_iff, passes_iff]
      rcases check_assemble (validators_apart.meets slots hslots) hconstraints ho hv.ne_absent htag [] with hcheck | hcheck
      · rw [hcheck]
      · rw [hcheck]
        cases o.2.check v [] with
        | error e => simp [Except.map]
        | ok r =>
          have hissues : (⟨v, r.issues⟩ : Report).ok = r.ok := rfl
          cases hok : r.ok <;> simp [Except.map, hok, hissues]
    refine ⟨fun hpasses => ?_, fun ⟨o, ho, htag, hpasses⟩ => (hsame o ho htag).mpr hpasses⟩
    by_contra hnone
    have htags : ∀ o ∈ slots.validators, tagAdmits o.1.name v.kind = false := fun o ho =>
      Bool.eq_false_iff.mpr fun htag => hnone ⟨o, ho, htag, (hsame o ho htag).mp hpasses⟩
    obtain ⟨r, hr, hok⟩ := passes_iff.mp hpasses
    rw [(refused_assemble hforeign hconstraints htags []).meets r hr] at hok
    cases hok
  cases hconstraints : hasConstraints schema with
  | true => exact hasked schema hconstraints
  | false =>
    -- a schema without constraints passes everything, as its default validators would
    obtain rfl : Admissibility.initial = slots :=
      Except.ok.inj ((KindRule.runAll_silent (isSilent_of_not_hasConstraints hconstraints)).symm.trans hslots)
    have hany : Admissibility.initial.assemble schema = .any := by
      show (if hasConstraints schema then _ else Validator.any) = _
      rw [hconstraints]
      rfl
    have hall : (Admissibility.initial.assemble [(.string "const", .null)]).Passes v :=
      passes_iff.mpr ⟨_, check_everyKind hv.isNode [], rfl⟩
    rw [hany, ← hasked [(.string "const", .null)] rfl]
    exact ⟨fun _ => hall, fun _ => rfl⟩

end

/-! ## Objects -/

/-- The validator of objects has a policy in the first run, and lets all members pass in the second one. -/
structure PolicyMoved [Pattern.Engine] (schema : Entries) (additional : Additional) (slots slots' : Admissibility) :
    Prop where
  others : ∀ kind, kind ≠ .object → slots'.admitted? kind = slots.admitted? kind
  objects : slots.admitted? .object = none ∧ slots'.admitted? .object = none ∨
    ∃ fields bounds, slots.admitted? .object = some (.object fields additional bounds) ∧
      slots'.admitted? .object = some (.object fields .passthrough bounds) ∧ BuiltObject compile schema fields additional

section

variable [Pattern.Engine] {schema schema' : Entries} {additional : Additional}

theorem policyMoved (hreads : ∀ keyword, keyword ≠ "patternProperties" → Entries.get? schema' keyword = Entries.get? schema keyword)
    (hpolicy : additionalPolicy compile schema = .ok additional) (hpolicy' : additionalPolicy compile schema' = .ok .passthrough) :
    Lockstep (PolicyMoved schema additional) (KindRule.runAll (fun _ => .ok ()) compile schema KindRule.all .initial)
      (KindRule.runAll (fun _ => .ok ()) compile schema' KindRule.all .initial) := by
  have hinitial : SameButObjects .initial .initial := ⟨fun _ _ => rfl, rfl⟩
  have hothers : ∀ keyword, keyword ∉ ["required", "patternProperties"] →
      Entries.get? schema' keyword = Entries.get? schema keyword := fun keyword hkeyword =>
    hreads keyword fun heq => hkeyword (by simp [heq])
  have hpolicies : Lockstep (fun _ _ => True) (additionalPolicy compile schema) (additionalPolicy compile schema') := by
    rw [hpolicy, hpolicy']
    exact .ok trivial
  have hrun := runAll_sameButObjects hothers hpolicies KindRule.all hinitial
  refine (hrun.and (holdsObject_all (v := .dict []) rfl) (holdsObject_all (v := .dict []) rfl)).mono ?_
  rintro slots slots' ⟨hsame, ⟨fields, policy, hholds, hbuilt⟩, fields', policy', hholds', hbuilt'⟩
  have hadmits := hsame.admits
  rw [Admissibility.isDisabled_eq rfl, Admissibility.isDisabled_eq rfl, hholds, hholds'] at hadmits
  rw [HoldsObject] at hholds hholds'
  refine ⟨fun kind hkind => Admissibility.admitted?_congr (hsame.others kind hkind), ?_⟩
  cases hkept : kindKept schema (.dict []) <;> cases hkept' : kindKept schema' (.dict []) <;>
    rw [hkept] at hholds hbuilt hadmits <;> rw [hkept'] at hholds' hbuilt' hadmits
  · exact .inl ⟨hholds, hholds'⟩
  · cases hadmits
  · cases hadmits
  · obtain ⟨⟨done, hdone, rfl⟩, hfirst⟩ := hbuilt rfl
    obtain ⟨⟨done', hdone', rfl⟩, hsecond⟩ := hbuilt' rfl
    obtain rfl : policy = additional := Except.ok.inj (hfirst.symm.trans hpolicy)
    obtain rfl : policy' = .passthrough := Except.ok.inj (hsecond.symm.trans hpolicy')
    rw [mappedSchemas, hreads "properties" (by decide)] at hdone'
    obtain rfl : done = done' := hdone.unique (fun e c c' hc hc' => Except.ok.inj (hc.symm.trans hc')) hdone'
    rw [requiredNames_readsAs (.of_eq (hreads "required" (by decide))), givenBounds, Entries.given?, Entries.given?,
      hreads "minProperties" (by decide), hreads "maxProperties" (by decide)] at hholds'
    exact .inr ⟨_, _, hholds, hholds', ⟨done, hdone, rfl⟩, hpolicy⟩

/-- Members that are required and not declared get past the policy. -/
def RequiredAdmitted (schema : Entries) (additional : Additional) (v : Value) : Prop :=
  ∀ members, v = .dict members → ∀ key ∈ requiredNames schema,
    Entries.get? (mappedSchemas schema "properties") key = none → ∀ w, (.string key, w) ∈ members → additional.Passes w

theorem BuiltObject.memberPasses {fields : List Field} (h : BuiltObject compile schema fields additional) (key : String)
    (w : Value) : (MemberPasses fields .passthrough (.string key, w) ∧
        (((mappedSchemas schema "properties").map Prod.fst).any (fun name => name.alike (.string key)) = false →
          additional.Passes w)) ↔
      (MemberPasses fields additional (.string key, w) ∧ (key ∈ requiredNames schema →
        Entries.get? (mappedSchemas schema "properties") key = none → additional.Passes w)) := by
  obtain ⟨⟨done, hdone, rfl⟩, _⟩ := h
  have hdeclared : ((mappedSchemas schema "properties").map Prod.fst).any (fun name => name.alike (.string key)) =
      (Entries.get? (mappedSchemas schema "properties") key).isSome := by
    rw [List.any_map]
    exact Entries.hasAlike_string _ _
  rw [hdeclared, MemberPasses, MemberPasses, Field.find?_addRequired, find?_propertyFields, ← hdone.args, get?_map_fst]
  cases done.find? fun d => d.1.1.isText key with
  | some d => simp
  | none =>
    by_cases hrequired : key ∈ requiredNames schema
    · simp [hrequired, Field.ofRequired]
    · simp [hrequired, Additional.Passes]

/-- The condition of the second phase lets the same members of an object through, but for required ones. -/
theorem passes_policy {fields : List Field} (h : BuiltObject compile schema fields additional) {members : Entries}
    (hjson : (Value.dict members).IsJson) (bounds : Bounds) :
    ((object fields .passthrough bounds).Passes (.dict members) ∧
        (Test.patterns [] ((mappedSchemas schema "properties").map Prod.fst) additional).holds (.dict members) = .ok true) ↔
      ((object fields additional bounds).Passes (.dict members) ∧ RequiredAdmitted schema additional (.dict members)) := by
  rw [passes_object, passes_object, Test.holds_undeclared]
  constructor
  · rintro ⟨⟨hcounts, hmembers, hgone⟩, hothers⟩
    have heach := fun key w (hw : (.string key, w) ∈ members) => (h.memberPasses key w).mp ⟨hmembers _ hw, hothers _ hw⟩
    refine ⟨⟨hcounts, ?_, hgone⟩, ?_⟩
    · rintro ⟨k, w⟩ he
      obtain ⟨key, rfl⟩ := hjson.key he
      exact (heach key w he).1
    · rintro _ ⟨⟩ key hrequired hundeclared w hw
      exact (heach key w hw).2 hrequired hundeclared
  · rintro ⟨⟨hcounts, hmembers, hgone⟩, hrequired⟩
    have heach := fun key w (hw : (.string key, w) ∈ members) => (h.memberPasses key w).mpr
      ⟨hmembers _ hw, fun hkey hundeclared => hrequired _ rfl key hkey hundeclared w hw⟩
    refine ⟨⟨hcounts, ?_, hgone⟩, ?_⟩
    · rintro ⟨k, w⟩ he
      obtain ⟨key, rfl⟩ := hjson.key he
      exact (heach key w he).1
    · rintro ⟨k, w⟩ he
      obtain ⟨key, rfl⟩ := hjson.key he
      exact (heach key w he).2

/-- **The policy in the first phase, and the condition of the second one**: they differ for required members. -/
theorem passes_base {slots slots' : Admissibility} (h : PolicyMoved schema additional slots slots')
    (hslots : KindRule.runAll (fun _ => .ok ()) compile schema KindRule.all .initial = .ok slots)
    (hslots' : KindRule.runAll (fun _ => .ok ()) compile schema' KindRule.all .initial = .ok slots')
    {v : Value} (hv : v.IsJson) :
    ((slots'.assemble schema').Passes v ∧
        (Test.patterns [] ((mappedSchemas schema "properties").map Prod.fst) additional).holds v = .ok true) ↔
      ((slots.assemble schema).Passes v ∧ RequiredAdmitted schema additional v) := by
  rw [passes_assemble hslots hv, passes_assemble hslots' hv]
  by_cases hdict : ∃ members, v = .dict members
  · obtain ⟨members, rfl⟩ := hdict
    have hobject : ∀ slots : Admissibility,
        (∃ kind vd, slots.admitted? kind = some vd ∧ tagAdmits kind.name (Value.dict members).kind = true ∧
          vd.Passes (.dict members)) ↔
          ∃ vd, slots.admitted? .object = some vd ∧ vd.Passes (.dict members) := by
      refine fun slots => ⟨?_, fun ⟨vd, hvd, hpasses⟩ => ⟨.object, vd, hvd, rfl, hpasses⟩⟩
      rintro ⟨kind, vd, hvd, htag, hpasses⟩
      cases kind <;> first | exact ⟨vd, hvd, hpasses⟩ | cases htag
    rw [hobject, hobject]
    rcases h.objects with ⟨hnone, hnone'⟩ | ⟨fields, bounds, hsome, hsome', hbuilt⟩
    · simp [hnone, hnone']
    · simpa [hsome, hsome'] using passes_policy hbuilt hv bounds
  · have hholds : (Test.patterns [] ((mappedSchemas schema "properties").map Prod.fst) additional).holds v = .ok true := by
      cases v with
      | dict members => exact (hdict ⟨members, rfl⟩).elim
      | _ => rfl
    have hother : ∀ kind : Kind, tagAdmits kind.name v.kind = true → slots'.admitted? kind = slots.admitted? kind := by
      refine fun kind htag => h.others kind ?_
      rintro rfl
      exact hdict (Value.eq_object_of_kind (kind_of_tagAdmits (by decide) htag))
    refine and_congr ⟨?_, ?_⟩ ⟨fun _ members heq => (hdict ⟨members, heq⟩).elim, fun _ => hholds⟩
    · rintro ⟨kind, vd, hvd, htag, hpasses⟩
      exact ⟨kind, vd, hother kind htag ▸ hvd, htag, hpasses⟩
    · rintro ⟨kind, vd, hvd, htag, hpasses⟩
      exact ⟨kind, vd, (hother kind htag).trans hvd, htag, hpasses⟩

end

/-! ## Policies -/

/-- A schema with an empty `patternProperties` added. -/
def withPatterns (schema : Entries) : Entries := schema ++ [(.string "patternProperties", .dict [])]

section

variable [Pattern.Engine] {schema : Entries} {additional : Additional}

omit [Pattern.Engine] in
theorem get?_withPatterns (schema : Entries) (keyword : String) (h : keyword ≠ "patternProperties") :
    Entries.get? (withPatterns schema) keyword = Entries.get? schema keyword :=
  Entries.get?_adding h schema _

omit [Pattern.Engine] in
theorem get?_withPatterns_self (h : Entries.get? schema "patternProperties" = none) :
    Entries.get? (withPatterns schema) "patternProperties" = some (.dict []) :=
  Entries.get?_adding_self h _

/-- The refinements before the one for patterns, and those after it. -/
abbrev earlierRefinements : List Refinement :=
  [.protoRequired, .compositeEnumeration, .compositeConst, .allOf, .anyOf, .oneOf, .prefixItems, .contains]

abbrev laterRefinements : List Refinement := [.uniqueItems, .not]

omit [Pattern.Engine] in
theorem constraints_eq : Refinement.constraints = earlierRefinements ++ .patternProperties :: laterRefinements := rfl

theorem coreValidator_without (hnone : Entries.get? schema "patternProperties" = none) :
    coreValidator schema = baseValidator schema >>= fun base =>
      Refinement.runAll (fun _ => .ok ()) compile schema earlierRefinements base >>=
        Refinement.runAll (fun _ => .ok ()) compile schema laterRefinements := by
  have hpatterns : ∀ vd, Refinement.apply? (m := Except CompileError) (fun _ => .ok ()) compile .patternProperties vd schema =
      .ok none := by
    intro vd
    show patternProperties? (fun _ => .ok ()) compile vd schema = _
    rw [patternProperties?, hnone]
    rfl
  rw [coreValidator, constraints_eq]
  refine bind_congr fun base => ?_
  rw [Refinement.runAll_append]
  refine bind_congr fun vd => ?_
  rw [Refinement.runAll, hpatterns]
  rfl

theorem coreValidator_withPatterns (hnone : Entries.get? schema "patternProperties" = none) :
    coreValidator (withPatterns schema) = baseValidator (withPatterns schema) >>= fun base =>
      Refinement.runAll (fun _ => .ok ()) compile schema earlierRefinements base >>= fun vd =>
        leftOver compile schema "additionalProperties" >>= fun additional =>
          Refinement.runAll (fun _ => .ok ()) compile schema laterRefinements (.refined vd
            (.patterns [] ((mappedSchemas schema "properties").map Prod.fst) additional)
            "Object properties do not match patternProperties") := by
  have hreads : ∀ refinements, (∀ refinement ∈ refinements, "patternProperties" ∉ Refinement.keywords refinement) → ∀ vd,
      Refinement.runAll (fun _ => .ok ()) compile (withPatterns schema) refinements vd =
        Refinement.runAll (m := Except CompileError) (fun _ => .ok ()) compile schema refinements vd :=
    fun refinements hnot vd => Refinement.runAll_readsAs keepsForm_id refinements vd fun refinement hmem keyword hkeyword =>
      .of_eq (get?_withPatterns schema keyword fun heq => hnot refinement hmem (heq ▸ hkeyword))
  have hpatterns : ∀ vd, Refinement.apply? (m := Except CompileError) (fun _ => .ok ()) compile .patternProperties vd
      (withPatterns schema) = leftOver compile schema "additionalProperties" >>= fun additional => .ok (some (.refined vd
        (.patterns [] ((mappedSchemas schema "properties").map Prod.fst) additional)
        "Object properties do not match patternProperties")) := by
    intro vd
    show patternProperties? (fun _ => .ok ()) compile vd (withPatterns schema) = _
    rw [patternProperties?, get?_withPatterns_self hnone, get?_withPatterns _ _ (by decide), leftOver, leftOver,
      get?_withPatterns _ _ (by decide)]
    rfl
  rw [coreValidator, constraints_eq]
  refine bind_congr fun base => ?_
  rw [Refinement.runAll_append, hreads earlierRefinements (by decide)]
  refine bind_congr fun vd => ?_
  rw [Refinement.runAll, hpatterns, bind_assoc]
  refine bind_congr fun additional => ?_
  exact hreads laterRefinements (by decide) _

/-- **The first phases, and the condition of the second one.** -/
theorem lockstep_base (hnone : Entries.get? schema "patternProperties" = none) (hdefaults : NoDefaults (.dict schema))
    (hothers : leftOver compile schema "additionalProperties" = .ok additional) :
    Lockstep (PassSame (RequiredAdmitted schema additional)
        fun v => (Test.patterns [] ((mappedSchemas schema "properties").map Prod.fst) additional).holds v = .ok true)
      (baseValidator schema) (baseValidator (withPatterns schema)) := by
  have hpolicy : additionalPolicy compile schema = .ok additional := by
    rw [additionalPolicy, Entries.has, hnone]
    exact hothers
  have hpolicy' : additionalPolicy compile (withPatterns schema) = .ok .passthrough := by
    rw [additionalPolicy, Entries.has, get?_withPatterns_self hnone]
    rfl
  have hslots : ∀ schema : Entries, Answers False (KindRule.runAll (fun _ => .ok ()) compile schema KindRule.all .initial)
      fun slots => KindRule.runAll (fun _ => .ok ()) compile schema KindRule.all .initial = .ok slots :=
    fun schema => .of_meets fun _ h => h
  have hkeep : Answers False (KindRule.runAll (fun _ => .ok ()) compile schema KindRule.all .initial)
      (Admissibility.Keep fun _ => DefaultFree) :=
    slots_keep defaultsAre_slotInvariant (.of_sub (fun _ _ => trivial) fun s hs c hc =>
      compile_defaultFree hc (hdefaults.inside hs)) KindRule.all .initial
  have hmoved := policyMoved (get?_withPatterns schema) hpolicy hpolicy'
  refine (hmoved.and (hslots schema) (hslots (withPatterns schema))).bind ?_
  rintro slots slots' ⟨hmoved, hrun, hrun'⟩
  have hfree : ∀ kind vd, slots.admitted? kind = some vd → DefaultFree vd := fun kind vd hvd =>
    validators_keep defaultsAre_slotInvariant (hkeep.meets slots hrun) (mem_validators_of_admitted hvd)
  -- the object on the other side has the same fields, and lets all other members pass
  have hfree' : ∀ kind vd, slots'.admitted? kind = some vd → DefaultFree vd := by
    intro kind vd hvd
    by_cases hkind : kind = .object
    · subst hkind
      rcases hmoved.objects with ⟨_, hnone'⟩ | ⟨fields, bounds, hsome, hsome', _⟩
      · rw [hnone'] at hvd
        cases hvd
      · obtain rfl := Option.some.inj (hsome'.symm.trans hvd)
        exact .intro (fun _ _ h => by cases h) fun c hc =>
          (hfree _ _ hsome).part (List.mem_append_left _ (by simpa [Additional.validator?, children] using hc))
    · exact hfree kind vd ((hmoved.others kind hkind) ▸ hvd)
  have hinvariant : ∀ labels, Entries.get? labels "default" = none → RefinementInvariant labels DefaultFree :=
    fun labels hget => defaultsAre_refinementInvariant fun value hvalue => by
      rw [hget] at hvalue
      cases hvalue
  have hdefault : Entries.get? schema "default" = none := Entries.has_eq_false_iff.mp hdefaults.here
  refine .pure ⟨?_, ?_, fun v hv => (passes_base hmoved hrun hrun' hv).symm⟩
  · exact keeps_assemble (hinvariant schema hdefault) fun o ho => hfree o.1 o.2 (mem_validators ho)
  · refine keeps_assemble (hinvariant _ ?_) fun o ho => hfree' o.1 o.2 (mem_validators ho)
    rw [get?_withPatterns _ _ (by decide), hdefault]

/-- **The second phases**, up to annotations. -/
theorem follows_core (hnone : Entries.get? schema "patternProperties" = none) (hdefaults : NoDefaults (.dict schema))
    (hproto : requiresProto schema = false) (hothers : leftOver compile schema "additionalProperties" = .ok additional) :
    Follows (coreValidator schema) (coreValidator (withPatterns schema))
        (PassSame (RequiredAdmitted schema additional) fun _ => True) ∧
      Follows (coreValidator (withPatterns schema)) (coreValidator schema)
        (PassSame (fun _ => True) (RequiredAdmitted schema additional)) := by
  have hbase := lockstep_base hnone hdefaults hothers
  have hsub : ∀ s ∈ subSchemas schema, NoDefaults s := fun s hs => hdefaults.inside hs
  have hearlier : earlierRefinements ⊆ Refinement.constraints := by decide
  have hlater : laterRefinements ⊆ Refinement.constraints := by decide
  have hcondition : ∀ {vd vd' : Validator} {test : Test} (message : String),
      PassSame (RequiredAdmitted schema additional) (fun v => test.holds v = .ok true) vd vd' →
        PassSame (RequiredAdmitted schema additional) (fun _ => True) vd (.refined vd' test message) := by
    intro vd vd' test message h
    refine ⟨h.free, .intro (fun _ _ h => nomatch h) (List.forall_mem_singleton.mpr h.free'), fun v hv => ?_⟩
    rw [passes_refined h.free' hv, and_true, h.passes v hv]
  rw [coreValidator_without hnone, coreValidator_withPatterns hnone, hothers]
  constructor
  · refine .bind (fun base h => hbase.exists_of_ok h) fun base base' hbases => ?_
    refine .bind (follows_layers hproto hsub hearlier hbases) fun vd vd' hvd => ?_
    exact follows_layers hproto hsub hlater (hcondition _ hvd)
  · refine .bind (fun base h => hbase.symm.exists_of_ok h) fun base' base hbases => ?_
    refine .bind (follows_layers hproto hsub hearlier hbases.symm) fun vd' vd hvd => ?_
    exact follows_layers hproto hsub hlater (hcondition _ hvd.symm).symm

/-- **The policy may be moved**, but for members that are required and not declared. Beside an empty `patternProperties`
they follow the policy like any other member, and without it they pass. If a schema without defaults that does not
require `__proto__` compiles with an empty `patternProperties` added, then it compiles as it is, and accepts the same
values of JSON besides; and if it compiles as it is, then the other one compiles as long as the policy does. -/
theorem policies_agree {schema : Entries} (hnone : Entries.get? schema "patternProperties" = none)
    (hdefaults : NoDefaults (.dict schema)) (hproto : requiresProto schema = false) :
    (∀ vd', compile (.dict (withPatterns schema)) = .ok vd' → ∃ vd additional, compile (.dict schema) = .ok vd ∧
      leftOver compile schema "additionalProperties" = .ok additional ∧ ∀ v : Value, v.IsJson →
        (vd'.accepts v = .ok true ↔ vd.accepts v = .ok true ∧ RequiredAdmitted schema additional v)) ∧
      ∀ vd additional, compile (.dict schema) = .ok vd → leftOver compile schema "additionalProperties" = .ok additional →
        ∃ vd', compile (.dict (withPatterns schema)) = .ok vd' := by
  have hdefault : Entries.get? schema "default" = none := Entries.has_eq_false_iff.mp hdefaults.here
  constructor
  · intro vd' hcompile
    obtain ⟨core', hcore', hannotated'⟩ := compile_annotated hcompile
    obtain ⟨additional, hothers⟩ : ∃ additional, leftOver compile schema "additionalProperties" = .ok additional := by
      rw [coreValidator_withPatterns hnone] at hcore'
      obtain ⟨base, _, hlayers⟩ := exists_of_bind_eq_ok hcore'
      obtain ⟨w, _, hpolicy⟩ := exists_of_bind_eq_ok hlayers
      obtain ⟨additional, hothers, _⟩ := exists_of_bind_eq_ok hpolicy
      exact ⟨additional, hothers⟩
    obtain ⟨core, hcore, hsame⟩ := (follows_core hnone hdefaults hproto hothers).2 core' hcore'
    obtain ⟨vd, hvd⟩ := compile_of_core hcore hdefault
    obtain ⟨_, hcore₂, hannotated⟩ := compile_annotated hvd
    obtain rfl := Except.ok.inj (hcore.symm.trans hcore₂)
    refine ⟨vd, additional, hvd, hothers, fun v hv => ?_⟩
    rw [accepts, accepts, hannotated'.check_present hv.ne_absent, hannotated.check_present hv.ne_absent, ← accepts, ← accepts]
    exact (and_iff_left trivial).symm.trans (hsame.passes v hv)
  · intro vd additional hcompile hothers
    obtain ⟨core, hcore, _⟩ := compile_annotated hcompile
    obtain ⟨core', hcore', _⟩ := (follows_core hnone hdefaults hproto hothers).1 core hcore
    exact compile_of_core hcore' (by rw [get?_withPatterns _ _ (by decide), hdefault])

end

attribute [local instance] Pattern.engine

/-- A policy that refuses all members that are not declared, beside a required one. -/
theorem policies_agree_strict :
    let schema : Entries := [(.string "type", .string "object"), (.string "required", .list [.string "a"]),
      (.string "additionalProperties", .bool false)]
    Entries.get? schema "patternProperties" = none ∧ NoDefaults (.dict schema) ∧ requiresProto schema = false ∧
      ∃ vd vd', compile (.dict schema) = .ok vd ∧ compile (.dict (withPatterns schema)) = .ok vd' ∧
        ∀ v : Value, v.IsJson →
          (vd'.accepts v = .ok true ↔ vd.accepts v = .ok true ∧ RequiredAdmitted schema .strict v) := by
  intro schema
  have hnone : Entries.get? schema "patternProperties" = none := rfl
  have hdefaults : NoDefaults (.dict schema) := .mapping rfl (List.forall_mem_singleton.mpr (.other rfl))
  have hproto : requiresProto schema = false := rfl
  obtain ⟨vd', hcompile'⟩ : ∃ vd', compile (.dict (withPatterns schema)) = .ok vd' := ⟨_, by with_unfolding_all rfl⟩
  obtain ⟨vd, additional, hcompile, hothers, hsame⟩ := (policies_agree hnone hdefaults hproto).1 vd' hcompile'
  obtain rfl : Additional.strict = additional := Except.ok.inj hothers
  exact ⟨hnone, hdefaults, hproto, vd, vd', hcompile, hcompile', hsame⟩

/-- A required member that is not declared passes beside a policy that refuses it, but not if the policy is moved. -/
theorem policies_differ :
    let schema : Entries := [(.string "type", .string "object"), (.string "required", .list [.string "a"]),
      (.string "additionalProperties", .bool false)]
    let v := Value.dict [(.string "a", .int 1)]
    WellFormed (.dict schema) ∧ NoDefaults (.dict schema) ∧ Everywhere (fun entries => requiresProto entries = false) (.dict schema) ∧
      Entries.get? schema "patternProperties" = none ∧ v.IsJson ∧ ∃ vd vd', compile (.dict schema) = .ok vd ∧
        compile (.dict (withPatterns schema)) = .ok vd' ∧ vd.accepts v = .ok true ∧ vd'.accepts v = .ok false := by
  intro schema v
  have hinside : ∀ {holds : Entries → Prop}, ∀ s ∈ subSchemas schema, Everywhere holds s :=
    List.forall_mem_singleton.mpr (.other rfl)
  refine ⟨⟨rfl, .mapping (hasShapes_iff.mpr rfl) hinside⟩, .mapping rfl hinside, .mapping rfl hinside, rfl,
    .dict ⟨by simp, by simp⟩ (List.forall_mem_singleton.mpr (.leaf rfl rfl rfl)), ?_⟩
  have hcompile : compile (.dict schema) = .ok (.object [.mk (.string "a") true .any] .strict {}) := by with_unfolding_all rfl
  have hcompile' : compile (.dict (withPatterns schema)) = .ok (.refined (.object [.mk (.string "a") true .any] .passthrough {})
      (.patterns [] [] .strict) "Object properties do not match patternProperties") := by with_unfolding_all rfl
  exact ⟨_, _, hcompile, hcompile', by with_unfolding_all rfl, by with_unfolding_all rfl⟩

end Schemata
