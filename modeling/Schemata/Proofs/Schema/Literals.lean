import Schemata.Pattern.Reader
import Schemata.Proofs.Schema.Absence
import Schemata.Proofs.Schema.Admission
import Schemata.Proofs.Value.Writable

/-!
# `Schemata.Proofs.Schema.Literals` — one literal, as a constant or as an enumeration

A constant disables all kinds but that of its literal at one stroke, and an enumeration goes through the kinds one by
one. For a single literal both leave the same slots, so the rest of the first phase is the same. In the second phase
lists and mappings are compared with the literal by two conditions, which differ only on values of other kinds, and
none of those has come so far. What is left of the difference is a remark: a constant of no kind is written into one.

## Contents
- **Outcomes.** `SameOutcomes`, validators that differ in their issues alone, and the layers that keep them so.
- **Slots.** `literalSlots`, and `runAll_const` and `runAll_enum`, which both start from them.
- **Comparisons.** `yields_composites`, and `sameOutcomes_compared` for the two conditions.
- **Literals.** `const_enum_interchangeable`, and `const_enum_unwritable`, where they are not.
-/

namespace Schemata

open Validator

/-! ## Outcomes -/

/-- Two reports accept with the same output, or both refuse. -/
structure SameResult (r r' : Report) : Prop where
  ok : r.ok = r'.ok
  output : r.ok = true → r'.output = r.output

/-- Two validators accept the same values with the same outputs, and end in the same faults. Their issues may differ. -/
def SameOutcomes (vd vd' : Validator) : Prop :=
  ∀ v path, Lockstep SameResult (vd.check v path) (vd'.check v path)

namespace SameOutcomes

variable {vd vd' c c' : Validator}

theorem refl (vd : Validator) : SameOutcomes vd vd := by
  intro v path
  refine (Lockstep.self _).mono ?_
  rintro r _ rfl
  exact ⟨rfl, fun _ => rfl⟩

theorem symm (h : SameOutcomes vd vd') : SameOutcomes vd' vd := fun v path =>
  (h v path).symm.mono fun _ _ hr => ⟨hr.ok.symm, fun hok => (hr.output (hr.ok.trans hok)).symm⟩

/-- The outputs are judged by one condition. -/
theorem refined (h : SameOutcomes vd vd') (test : Test) (message : String) :
    SameOutcomes (.refined vd test message) (.refined vd' test message) := by
  intro v path
  refine lockstep_refined (h v path) (fun _ _ hr => hr.ok) ?_ (fun _ _ hr => hr) fun _ _ _ _ => ⟨rfl, nofun⟩
  intro r r' hr haccepted
  rw [hr.output haccepted]
  exact .self _

theorem both (h : SameOutcomes vd vd') (hc : SameOutcomes c c') : SameOutcomes (.both vd c) (.both vd' c') := by
  intro v path
  refine lockstep_both (h v path) (hc v path) (fun l l' r r' hl hr => by rw [hl.ok, hr.ok]) ?_ ?_
  · intro l l' r r' hl hr hlok hrok
    rw [hl.output hlok, hr.output hrok]
    exact ⟨rfl, fun _ => rfl⟩
  · intro l l' r r' hl hr hrefused
    exact ⟨by rw [Report.ok_append, Report.ok_append, hl.ok, hr.ok], fun _ => rfl⟩

theorem foldl (h : SameOutcomes vd vd') (others : List Validator) :
    SameOutcomes (others.foldl .both vd) (others.foldl .both vd') :=
  List.rel_foldl (fun _ _ hvd _ _ hc => hvd.both hc) h (List.forall₂_same.mpr fun c _ => .refl c)

/-- **Layers of the second phase keep outcomes the same.** -/
theorem on (h : SameOutcomes vd vd') (layer : Layer) : SameOutcomes (layer.on vd) (layer.on vd') := by
  cases layer with
  | replaced w => exact .refl w
  | condition test message => exact h.refined test message
  | joined others => exact h.foldl others

theorem defaulted (h : SameOutcomes vd vd') (value : Value) : SameOutcomes (.defaulted vd value) (.defaulted vd' value) := by
  intro v path
  by_cases hv : v = .absent
  · subst hv
    exact .ok ⟨rfl, fun _ => rfl⟩
  · rw [check_defaulted hv, check_defaulted hv]
    exact h v path

theorem accepts_eq (h : SameOutcomes vd vd') (v : Value) : vd.accepts v = vd'.accepts v :=
  ((h v []).map fun _ _ hr => hr.ok).eq

/-- Both end in the same fault, or refuse, or accept with one output. -/
theorem validate (h : SameOutcomes vd vd') (v : Value) :
    Lockstep (fun o o' => o.toOption = o'.toOption) (vd.validate v) (vd'.validate v) := by
  refine (h v []).map fun r r' hr => ?_
  unfold Report.outcome
  rw [← hr.ok]
  cases haccepted : r.ok with
  | true =>
    rw [hr.output haccepted]
    rfl
  | false => rfl

end SameOutcomes

section

variable [Pattern.Engine] {schema schema' : Entries} {vd vd' : Validator}

/-- The refinements that do not compare with literals, before annotations. -/
abbrev unliteralConstraints : List Refinement :=
  [.allOf, .anyOf, .oneOf, .prefixItems, .contains, .patternProperties, .uniqueItems, .not]

/-- The second phase keeps outcomes the same, before annotations. -/
theorem follows_unliteral (h : SameOutcomes vd vd') :
    Follows (Refinement.runAll (fun _ => .ok ()) compile schema unliteralConstraints vd)
      (Refinement.runAll (fun _ => .ok ()) compile schema unliteralConstraints vd') SameOutcomes := by
  let related : Role → Validator → Validator → Prop := fun _ => Eq
  have hpairs : ∀ role : Role, ∀ s ∈ role.schemas schema, Follows (compile s) (compile s) (related role) := fun _ s _ => .self _
  refine follows_constraints hpairs _ (by simp [Refinement.constraints])
    (fun refinement _ layer layer' hpaired w w' hw => ?_) vd vd' h
  obtain rfl := hpaired.eq
  exact hw.on layer

/-- Annotations keep outcomes the same: a default is accepted by both validators or by neither. -/
theorem follows_annotated (h : SameOutcomes vd vd') :
    Follows (Refinement.runAll (fun _ => .ok ()) compile schema [.default, .description] vd)
      (Refinement.runAll (fun _ => .ok ()) compile schema [.default, .description] vd') SameOutcomes := by
  have hdefault : Follows (default? (m := Except CompileError) (fun _ => .ok ()) vd schema)
      (default? (m := Except CompileError) (fun _ => .ok ()) vd' schema) fun w w' => SameOutcomes (w.getD vd) (w'.getD vd') := by
    unfold default?
    split
    · exact .pure h
    next value _ =>
      rw [h.accepts_eq value]
      refine .bind (.self _) ?_
      rintro accepted _ rfl
      cases accepted with
      | true => exact .pure (h.defaulted value)
      | false => exact .bind (.self _) fun _ _ _ => .bind (.self _) fun _ _ _ => .pure h
  refine .bind hdefault fun w w' hw => .pure ?_
  unfold description?
  split
  · exact hw
  · exact hw

end

/-! ## Slots -/

/-- What a constant says of the kinds. -/
def constantSteps (x : Value) : List Step :=
  .disableAllExcept (admittedWith x.literalKind) :: (x.literalKind.map fun kind =>
    if isComposite kind then .markPending kind else .set kind (literalValidator kind [x])).toList

/-- The slots that a single literal leaves. -/
def literalSlots (x : Value) : Admissibility := Admissibility.initial.run (constantSteps x)

/-- The rules after those of literals. -/
abbrev unliteralRules : List KindRule := KindRule.all.drop 2

section

variable {schema : Entries} {x : Value}

theorem Value.literalKind_ne_file (w : Value) : w.literalKind ≠ some .file := by
  intro h
  unfold literalKind at h
  split at h
  next => cases h
  next hother => exact hother h

/-- **Only the kind of the literal is left enabled**, and that of tuples beside lists. -/
theorem isDisabled_literalSlots (x : Value) (kind : Kind) :
    (literalSlots x kind).isDisabled = !(admittedWith x.literalKind).contains kind := by
  have hothers : (x.literalKind.map fun kind => if isComposite kind then Step.markPending kind
      else .set kind (literalValidator kind [x])).toList.any (Step.disables kind) = false := by
    cases x.literalKind with
    | none => rfl
    | some k => cases k <;> rfl
  rw [literalSlots, constantSteps, Admissibility.isDisabled_run_eq, List.any_cons, hothers, Bool.or_false]
  rfl

/-- An enumeration of a single literal leaves the same slots as a constant. -/
theorem run_enumSteps (x : Value) :
    Admissibility.initial.run ([.string, .number, .boolean, .null].map (scalarEnumStep .initial [x]) ++
      [.array, .object].map (compositeEnumStep [x]) ++
      (if (membersOf .array [x]).isEmpty then [.disable .tuple] else []) ++ [.disable .file]) = literalSlots x := by
  have hmembers : ∀ kind, membersOf kind [x] = if x.literalKind == some kind then [x] else [] := fun kind => by
    simp [membersOf, List.filter_singleton]
  have htuple := x.literalKind_ne_tuple
  have hfile := x.literalKind_ne_file
  -- the slots are compared one by one, for each kind of the literal
  funext kind
  simp only [literalSlots, constantSteps, scalarEnumStep, compositeEnumStep, hmembers, List.map_cons, List.map_nil]
  cases hliteral : x.literalKind with
  | none => cases kind <;> rfl
  | some k => cases k <;> first | exact (htuple hliteral).elim | exact (hfile hliteral).elim | (cases kind <;> rfl)

theorem constSteps_eq (hconst : Entries.get? schema "const" = some x)
    (hwritable : x.literalKind = none → x.isWritable = true) :
    constSteps (m := Except CompileError) (fun _ => .ok ()) schema = .ok (constantSteps x) := by
  rw [constSteps, hconst, constantSteps]
  cases hliteral : x.literalKind with
  | none =>
    obtain ⟨text, htext⟩ : ∃ text, x.quoted? = .ok text := ⟨_, by rw [Value.quoted?, if_pos (hwritable hliteral)]⟩
    dsimp only
    rw [htext, hliteral]
    rfl
  | some kind =>
    dsimp only
    rw [hliteral]
    rfl

variable {convert : Value → Except CompileError Validator}

theorem runAll_cons [Pattern.Engine] {rule : KindRule} {rules : List KindRule} {slots : Admissibility} {steps : List Step}
    (h : rule.steps (fun _ => .ok ()) convert slots schema = .ok steps) :
    KindRule.runAll (fun _ => .ok ()) convert schema (rule :: rules) slots =
      KindRule.runAll (fun _ => .ok ()) convert schema rules (slots.run steps) := by
  rw [KindRule.runAll, h]
  rfl

/-- The first phase starts with a constant and an enumeration. -/
theorem runAll_literals [Pattern.Engine] {steps : List Step}
    (h : constSteps (m := Except CompileError) (fun _ => .ok ()) schema = .ok steps) :
    KindRule.runAll (fun _ => .ok ()) convert schema KindRule.all .initial =
      KindRule.runAll (fun _ => .ok ()) convert schema unliteralRules
        ((Admissibility.initial.run steps).run (enumSteps (Admissibility.initial.run steps) schema)) := by
  have hall : KindRule.all = .const :: .enumeration :: unliteralRules := rfl
  have hconst : KindRule.const.steps (fun _ => .ok ()) convert .initial schema = .ok steps := h
  have henum : ∀ slots, KindRule.enumeration.steps (m := Except CompileError) (fun _ => .ok ()) convert slots schema =
      .ok (enumSteps slots schema) := fun _ => rfl
  rw [hall, runAll_cons hconst, runAll_cons (henum _)]

/-- A constant starts the first phase with the slots of its literal. -/
theorem runAll_const [Pattern.Engine] (hconst : Entries.get? schema "const" = some x)
    (henum : Entries.get? schema "enum" = none) (hwritable : x.literalKind = none → x.isWritable = true) :
    KindRule.runAll (fun _ => .ok ()) convert schema KindRule.all .initial =
      KindRule.runAll (fun _ => .ok ()) convert schema unliteralRules (literalSlots x) := by
  rw [runAll_literals (constSteps_eq hconst hwritable), enumSteps, henum]
  rfl

/-- An enumeration of one literal starts it with the same slots. -/
theorem runAll_enum [Pattern.Engine] (hconst : Entries.get? schema "const" = none)
    (henum : Entries.get? schema "enum" = some (.list [x])) :
    KindRule.runAll (fun _ => .ok ()) convert schema KindRule.all .initial =
      KindRule.runAll (fun _ => .ok ()) convert schema unliteralRules (literalSlots x) := by
  have hsteps : constSteps (m := Except CompileError) (fun _ => .ok ()) schema = .ok [] := by
    rw [constSteps, hconst]
    rfl
  rw [runAll_literals hsteps, ← run_enumSteps, enumSteps, henum]
  rfl

/-! ## Comparisons -/

/-- A tag of a kind that stays beside a list or a mapping admits only such values. -/
theorem composite_of_admittedWith (hx : isCompositeValue x = true) {kind : Kind}
    (hkind : (admittedWith x.literalKind).contains kind = true) {v : Value} (htag : tagAdmits kind.name v.kind = true) :
    isCompositeValue v = true := by
  rw [isCompositeValue_iff]
  rcases isCompositeValue_iff.mp hx with h | h
  · rw [Value.literalKind, h] at hkind
    left
    cases kind with
    | array => exact kind_of_tagAdmits (by decide) htag
    | tuple =>
      cases hv : v.kind with
      | none => rw [hv] at htag; cases htag
      | some k => rw [hv] at htag; simpa [tagAdmits, Kind.name] using htag
    | _ => cases hkind
  · rw [Value.literalKind, h] at hkind
    right
    cases kind with
    | object => exact kind_of_tagAdmits (by decide) htag
    | _ => cases hkind

/-- **Beside a literal that is a list or a mapping** nothing else comes out of the first phase. -/
theorem yields_composites [Pattern.Engine] {slots : Admissibility}
    (hslots : KindRule.runAll (fun _ => .ok ()) compile schema KindRule.all .initial = .ok slots)
    (hliteral : KindRule.runAll (fun _ => .ok ()) compile schema unliteralRules (literalSlots x) = .ok slots)
    (hconstraints : hasConstraints schema = true) (hx : isCompositeValue x = true) (v : Value) (path : Pointer) :
    Answers False ((slots.assemble schema).check v path) fun r => r.ok = true → isCompositeValue r.output = true := by
  have hforeign : slots.Keep (RefusesOthers False) :=
    (slots_keep foreign_refused (.of_sub (fun _ _ => False.elim) fun _ _ _ _ => trivial) KindRule.all .initial).meets slots hslots
  have habsent : slots.Keep fun _ vd => RefusesAbsent False vd :=
    (slots_keep refusesAbsent_slotInvariant (.of_sub (fun _ _ => trivial) fun _ _ _ _ => trivial)
      KindRule.all .initial).meets slots hslots
  -- a slot that the literal has disabled stays disabled, whatever the later rules do
  have hkinds : ∀ o ∈ slots.validators, (admittedWith x.literalKind).contains o.1 = true := by
    intro o ho
    by_contra hother
    have hdisabled : (literalSlots x o.1).isDisabled = true := by
      rw [isDisabled_literalSlots]
      simpa using hother
    have hadmitted := mem_validators ho
    rw [Admissibility.admitted?, (KindRule.runAll_isDisabled hdisabled).meets slots hliteral] at hadmitted
    cases hadmitted
  refine .of_meets fun r hr haccepted => ?_
  -- the absent value is of no kind, so that its tag says nothing about it
  have hv : v ≠ .absent := by
    rintro rfl
    have hrefused := (refusesAbsent_assemble habsent hconstraints path).meets r hr
    rw [haccepted] at hrefused
    cases hrefused
  obtain ⟨o, ho, htag⟩ : ∃ o ∈ slots.validators, tagAdmits o.1.name v.kind = true := by
    by_contra hnone
    have hrefused := (refused_assemble hforeign hconstraints
      (fun o ho => Bool.eq_false_iff.mpr fun htag => hnone ⟨o, ho, htag⟩) path).meets r hr
    rw [haccepted] at hrefused
    cases hrefused
  have hcomposite := composite_of_admittedWith hx (hkinds o ho) htag
  rw [isCompositeValue_iff] at hcomposite ⊢
  rwa [(answers_kind _ hv path).meets r hr haccepted]

/-- Where only lists and mappings come so far, **the comparison with a constant is that with an enumeration of it**. -/
theorem sameOutcomes_compared {vd : Validator}
    (h : ∀ v path, Answers False (vd.check v path) fun r => r.ok = true → isCompositeValue r.output = true)
    (message message' : String) :
    SameOutcomes (.refined vd (.equals x) message) (.refined vd (.amongComposites [x]) message') := by
  intro v path
  have hself : Lockstep (fun r r' => r = r' ∧ (r.ok = true → isCompositeValue r.output = true)) (vd.check v path)
      (vd.check v path) := ((Lockstep.self _).and (h v path) (.trivial _)).mono fun r r' hr => ⟨hr.1, hr.2.1⟩
  have htest : ∀ w : Value, isCompositeValue w = true → (Test.equals x).holds w = (Test.amongComposites [x]).holds w := by
    intro w hw
    cases w with
    | list items => exact congrArg Except.ok (Bool.or_false _).symm
    | dict entries => exact congrArg Except.ok (Bool.or_false _).symm
    | _ => cases hw
  refine .bind hself ?_
  rintro r _ ⟨rfl, hcomposite⟩
  cases haccepted : r.ok with
  | false => exact .pure ⟨rfl, fun _ => rfl⟩
  | true =>
    show Lockstep SameResult ((Test.equals x).holds r.output >>= _) ((Test.amongComposites [x]).holds r.output >>= _)
    rw [htest _ (hcomposite haccepted)]
    refine .bind (.self _) ?_
    rintro holds _ rfl
    cases holds with
    | true => exact .pure ⟨rfl, fun _ => rfl⟩
    | false => exact .pure ⟨rfl, nofun⟩

end

/-! ## Literals -/

section

variable [Pattern.Engine] {schema : Entries} {x : Value}

/-- The second phase after the comparisons with literals. -/
def unliteralPhase (schema : Entries) (vd : Validator) : Except CompileError Validator :=
  Refinement.runAll (fun _ => .ok ()) compile schema unliteralConstraints vd >>=
    Refinement.runAll (fun _ => .ok ()) compile schema [.default, .description]

theorem follows_unliteralPhase (schema : Entries) {vd vd' : Validator} (h : SameOutcomes vd vd') :
    Follows (unliteralPhase schema vd) (unliteralPhase schema vd') SameOutcomes :=
  .bind (follows_unliteral h) fun _ _ hw => follows_annotated hw

/-- A validator whose outputs are compared with a constant, if that is a list or a mapping. -/
def comparedConst (x : Value) (vd : Validator) : Validator :=
  if isCompositeValue x then .refined vd (.equals x) "Value must equal the constant" else vd

/-- A validator whose outputs are compared with the only member of an enumeration. -/
def comparedEnum (x : Value) (vd : Validator) : Validator :=
  if isCompositeValue x then .refined vd (.amongComposites [x]) "Invalid enum value" else vd

/-- The second phase starts with the comparisons with literals. -/
theorem runAll_comparisons (hproto : requiresProto schema = false) (vd : Validator) :
    Refinement.runAll (fun _ => .ok ()) compile schema Refinement.all vd =
      unliteralPhase schema ((compositeConst? ((compositeEnumeration? vd schema).getD vd) schema).getD
        ((compositeEnumeration? vd schema).getD vd)) := by
  have hall : Refinement.all = [.protoRequired, .compositeEnumeration, .compositeConst] ++
      (unliteralConstraints ++ [.default, .description]) := rfl
  have hfirst : Refinement.runAll (m := Except CompileError) (fun _ => .ok ()) compile schema
      [.protoRequired, .compositeEnumeration, .compositeConst] vd = .ok ((compositeConst?
        ((compositeEnumeration? vd schema).getD vd) schema).getD ((compositeEnumeration? vd schema).getD vd)) := by
    simp only [Refinement.runAll, Refinement.apply?, protoRequired?_eq_none hproto, pure_bind, Option.getD_none]
    rfl
  rw [hall, Refinement.runAll_append, hfirst]
  exact Refinement.runAll_append _ _ _

/-- Beside literals the same keywords are read as without. -/
theorem unliteralPhase_adding {keyword : String} (hkeyword : keyword = "const" ∨ keyword = "enum") (value : Value)
    (vd : Validator) : unliteralPhase (schema.adding keyword value) vd = unliteralPhase schema vd := by
  have hreads : ∀ refinements : List Refinement, refinements ⊆ unliteralConstraints ++ [.default, .description] → ∀ vd,
      Refinement.runAll (fun _ => .ok ()) compile (schema.adding keyword value) refinements vd =
        Refinement.runAll (m := Except CompileError) (fun _ => .ok ()) compile schema refinements vd := by
    intro refinements hsubset vd
    have hother : ∀ refinement ∈ unliteralConstraints ++ [.default, .description], ∀ other ∈ Refinement.keywords refinement,
        other ≠ "const" ∧ other ≠ "enum" := by decide
    refine Refinement.runAll_readsAs keepsForm_id refinements vd fun refinement hmem other hread => .of_eq ?_
    have hne := hother refinement (hsubset hmem) other hread
    refine Entries.get?_adding ?_ schema value
    rcases hkeyword with rfl | rfl
    · exact hne.1
    · exact hne.2
  unfold unliteralPhase
  rw [hreads _ (List.subset_append_left _ _)]
  exact bind_congr fun w => hreads _ (List.subset_append_right _ _) w

omit [Pattern.Engine] in
theorem requiresProto_adding {keyword : String} (hkeyword : keyword = "const" ∨ keyword = "enum") (value : Value) :
    requiresProto (schema.adding keyword value) = requiresProto schema := by
  have hother : ∀ other ∈ ["type", "required"], other ≠ keyword := by
    rcases hkeyword with rfl | rfl
    · decide
    · decide
  rw [requiresProto, requiresProto, requiredNames, requiredNames, Entries.has, Entries.has,
    Entries.get?_adding (hother "type" (by decide)), Entries.get?_adding (hother "required" (by decide))]

theorem compile_const (hconst : Entries.get? schema "const" = none) (henum : Entries.get? schema "enum" = none)
    (hproto : requiresProto schema = false) : compile (.dict (schema.adding "const" x)) =
      baseValidator (schema.adding "const" x) >>= fun base => unliteralPhase schema (comparedConst x base) := by
  rw [compile_dict_base]
  refine bind_congr fun base => ?_
  rw [runAll_comparisons ((requiresProto_adding (.inl rfl) x).trans hproto), unliteralPhase_adding (.inl rfl),
    compositeEnumeration?, Entries.get?_adding (by decide), henum, compositeConst?, Entries.get?_adding_self hconst]
  unfold comparedConst
  cases hx : isCompositeValue x <;> simp [hx]

theorem compile_enum (hconst : Entries.get? schema "const" = none) (henum : Entries.get? schema "enum" = none)
    (hproto : requiresProto schema = false) : compile (.dict (schema.adding "enum" (.list [x]))) =
      baseValidator (schema.adding "enum" (.list [x])) >>= fun base => unliteralPhase schema (comparedEnum x base) := by
  rw [compile_dict_base]
  refine bind_congr fun base => ?_
  rw [runAll_comparisons ((requiresProto_adding (.inr rfl) _).trans hproto), unliteralPhase_adding (.inr rfl),
    compositeEnumeration?, Entries.get?_adding_self henum, compositeConst?, Entries.get?_adding (by decide), hconst]
  unfold comparedEnum
  cases hx : isCompositeValue x <;> simp [Value.items?, hx]

/-- **One literal leaves the same slots** as a constant and as an enumeration. -/
theorem runAll_const_eq_enum (hconst : Entries.get? schema "const" = none) (henum : Entries.get? schema "enum" = none)
    (hwritable : x.literalKind = none → x.isWritable = true) :
    KindRule.runAll (m := Except CompileError) (fun _ => .ok ()) compile (schema.adding "const" x) KindRule.all .initial =
      KindRule.runAll (fun _ => .ok ()) compile (schema.adding "enum" (.list [x])) KindRule.all .initial := by
  have hother : ∀ rule ∈ unliteralRules, ∀ keyword ∈ rule.keywords, keyword ≠ "const" ∧ keyword ≠ "enum" := by decide
  rw [runAll_const (Entries.get?_adding_self hconst x) (by rw [Entries.get?_adding (by decide), henum]) hwritable,
    runAll_enum (by rw [Entries.get?_adding (by decide), hconst]) (Entries.get?_adding_self henum _)]
  refine KindRule.runAll_readsAs keepsForm_id _ fun rule hrule keyword hkeyword => .of_eq ?_
  obtain ⟨hne, hne'⟩ := hother rule hrule keyword hkeyword
  rw [Entries.get?_adding hne, Entries.get?_adding hne']

/-- What comes out of the first phase is compared with the literal in either way, to the same effect. -/
theorem sameOutcomes_literal {slots : Admissibility} (hconst : Entries.get? schema "const" = none)
    (henum : Entries.get? schema "enum" = none) (hwritable : x.literalKind = none → x.isWritable = true)
    (hslots : KindRule.runAll (fun _ => .ok ()) compile (schema.adding "const" x) KindRule.all .initial = .ok slots) :
    SameOutcomes (comparedConst x (slots.assemble (schema.adding "const" x)))
      (comparedEnum x (slots.assemble (schema.adding "enum" (.list [x])))) := by
  have hconstraints : ∀ keyword, keyword = "const" ∨ keyword = "enum" → ∀ value,
      hasConstraints (schema.adding keyword value) = true := by
    intro keyword hkeyword value
    refine List.any_eq_true.mpr ⟨(.string keyword, value), by simp [Entries.adding], ?_⟩
    rcases hkeyword with rfl | rfl <;> rfl
  have hlabels := (hconstraints "enum" (.inr rfl) (.list [x])).trans (hconstraints "const" (.inl rfl) x).symm
  rw [assemble_congr hlabels]
  unfold comparedConst comparedEnum
  cases hx : isCompositeValue x with
  | false => exact .refl _
  | true =>
    have hliteral := hslots
    rw [runAll_const (Entries.get?_adding_self hconst x) (by rw [Entries.get?_adding (by decide), henum]) hwritable] at hliteral
    exact sameOutcomes_compared (yields_composites hslots hliteral (hconstraints "const" (.inl rfl) x) hx) _ _

/-- **A constant and an enumeration of it alone are interchangeable**, for any literal that can be written if it is of no
kind. The slots of the first phase are the same. Then either both schemas fail to compile, or every value, also the
absent one, is refused by both, or accepted by both with the same output, or ends in the same fault. -/
theorem const_enum_interchangeable (hconst : Entries.get? schema "const" = none) (henum : Entries.get? schema "enum" = none)
    (hproto : requiresProto schema = false) (hwritable : x.literalKind = none → x.isWritable = true) :
    KindRule.runAll (m := Except CompileError) (fun _ => .ok ()) compile (schema.adding "const" x) KindRule.all .initial =
        KindRule.runAll (fun _ => .ok ()) compile (schema.adding "enum" (.list [x])) KindRule.all .initial ∧
      ((∃ e e', compile (.dict (schema.adding "const" x)) = .error e ∧
          compile (.dict (schema.adding "enum" (.list [x]))) = .error e') ∨
        ∃ vd vd', compile (.dict (schema.adding "const" x)) = .ok vd ∧
          compile (.dict (schema.adding "enum" (.list [x]))) = .ok vd' ∧
            ∀ v, Lockstep (fun o o' => o.toOption = o'.toOption) (vd.validate v) (vd'.validate v)) := by
  have hsame := runAll_const_eq_enum hconst henum hwritable
  refine ⟨hsame, ?_⟩
  rw [compile_const hconst henum hproto, compile_enum hconst henum hproto, baseValidator, baseValidator, ← hsame]
  cases hslots : KindRule.runAll (m := Except CompileError) (fun _ => .ok ()) compile (schema.adding "const" x)
      KindRule.all .initial with
  | error e => exact .inl ⟨e, e, rfl, rfl⟩
  | ok slots =>
    have hcompared := sameOutcomes_literal hconst henum hwritable hslots
    -- whichever side is compiled, so is the other one
    have hfollows := follows_unliteralPhase schema hcompared
    have hfollows' := follows_unliteralPhase schema hcompared.symm
    show (∃ e e', unliteralPhase schema (comparedConst x _) = .error e ∧ unliteralPhase schema (comparedEnum x _) = .error e') ∨
      ∃ vd vd', unliteralPhase schema (comparedConst x _) = .ok vd ∧ unliteralPhase schema (comparedEnum x _) = .ok vd' ∧ _
    cases hvd : unliteralPhase schema (comparedConst x (slots.assemble (schema.adding "const" x))) with
    | ok vd =>
      obtain ⟨vd', hvd', hout⟩ := hfollows vd hvd
      exact .inr ⟨vd, vd', rfl, hvd', hout.validate⟩
    | error e =>
      cases hvd' : unliteralPhase schema (comparedEnum x (slots.assemble (schema.adding "enum" (.list [x])))) with
      | ok vd' =>
        obtain ⟨vd, hvd₂, _⟩ := hfollows' vd' hvd'
        rw [hvd] at hvd₂
        cases hvd₂
      | error e' => exact .inl ⟨e, e', rfl, rfl⟩

end

attribute [local instance] Pattern.engine

/-- A list beside positional items: lists and tuples are left, and a tuple's output is compared with the list. -/
theorem const_enum_interchangeable_tuple :
    let schema : Entries := [(.string "type", .string "array"),
      (.string "items", .list [.dict [(.string "type", .string "number")], .bool true])]
    let x := Value.list [.int 1, .null]
    Entries.get? schema "const" = none ∧ Entries.get? schema "enum" = none ∧ requiresProto schema = false ∧
      (x.literalKind = none → x.isWritable = true) ∧
        ∃ vd vd', compile (.dict (schema.adding "const" x)) = .ok vd ∧
          compile (.dict (schema.adding "enum" (.list [x]))) = .ok vd' ∧ vd.validate x = .ok (.ok x) ∧
            ∀ v, Lockstep (fun o o' => o.toOption = o'.toOption) (vd.validate v) (vd'.validate v) := by
  intro schema x
  have hconst : Entries.get? schema "const" = none := rfl
  have henum : Entries.get? schema "enum" = none := rfl
  have hproto : requiresProto schema = false := rfl
  have hwritable : x.literalKind = none → x.isWritable = true := nofun
  refine ⟨hconst, henum, hproto, hwritable, ?_⟩
  let tuple := Validator.tuple [.number, .any] none {}
  have hcompile : compile (.dict (schema.adding "const" x)) =
      .ok (.refined tuple (.equals x) "Value must equal the constant") := by with_unfolding_all rfl
  rcases (const_enum_interchangeable hconst henum hproto hwritable).2 with ⟨e, _, he, _⟩ | ⟨vd, vd', hvd, hvd', hsame⟩
  · rw [hcompile] at he
    cases he
  · obtain rfl := Except.ok.inj (hcompile.symm.trans hvd)
    exact ⟨_, vd', hvd, hvd', by with_unfolding_all rfl, hsame⟩

/-- A set with an integer: as the only member of an enumeration it leaves nothing that would be accepted. -/
theorem compile_enum_set (n : Int) : compile (.dict [(.string "enum", .list [.set [.int n]])]) = .ok .never := by
  with_unfolding_all rfl

/-- **A literal of no kind that cannot be written** is an enumeration that refuses everything, and no constant: the remark
that nothing can match it ends in a fault. -/
theorem const_enum_unwritable :
    let x := Value.set [.int (10 ^ Value.digitLimit)]
    x.literalKind = none ∧ compile (.dict (Entries.adding [] "const" x)) = .error (.fault .noValue) ∧
      compile (.dict (Entries.adding [] "enum" (.list [x]))) = .ok .never ∧
        ∀ v, Validator.never.validate v = .ok (.error [⟨[], .never⟩]) := by
  intro x
  have hunwritable : x.isWritable = false := by
    show Value.areWritable [.int (10 ^ Value.digitLimit)] = false
    rw [Value.areWritable, Value.isWritable, Value.isWritableInt_pow]
    rfl
  have hquoted : x.quoted? = .error .noValue := by
    rw [Value.quoted?, hunwritable]
    rfl
  have hconst : constSteps (m := Except CompileError) (fun _ => .ok ()) (Entries.adding [] "const" x) =
      .error (.fault .noValue) := by
    show (orError x.quoted? >>= fun _ => _) = _
    rw [hquoted]
    rfl
  refine ⟨rfl, ?_, compile_enum_set _, fun _ => rfl⟩
  have hall : KindRule.all = .const :: KindRule.all.drop 1 := rfl
  rw [compile_dict_base, baseValidator, hall, KindRule.runAll]
  show ((constSteps (m := Except CompileError) (fun _ => .ok ()) (Entries.adding [] "const" x) >>= fun _ => _) >>= fun _ => _)
    >>= _ = _
  rw [hconst]
  rfl

end Schemata
