import Schemata.Proofs.Schema.Unfolding

/-!
# `Schemata.Proofs.Schema.Remarks` — remarks change nothing

Compilation makes remarks in passing, and where they are kept it ends as it does where they are dropped: with the same
validator or with the same error. The remarks made before are kept in either case.

## Contents
- **Keeping remarks.** `EndsAs`, with a rule for every way of building a computation.
- **Phases.** The rules and refinements that make remarks or compile sub-schemas.
- **Compilation.** `compileLogged_eq`.
-/

namespace Schemata

/-! ## Keeping remarks -/

/-- Whatever remarks there are already, the computation that keeps remarks ends as the other one does. -/
def EndsAs {α : Type} (y : Remarking α) (x : Except CompileError α) : Prop :=
  ∀ remarks, (y.run.run remarks).1 = x

/-- Keeps a remark behind the others. -/
abbrev noteRemark (r : Remark) : Remarking Unit := modify fun remarks => remarks ++ [r]

namespace EndsAs

variable {α β : Type}

theorem pure (a : α) : EndsAs (Pure.pure a) (Pure.pure a) := fun _ => rfl

theorem throw (e : CompileError) : EndsAs (MonadExcept.throw e : Remarking α) (MonadExcept.throw e) := fun _ => rfl

/-- Making a remark is no step of a computation that drops them. -/
theorem remark (r : Remark) : EndsAs (noteRemark r) (.ok ()) := fun _ => rfl

/-- A step and what follows it; the remarks of the step are there already when the rest begins. -/
theorem bind {y : Remarking α} {x : Except CompileError α} {g : α → Remarking β} {f : α → Except CompileError β}
    (h : EndsAs y x) (hf : ∀ a, EndsAs (g a) (f a)) : EndsAs (y >>= g) (x >>= f) := by
  intro remarks
  have hfirst := h remarks
  dsimp only [Bind.bind, ExceptT.bind, ExceptT.mk, ExceptT.run, StateT.run, StateT.bind] at hfirst ⊢
  rcases hrun : y remarks with ⟨a | e, noted⟩
  · rw [hrun] at hfirst
    subst hfirst
    rfl
  · rw [hrun] at hfirst
    subst hfirst
    exact hf _ noted

theorem ite {c : Prop} [Decidable c] {y z : Remarking α} {x w : Except CompileError α} (h : EndsAs y x)
    (h' : EndsAs z w) : EndsAs (if c then y else z) (if c then x else w) := by
  split
  · exact h
  · exact h'

theorem orError (x : Except Fault α) : EndsAs (Schemata.orError x) (Schemata.orError x) := by
  cases x with
  | error f => exact throw (.fault f)
  | ok a => exact pure a

theorem mapM {as : List α} {g : α → Remarking β} {f : α → Except CompileError β} (h : ∀ a, EndsAs (g a) (f a)) :
    EndsAs (as.mapM g) (as.mapM f) := by
  induction as with
  | nil => exact pure _
  | cons a as ih =>
    rw [List.mapM_cons, List.mapM_cons]
    exact bind (h a) fun b => bind ih fun bs => pure _

end EndsAs

/-! ## Phases -/

section

variable {convert : Value → Except CompileError Validator} {noting : Value → Remarking Validator}
  (hconvert : ∀ s, EndsAs (noting s) (convert s)) (schema : Entries)

/-! ### Scalars -/

theorem constSteps_endsAs : EndsAs (constSteps noteRemark schema) (constSteps (fun _ => .ok ()) schema) := by
  unfold constSteps
  cases Entries.get? schema "const" with
  | none => exact .pure _
  | some value =>
    dsimp only
    cases value.literalKind with
    | none => exact .bind (.orError _) fun text => .bind (.remark _) fun _ => .pure _
    | some kind => exact .pure _

variable (slots : Admissibility)

theorem lengthSteps_endsAs (keyword : String) (relation : Relation) (words : String) :
    EndsAs (lengthSteps slots schema keyword relation words) (lengthSteps slots schema keyword relation words) := by
  unfold lengthSteps
  cases Entries.get? schema keyword with
  | none => exact .pure _
  | some limit => exact .ite (.pure _) (.bind (.orError _) fun text => .pure _)

theorem patternSteps_endsAs [Pattern.Engine] : EndsAs (patternSteps slots schema) (patternSteps slots schema) := by
  unfold patternSteps
  cases Entries.get? schema "pattern" with
  | none => exact .pure _
  | some value =>
    refine .ite (.pure _) ?_
    cases compilePattern value with
    | error e => exact .throw e
    | ok pattern => exact .pure _

theorem boundSteps_endsAs (limit : Value) (test : Test) (words : String) :
    EndsAs (boundSteps slots limit test words) (boundSteps slots limit test words) := by
  unfold boundSteps
  exact .ite (.pure _) (.bind (.orError _) fun text => .pure _)

theorem rangeSteps_endsAs (keyword exclusive : String) (inclusive strict : Relation)
    (inclusiveWords strictWords : String) :
    EndsAs (rangeSteps slots schema keyword exclusive inclusive strict inclusiveWords strictWords)
      (rangeSteps slots schema keyword exclusive inclusive strict inclusiveWords strictWords) := by
  unfold rangeSteps
  cases Entries.get? schema keyword with
  | none => exact .pure _
  | some limit => exact .ite (.pure _) (.ite (boundSteps_endsAs _ _ _ _) (boundSteps_endsAs _ _ _ _))

theorem exclusiveSteps_endsAs (keyword : String) (relation : Relation) (words : String) :
    EndsAs (exclusiveSteps slots schema keyword relation words) (exclusiveSteps slots schema keyword relation words) := by
  unfold exclusiveSteps
  cases Entries.get? schema keyword with
  | none => exact .pure _
  | some limit => exact .ite (boundSteps_endsAs _ _ _ _) (.pure _)

theorem multipleSteps_endsAs : EndsAs (multipleSteps slots schema) (multipleSteps slots schema) := by
  unfold multipleSteps
  cases Entries.get? schema "multipleOf" with
  | none => exact .pure _
  | some divisor => exact .ite (boundSteps_endsAs _ _ _ _) (.pure _)

/-! ### Structures -/

include hconvert

theorem restValidator_endsAs : EndsAs (restValidator noting schema) (restValidator convert schema) := by
  unfold restValidator
  split
  · exact .pure _
  · exact .bind (hconvert _) fun c => .pure _
  · exact .pure _

theorem tupleSteps_endsAs :
    EndsAs (tupleSteps noteRemark noting slots schema) (tupleSteps (fun _ => .ok ()) convert slots schema) := by
  unfold tupleSteps
  split
  · refine .ite (.pure _) (.bind (.mapM hconvert) fun positional => .bind (restValidator_endsAs hconvert schema) fun rest => ?_)
    refine .ite (.bind (.orError _) fun impossible => ?_) (.pure _)
    exact .ite (.bind (.orError _) fun _ => .bind (.orError _) fun _ => .bind (.remark _) fun _ => .pure _) (.pure _)
  · exact .pure _

theorem itemsSteps_endsAs : EndsAs (itemsSteps noting slots schema) (itemsSteps convert slots schema) := by
  unfold itemsSteps
  refine .ite (.pure _) ?_
  dsimp only
  split
  · exact .pure _
  · exact .pure _
  · exact .ite (.pure _) (.pure _)
  · exact .ite (.pure _) (.bind (hconvert _) fun c => .pure _)
  · exact .pure _

theorem propertiesSteps_endsAs : EndsAs (propertiesSteps noting slots schema) (propertiesSteps convert slots schema) := by
  have hfields : ∀ (required : List String) (properties : Entries),
      EndsAs (propertyFields noting required properties) (propertyFields convert required properties) := by
    intro required properties
    induction properties with
    | nil => exact .pure _
    | cons e es ih => exact .bind (hconvert e.2) fun c => .bind ih fun fields => .pure _
  have hpolicy : EndsAs (additionalPolicy noting schema) (additionalPolicy convert schema) := by
    unfold additionalPolicy
    refine .ite (.pure _) ?_
    split
    · exact .pure _
    · exact .bind (hconvert _) fun c => .pure _
    · exact .pure _
  unfold propertiesSteps
  exact .ite (.pure _) (.ite (.pure _) (.bind (hfields _ _) fun fields => .bind hpolicy fun additional => .pure _))

/-- **A rule ends alike**, with and without remarks. -/
theorem steps_endsAs [Pattern.Engine] (rule : KindRule) :
    EndsAs (rule.steps noteRemark noting slots schema) (rule.steps (fun _ => .ok ()) convert slots schema) := by
  cases rule with
  | const => exact constSteps_endsAs schema
  | minLength | maxLength => exact lengthSteps_endsAs schema slots _ _ _
  | pattern => exact patternSteps_endsAs schema slots
  | minimum | maximum => exact rangeSteps_endsAs schema slots _ _ _ _ _ _
  | exclusiveMinimum | exclusiveMaximum => exact exclusiveSteps_endsAs schema slots _ _ _
  | multipleOf => exact multipleSteps_endsAs schema slots
  | tuple => exact tupleSteps_endsAs hconvert schema slots
  | items => exact itemsSteps_endsAs hconvert schema slots
  | properties => exact propertiesSteps_endsAs hconvert schema slots
  | _ => exact .pure _

theorem KindRule.runAll_endsAs [Pattern.Engine] (rules : List KindRule) :
    EndsAs (KindRule.runAll noteRemark noting schema rules slots)
      (KindRule.runAll (fun _ => .ok ()) convert schema rules slots) := by
  induction rules generalizing slots with
  | nil => exact .pure _
  | cons rule rules ih => exact .bind (steps_endsAs hconvert schema slots rule) fun steps => ih _

/-! ### Refinements -/

omit slots

theorem branches_endsAs (keyword : String) : EndsAs (branches noting schema keyword) (branches convert schema keyword) := by
  unfold branches
  split
  · exact .mapM hconvert
  · exact .pure _

theorem leftOver_endsAs (keyword : String) : EndsAs (leftOver noting schema keyword) (leftOver convert schema keyword) := by
  unfold leftOver
  split
  · exact .pure _
  · exact .bind (hconvert _) fun c => .pure _
  · exact .pure _

theorem patternRules_endsAs [Pattern.Engine] (entries : Entries) :
    EndsAs (patternRules noteRemark noting entries) (patternRules (fun _ => .ok ()) convert entries) := by
  induction entries with
  | nil => exact .pure _
  | cons e es ih =>
    rw [patternRules, patternRules]
    split
    · exact .throw _
    · exact .bind (.remark _) fun _ => ih
    · exact .bind (hconvert _) fun c => .bind ih fun rules => .pure _

omit hconvert in
theorem default_endsAs (vd : Validator) : EndsAs (default? noteRemark vd schema) (default? (fun _ => .ok ()) vd schema) := by
  unfold default?
  split
  · exact .pure _
  · refine .bind (.orError _) fun accepted => .ite (.pure _) ?_
    exact .bind (.orError _) fun text => .bind (.remark _) fun _ => .pure _

/-- **A refinement ends alike**, with and without remarks. -/
theorem apply?_endsAs [Pattern.Engine] (refinement : Refinement) (vd : Validator) :
    EndsAs ( Refinement.apply? noteRemark noting refinement vd schema)
      ( Refinement.apply? (fun _ => .ok ()) convert refinement vd schema) := by
  cases refinement with
  | allOf => exact .bind (branches_endsAs hconvert schema _) fun all => .pure _
  | anyOf | oneOf => exact .bind (branches_endsAs hconvert schema _) fun options => .pure _
  | prefixItems =>
    show EndsAs (prefixItems? noting vd schema) (prefixItems? convert vd schema)
    unfold prefixItems?
    split
    · exact .pure _
    · exact .bind (.mapM hconvert) fun positional => .bind (leftOver_endsAs hconvert schema _) fun extra => .pure _
  | contains =>
    show EndsAs (contains? noting vd schema) (contains? convert vd schema)
    unfold contains?
    split
    · exact .pure _
    · exact .bind (hconvert _) fun counted => .pure _
  | patternProperties =>
    show EndsAs (patternProperties? noteRemark noting vd schema) (patternProperties? (fun _ => .ok ()) convert vd schema)
    unfold patternProperties?
    split
    · exact .pure _
    · exact .bind (patternRules_endsAs hconvert _) fun rules =>
        .bind (leftOver_endsAs hconvert schema _) fun others => .pure _
  | not =>
    show EndsAs (not? noting vd schema) (not? convert vd schema)
    unfold not?
    split
    · exact .pure _
    · exact .bind (hconvert _) fun negated => .pure _
  | default => exact default_endsAs schema vd
  | _ => exact .pure _

theorem Refinement.runAll_endsAs [Pattern.Engine] (refinements : List Refinement) (vd : Validator) :
    EndsAs (Refinement.runAll noteRemark noting schema refinements vd)
      (Refinement.runAll (fun _ => .ok ()) convert schema refinements vd) := by
  induction refinements generalizing vd with
  | nil => exact .pure _
  | cons refinement rest ih => exact .bind (apply?_endsAs hconvert schema refinement vd) fun refined => ih _

theorem compileNode_endsAs [Pattern.Engine] :
    EndsAs (compileNode noteRemark noting schema) (compileNode (fun _ => .ok ()) convert schema) :=
  .bind (KindRule.runAll_endsAs hconvert schema .initial KindRule.all) fun _ =>
    Refinement.runAll_endsAs hconvert schema Refinement.all _

end

/-! ## Compilation -/

theorem compileWithin_endsAs [Pattern.Engine] (depth : Nat) (schema : Value) :
    EndsAs (compileWithin noteRemark depth schema) (compileWithin (fun _ => .ok ()) depth schema) := by
  induction depth generalizing schema with
  | zero => cases schema <;> exact .pure _
  | succ depth ih =>
    cases schema with
    | bool b => exact .pure _
    | dict entries => exact compileNode_endsAs ih entries
    | _ => exact .throw _

/-- **Keeping remarks changes nothing** about how compilation ends. -/
theorem compileLogged_eq [Pattern.Engine] (schema : Value) : (compileLogged schema).1 = compile schema :=
  compileWithin_endsAs (schema.depth + 1) schema []

end Schemata
