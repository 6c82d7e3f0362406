import Schemata.Proofs.Schema.Readings

/-!
# `Schemata.Proofs.Schema.Admission` — which kinds are still admitted

While the rules of the first phase run, a kind is disabled by literals, by types, by the description of binary content
or by positional items, and by nothing else. So whether a kind is admitted when a rule is read depends on the rules
before it alone.

## Contents
- **Kinds.** `admitsKind`, what literals and types say of a kind.
- **Steps.** `Step.disables`, and `isDisabled_run`.
- **Rules.** `KindRule.bars`, and `steps_disable`: a rule disables the kinds that it bars.
-/

namespace Schemata

/-! ## Kinds -/

/-- Whether `type` admits a kind. -/
def typeAdmits (schema : Entries) (kind : Kind) : Bool :=
  !Entries.has schema "type" || (declaredTypes schema).contains kind.name

/-- Whether `const` admits a kind. -/
def constAdmits (schema : Entries) (kind : Kind) : Bool :=
  (Entries.get? schema "const").all fun value => value.literalKind == some kind

/-- Whether `enum` admits a kind: an empty enumeration beside a `type` says nothing. -/
def enumAdmits (schema : Entries) (kind : Kind) : Bool :=
  match (Entries.get? schema "enum").bind Value.items? with
  | none => true
  | some [] => Entries.has schema "type"
  | some values => values.any fun value => value.literalKind == some kind

/-- Whether literals and types admit a kind; texts are not admitted where binary content is described. -/
def admitsKind (schema : Entries) (kind : Kind) : Bool :=
  typeAdmits schema kind && constAdmits schema kind && enumAdmits schema kind && !(kind == .string && isBinary schema)

/-! ## Steps -/

/-- Whether a step disables a kind. -/
def Step.disables (kind : Kind) : Step → Bool
  | .disable k => k == kind
  | .disableAllExcept kinds => !kinds.contains kind
  | _ => false

namespace Admissibility

/-- What a step that disables nothing makes of the slots: it fills an enabled one anew, if any. -/
def Fills (slots slots' : Admissibility) : Prop :=
  slots' = slots ∨ ∃ k slot, slots' = slots.fill k slot ∧ (slots k).isDisabled = false ∧ slot.isDisabled = false

theorem Fills.isDisabled {slots slots' : Admissibility} (h : Fills slots slots') (kind : Kind) :
    (slots' kind).isDisabled = (slots kind).isDisabled := by
  rcases h with rfl | ⟨k, slot, rfl, henabled, hslot⟩
  · rfl
  · unfold fill
    split
    next heq => rw [heq, henabled, hslot]
    next => rfl

theorem fills_set (slots : Admissibility) (k : Kind) (vd : Validator) : Fills slots (slots.apply (.set k vd)) := by
  rw [apply]
  split
  next => exact .inl rfl
  next henabled => exact .inr ⟨k, _, rfl, Bool.not_eq_true _ ▸ henabled, rfl⟩

theorem fills_markPending (slots : Admissibility) (k : Kind) : Fills slots (slots.apply (.markPending k)) := by
  rw [apply]
  split
  next hslot => exact .inr ⟨k, _, rfl, by rw [hslot]; rfl, rfl⟩
  next => exact .inl rfl

theorem fills_update (slots : Admissibility) (k : Kind) (build : Validator → Validator) :
    Fills slots (slots.apply (.update k build)) := by
  rw [apply]
  split
  next => exact .inl rfl
  next henabled =>
    split
    next => exact .inr ⟨k, _, rfl, Bool.not_eq_true _ ▸ henabled, rfl⟩
    next => exact .inl rfl

theorem fills_settle (slots : Admissibility) (k : Kind) : Fills slots (slots.apply (.settle k)) := by
  have henabled : (slots k).isOpen = true → (slots k).isDisabled = false := by
    cases slots k with
    | disabled => nofun
    | _ => exact fun _ => rfl
  rw [apply]
  split
  next hopen =>
    split
    next => exact .inr ⟨k, _, rfl, henabled hopen, rfl⟩
    next => exact .inl rfl
  next => exact .inl rfl

/-- **Only some steps disable a kind**, and no step enables one. -/
theorem isDisabled_apply_eq (slots : Admissibility) (step : Step) (kind : Kind) :
    (slots.apply step kind).isDisabled = ((slots kind).isDisabled || step.disables kind) := by
  cases step with
  | set k vd => exact ((fills_set slots k vd).isDisabled kind).trans (Bool.or_false _).symm
  | markPending k => exact ((fills_markPending slots k).isDisabled kind).trans (Bool.or_false _).symm
  | update k build => exact ((fills_update slots k build).isDisabled kind).trans (Bool.or_false _).symm
  | settle k => exact ((fills_settle slots k).isDisabled kind).trans (Bool.or_false _).symm
  | disable k =>
    rw [apply, fill, Step.disables]
    by_cases heq : kind = k
    · rw [if_pos heq, beq_iff_eq.mpr heq.symm, Bool.or_true]
      rfl
    · rw [if_neg heq, beq_false_of_ne (Ne.symm heq), Bool.or_false]
  | disableAllExcept kinds =>
    show (if kinds.contains kind then slots kind else Slot.disabled).isDisabled = (_ || !kinds.contains kind)
    cases kinds.contains kind with
    | true => exact (Bool.or_false _).symm
    | false => exact (Bool.or_true _).symm

theorem isDisabled_run_eq (slots : Admissibility) (steps : List Step) (kind : Kind) :
    (slots.run steps kind).isDisabled = ((slots kind).isDisabled || steps.any (Step.disables kind)) := by
  induction steps generalizing slots with
  | nil => exact (Bool.or_false _).symm
  | cons step steps ih =>
    rw [List.any_cons, ← Bool.or_assoc, ← isDisabled_apply_eq]
    exact ih _

end Admissibility

/-! ## Rules -/

/-- Whether a rule disables a kind. -/
def KindRule.bars (schema : Entries) (kind : Kind) : KindRule → Bool
  | .const => !constAdmits schema kind
  | .enumeration => !enumAdmits schema kind
  | .type => !typeAdmits schema kind
  | .file => kind == .string && isBinary schema
  | .tuple => kind == .array && ((Entries.get? schema "items").any fun items => items.items?.isSome)
  | _ => false

/-- The kinds of scalars that are texts, and those of lists and mappings. -/
def Kind.isTracked : Kind → Bool
  | .string | .array | .object => true
  | _ => false

section

variable {slots : Admissibility} {schema : Entries} {kind : Kind} {convert : Value → Except CompileError Validator}

theorem disables_const (hkind : kind.isTracked = true) :
    Answers False (constSteps (m := Except CompileError) (fun _ => .ok ()) schema) fun steps =>
      steps.any (Step.disables kind) = !constAdmits schema kind := by
  have hdefault : (defaultValidator? kind).isSome = true := by cases kind <;> first | rfl | cases hkind
  unfold constSteps constAdmits
  cases Entries.get? schema "const" with
  | none => exact .pure rfl
  | some value =>
    dsimp only
    rw [Option.all_some, ← contains_admittedWith hdefault]
    cases hliteral : value.literalKind with
    | none => exact .bind (.trivial _) fun text _ => .bind (.trivial _) fun _ _ => .pure (Bool.or_false _)
    | some k =>
      refine .pure ?_
      rw [List.any_cons]
      cases isComposite k <;> exact Bool.or_false _

theorem disables_scalarEnumStep (values : List Value) (k : Kind) :
    (scalarEnumStep slots values k).disables kind = ((membersOf k values).isEmpty && k == kind) := by
  unfold scalarEnumStep
  cases membersOf k values with
  | nil => exact (Bool.true_and _).symm
  | cons member members => cases (slots k).validator? <;> rfl

theorem disables_compositeEnumStep (values : List Value) (k : Kind) :
    (compositeEnumStep values k).disables kind = ((membersOf k values).isEmpty && k == kind) := by
  unfold compositeEnumStep
  cases (membersOf k values).isEmpty <;> rfl

theorem disables_enum (hkind : kind.isTracked = true) :
    (enumSteps slots schema).any (Step.disables kind) = !enumAdmits schema kind := by
  unfold enumSteps enumAdmits
  match (Entries.get? schema "enum").bind Value.items? with
  | none => rfl
  | some [] =>
    cases Entries.has schema "type" <;> rfl
  | some (value :: values) =>
    dsimp only
    have hdisable : ∀ k, (Step.disable k).disables kind = (k == kind) := fun _ => rfl
    have hother : ∀ k, k ≠ kind → (k == kind) = false := fun _ hk => beq_false_of_ne hk
    have htuple : ∀ b : Bool, ((if b then [Step.disable .tuple] else []).any (Step.disables kind)) = (b && .tuple == kind) := by
      intro b
      cases b with
      | true => exact Bool.or_false _
      | false => rfl
    rw [List.any_append, List.any_append, List.any_append, htuple]
    simp only [List.map_cons, List.map_nil, List.any_cons, List.any_nil,
      disables_scalarEnumStep, disables_compositeEnumStep, hdisable, isEmpty_membersOf]
    cases kind with
    | string | array | object => simp [hother]
    | _ => cases hkind

/-- The kinds that a type name keeps: texts are kept with files, and lists with tuples. -/
theorem contains_typeKinds_tracked (hkind : kind.isTracked = true) (name : String) :
    (typeKinds name).contains kind = (name == kind.name) := by
  unfold typeKinds
  split
  case h_8 hstring _ _ _ _ harray hobject =>
    cases kind with
    | string => exact (beq_false_of_ne hstring).symm
    | array => exact (beq_false_of_ne harray).symm
    | object => exact (beq_false_of_ne hobject).symm
    | _ => cases hkind
  all_goals cases kind <;> first | rfl | cases hkind

theorem disables_type (hkind : kind.isTracked = true) :
    (typeSteps schema).any (Step.disables kind) = !typeAdmits schema kind := by
  have hkept : ∀ names : List String, (names.flatMap typeKinds).contains kind = names.contains kind.name := by
    intro names
    induction names with
    | nil => rfl
    | cons name names ih =>
      rw [List.flatMap_cons, List.contains_cons, ← ih, Bool.beq_comm, ← contains_typeKinds_tracked hkind, Bool.eq_iff_iff]
      simp
  unfold typeSteps typeAdmits
  cases Entries.has schema "type" with
  | false => rfl
  | true =>
    rw [if_pos rfl, List.any_cons, Step.disables, hkept]
    split <;> exact Bool.or_false _

theorem disables_tuple (hkind : kind.isTracked = true) :
    Answers False (tupleSteps (m := Except CompileError) (fun _ => .ok ()) convert slots schema) fun steps =>
      ((slots kind).isDisabled || steps.any (Step.disables kind)) =
        ((slots kind).isDisabled || KindRule.tuple.bars schema kind) := by
  refine answers_tupleSteps.mono fun steps hsteps => ?_
  unfold KindRule.bars
  cases hsteps with
  | single unlisted =>
    have hitems : ((Entries.get? schema "items").any fun items => items.items?.isSome) = false := by
      cases hget : Entries.get? schema "items" with
      | none => rfl
      | some value =>
        cases value with
        | list items => exact (unlisted items hget).elim
        | _ => rfl
    rw [hitems, Bool.and_false]
    rfl
  | refused listed disabled =>
    by_cases harray : kind = .array
    · rw [harray, disabled]
      rfl
    · rw [beq_false_of_ne harray]
      rfl
  | tuple listed =>
    rw [listed, Option.any_some, Value.items?, Option.isSome_some, Bool.and_true]
    cases kind <;> rfl
  | impossible listed =>
    rw [listed, Option.any_some, Value.items?, Option.isSome_some, Bool.and_true]
    cases kind <;> first | rfl | cases hkind

/-! ### Rules that disable nothing -/

/-- Steps of which none disables a kind. -/
abbrev Enabling (kind : Kind) (steps : List Step) : Prop := steps.any (Step.disables kind) = false

theorem Refines.enabling {k : Kind} {test? : Option Test} {steps : List Step} (h : Refines slots k test? steps) :
    Enabling kind steps := by
  cases test? with
  | none => rw [show steps = [] from h]; rfl
  | some test =>
    rcases h with ⟨_, rfl⟩ | ⟨message, _, rfl⟩
    · rfl
    · rfl

theorem enabling_condition [Pattern.Engine] {remark : Remark → Except CompileError Unit} {rule : KindRule} {k : Kind}
    {test? : Entries → Option Test} (h : rule.condition? = some (k, test?)) :
    Answers False (rule.steps remark convert slots schema) (Enabling kind) :=
  (steps_refine slots schema remark convert h).mono fun _ h => h.enabling

theorem enabling_impliedSteps (k : Kind) (keywords : List String) :
    Enabling kind (impliedSteps slots schema k keywords) := by
  unfold impliedSteps
  split
  · split <;> rfl
  · rfl

theorem enabling_impliedArraySteps : Enabling kind (impliedArraySteps slots schema) := by
  unfold impliedArraySteps
  split
  · rfl
  · exact enabling_impliedSteps _ _

theorem enabling_itemBoundSteps (keyword : String) (bounds : Value → Bounds) :
    Enabling kind (itemBoundSteps schema keyword bounds) := by
  unfold itemBoundSteps
  split <;> rfl

theorem enabling_memberBoundSteps (keyword : String) (bounds : Value → Bounds) :
    Enabling kind (memberBoundSteps schema keyword bounds) := by
  unfold memberBoundSteps
  split <;> rfl

theorem enabling_itemsSteps : Answers False (itemsSteps convert slots schema) (Enabling kind) := by
  refine answers_itemsSteps.mono fun steps hsteps => ?_
  cases hsteps <;> rfl

theorem enabling_propertiesSteps : Answers False (propertiesSteps convert slots schema) (Enabling kind) := by
  refine answers_propertiesSteps.mono fun steps hsteps => ?_
  cases hsteps <;> rfl

theorem disables_file (hkind : kind.isTracked = true) :
    (fileSteps schema).any (Step.disables kind) = (kind == .string && isBinary schema) := by
  unfold fileSteps
  cases isBinary schema with
  | false => exact (Bool.and_false _).symm
  | true => cases kind <;> rfl

/-- **A rule disables the kinds that it bars** and no others. -/
theorem steps_disable [Pattern.Engine] (hkind : kind.isTracked = true) (rule : KindRule) :
    Answers False (rule.steps (fun _ => .ok ()) convert slots schema) fun steps =>
      (slots.run steps kind).isDisabled = ((slots kind).isDisabled || rule.bars schema kind) := by
  simp only [Admissibility.isDisabled_run_eq]
  cases rule with
  | const => exact (disables_const hkind).mono fun steps hsteps => congrArg _ hsteps
  | enumeration => exact .pure (congrArg _ (disables_enum hkind))
  | type => exact .pure (congrArg _ (disables_type hkind))
  | file => exact .pure (congrArg _ (disables_file hkind))
  | tuple => exact disables_tuple hkind
  | impliedString | impliedObject => exact .pure (congrArg _ (enabling_impliedSteps _ _))
  | impliedArray => exact .pure (congrArg _ enabling_impliedArraySteps)
  | minItems | maxItems => exact .pure (congrArg _ (enabling_itemBoundSteps _ _))
  | maxProperties | minProperties => exact .pure (congrArg _ (enabling_memberBoundSteps _ _))
  | items => exact enabling_itemsSteps.mono fun steps hsteps => congrArg _ hsteps
  | properties => exact enabling_propertiesSteps.mono fun steps hsteps => congrArg _ hsteps
  | _ => exact (enabling_condition rfl).mono fun steps hsteps => congrArg _ hsteps

end

end Schemata
