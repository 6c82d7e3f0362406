import Schemata.Proofs.Schema.Kinds
import Schemata.Proofs.Schema.Satisfaction
import Schemata.Proofs.Schema.Structures

/-!
# `Schemata.Proofs.Schema.Readings` — what the steps of a rule look like

Every rule of the first phase reads its keywords once. What its steps can be is said here, one statement for each
way of reading, so that what a rule does to a slot follows from the steps alone.

## Contents
- **Kinds.** `KindRule.kinds` and `steps_other`: the slots that a rule leaves alone.
- **Runs.** `KindRule.runAll_and`, from single rules to all of some, and `KindRule.runAll_around`.
- **Literals and types.** The steps of `const`, `enum` and `type`.
-/

namespace Schemata

/-! ## Kinds -/

/-- The kinds whose slots a rule may change. -/
def KindRule.kinds : KindRule → List Kind
  | .const | .enumeration | .type => Kind.all
  | .file => [.file, .string]
  | .impliedString | .minLength | .maxLength | .pattern => [.string]
  | .minimum | .maximum | .exclusiveMinimum | .exclusiveMaximum | .multipleOf => [.number]
  | .tuple => [.tuple, .array]
  | .impliedArray | .minItems | .maxItems | .items => [.array]
  | .impliedObject | .properties | .maxProperties | .minProperties => [.object]

/-- Steps that change the slots of some kinds only. -/
def TouchOnly (kinds : List Kind) (steps : List Step) : Prop :=
  ∀ step ∈ steps, ∀ kind, kind ∉ kinds → step.touches kind = false

theorem TouchOnly.nil {kinds : List Kind} : TouchOnly kinds [] := List.forall_mem_nil _

theorem Kind.beq_of_ne {k kind : Kind} (h : k ≠ kind) : (kind == k) = false := beq_false_of_ne h.symm

theorem TouchOnly.one {kind : Kind} {step : Step} (h : ∀ k, k ≠ kind → step.touches k = false) :
    TouchOnly [kind] [step] :=
  List.forall_mem_singleton.mpr fun k hk => h k fun heq => hk (heq ▸ List.mem_cons_self)

theorem TouchOnly.two {kind other : Kind} {first second : Step} (hfirst : ∀ k, k ≠ kind → first.touches k = false)
    (hsecond : ∀ k, k ≠ other → second.touches k = false) : TouchOnly [kind, other] [first, second] := by
  refine List.forall_mem_cons.mpr ⟨fun k hk => ?_, List.forall_mem_singleton.mpr fun k hk => ?_⟩
  · exact hfirst k fun h => hk (h ▸ List.mem_cons_self)
  · exact hsecond k fun h => hk (h ▸ List.mem_cons_of_mem _ List.mem_cons_self)

theorem TouchOnly.update {kind : Kind} {build : Validator → Validator} : TouchOnly [kind] [.update kind build] :=
  .one fun _ hk => Kind.beq_of_ne hk

theorem TouchOnly.settle {kind : Kind} : TouchOnly [kind] [.settle kind] := .one fun _ hk => Kind.beq_of_ne hk

theorem Refines.touchOnly {slots : Admissibility} {kind : Kind} {test? : Option Test} {steps : List Step}
    (h : Refines slots kind test? steps) : TouchOnly [kind] steps := by
  cases test? with
  | none => rw [show steps = [] from h]; exact .nil
  | some test =>
    rcases h with ⟨_, rfl⟩ | ⟨message, _, rfl⟩
    · exact .nil
    · exact .update

section

variable {slots : Admissibility} {schema : Entries} {remark : Remark → Except CompileError Unit}
  {convert : Value → Except CompileError Validator}

theorem touchOnly_impliedSteps (kind : Kind) (keywords : List String) :
    TouchOnly [kind] (impliedSteps slots schema kind keywords) := by
  unfold impliedSteps
  split
  · split
    · exact .one fun _ hk => Kind.beq_of_ne hk
    · exact .nil
  · exact .nil

theorem touchOnly_fileSteps : TouchOnly [.file, .string] (fileSteps schema) := by
  unfold fileSteps
  split
  · exact .two (fun _ hk => Kind.beq_of_ne hk) fun _ hk => Kind.beq_of_ne hk
  · exact .nil

theorem touchOnly_tupleSteps : Answers False (tupleSteps remark convert slots schema) (TouchOnly [.tuple, .array]) := by
  refine answers_tupleSteps.mono fun steps hsteps => ?_
  cases hsteps with
  | single | refused => exact .nil
  | tuple | impossible => exact .two (fun _ hk => Kind.beq_of_ne hk) fun _ hk => Kind.beq_of_ne hk

theorem touchOnly_itemsSteps : Answers False (itemsSteps convert slots schema) (TouchOnly [.array]) := by
  refine answers_itemsSteps.mono fun steps hsteps => ?_
  cases hsteps with
  | refused | nothing => exact .nil
  | settled => exact .settle
  | none | element => exact .update

theorem touchOnly_propertiesSteps : Answers False (propertiesSteps convert slots schema) (TouchOnly [.object]) := by
  refine answers_propertiesSteps.mono fun steps hsteps => ?_
  cases hsteps with
  | refused | nothing => exact .nil
  | built => exact .update

theorem touchOnly_all (steps : List Step) : TouchOnly Kind.all steps :=
  fun _ _ kind hkind => absurd (Kind.mem_all kind) hkind

/-- The steps of a rule change the slots of its kinds only. -/
theorem steps_touchOnly [Pattern.Engine] (rule : KindRule) :
    Answers False (rule.steps remark convert slots schema) (TouchOnly rule.kinds) := by
  cases rule with
  | const => exact .of_meets fun _ _ => touchOnly_all _
  | enumeration => exact .pure (touchOnly_all _)
  | type => exact .pure (touchOnly_all _)
  | file => exact .pure touchOnly_fileSteps
  | impliedString => exact .pure (touchOnly_impliedSteps _ _)
  | impliedArray =>
    refine .pure ?_
    unfold impliedArraySteps
    split
    · exact .nil
    · exact touchOnly_impliedSteps _ _
  | impliedObject => exact .pure (touchOnly_impliedSteps _ _)
  | minLength | maxLength | pattern | minimum | maximum | exclusiveMinimum | exclusiveMaximum | multipleOf =>
    exact (steps_refine slots schema remark convert rfl).mono fun _ h => h.touchOnly
  | tuple => exact touchOnly_tupleSteps
  | items => exact touchOnly_itemsSteps
  | properties => exact touchOnly_propertiesSteps
  | minItems | maxItems =>
    refine .pure ?_
    unfold itemBoundSteps
    split
    · exact .update
    · exact .nil
  | maxProperties | minProperties =>
    refine .pure ?_
    unfold memberBoundSteps
    split
    · exact .update
    · exact .nil

/-- **A rule leaves the slots of other kinds alone.** -/
theorem steps_other [Pattern.Engine] (rule : KindRule) {kind : Kind} (h : kind ∉ rule.kinds) :
    Answers False (rule.steps remark convert slots schema) fun steps => slots.run steps kind = slots kind :=
  (steps_touchOnly rule).mono fun _ hsteps => Admissibility.run_other fun step hstep => hsteps step hstep kind h

end

/-! ## Runs -/

namespace KindRule

variable {remark : Remark → Except CompileError Unit} {convert : Value → Except CompileError Validator}
  {schema : Entries}

/-- **A run of rules**, each of which adds its clause to what is known of the slots. -/
theorem runAll_and [Pattern.Engine] (known : Admissibility → Bool → Prop) (clause : KindRule → Bool)
    {rules : List KindRule}
    (step : ∀ rule ∈ rules, ∀ slots b, known slots b →
      Answers False (rule.steps remark convert slots schema) fun steps => known (slots.run steps) (b && clause rule))
    {slots : Admissibility} {b : Bool} (h : known slots b) :
    Answers False (runAll remark convert schema rules slots) fun slots => known slots (b && rules.all clause) := by
  induction rules generalizing slots b with
  | nil =>
    rw [List.all_nil, Bool.and_true]
    exact .pure h
  | cons rule rules ih =>
    obtain ⟨hrule, hrest⟩ := List.forall_mem_cons.mp step
    rw [runAll]
    refine .bind (hrule slots b h) fun steps hsteps => ?_
    rw [List.all_cons, ← Bool.and_assoc]
    exact ih hrest hsteps

/-- Rules leave the slot of a kind alone that none of them is about. -/
theorem runAll_other [Pattern.Engine] {rules : List KindRule} {kind : Kind} (h : ∀ rule ∈ rules, kind ∉ rule.kinds)
    (slots : Admissibility) :
    Answers False (runAll remark convert schema rules slots) fun slots' => slots' kind = slots kind := by
  induction rules generalizing slots with
  | nil => exact .pure rfl
  | cons rule rules ih =>
    obtain ⟨hrule, hrules⟩ := List.forall_mem_cons.mp h
    rw [runAll]
    refine .bind (steps_other rule hrule) fun steps hsteps => ?_
    exact (ih hrules _).mono fun slots' hslots => hslots.trans hsteps

theorem runAll_isDisabled [Pattern.Engine] {rules : List KindRule} {kind : Kind} {slots : Admissibility}
    (h : (slots kind).isDisabled = true) :
    Answers False (runAll remark convert schema rules slots) fun slots' => (slots' kind).isDisabled = true := by
  induction rules generalizing slots with
  | nil => exact .pure h
  | cons rule rules ih =>
    rw [runAll]
    exact .bind (.trivial _) fun steps _ => ih (Admissibility.isDisabled_run h steps)

theorem runAll_append [Pattern.Engine] (rules others : List KindRule) (slots : Admissibility) :
    runAll remark convert schema (rules ++ others) slots =
      runAll remark convert schema rules slots >>= runAll remark convert schema others := by
  induction rules generalizing slots with
  | nil => rfl
  | cons rule rules ih =>
    rw [List.cons_append, runAll, runAll, bind_assoc]
    exact bind_congr fun steps => ih _

/-- **A run in which one rule takes something from outside.** The rules before it and behind it do the same whatever that is. -/
theorem runAll_around [Pattern.Engine] {α : Type} {earlier later : List KindRule} {rule : KindRule}
    {slots slots' : Admissibility} {x : Except CompileError α} {steps : α → List Step}
    (hearlier : runAll remark convert schema earlier slots = .ok slots')
    (hrule : rule.steps remark convert slots' schema = x >>= fun a => .ok (steps a))
    (hlater : ∀ a, runAll remark convert schema later (slots'.run (steps a)) = .ok (slots'.run (steps a))) :
    runAll remark convert schema (earlier ++ rule :: later) slots = x >>= fun a => .ok (slots'.run (steps a)) := by
  rw [runAll_append, hearlier]
  show runAll remark convert schema (rule :: later) slots' = _
  rw [runAll, hrule, bind_assoc]
  exact bind_congr hlater

end KindRule

/-! ## Literals and types -/

section

variable {slots : Admissibility} {schema : Entries} {kind : Kind}

/-- Keywords that imply a kind leave what is said through its validator as it is. -/
theorem admitted?_implied (hdefault : (defaultValidator? kind).isSome = true) (implied : Kind)
    (keywords : List String) :
    (slots.run (impliedSteps slots schema implied keywords)).admitted? kind = slots.admitted? kind := by
  rw [Admissibility.admitted?_run hdefault]
  unfold impliedSteps
  split
  next hopen =>
    split
    next vd hvd =>
      rw [List.foldl_cons, List.foldl_nil, Step.act]
      split
      next heq =>
        subst heq
        have hslot : (slots implied).isOpen = true := (Bool.and_eq_true_iff.mp hopen).2
        unfold Admissibility.admitted? Admissibility.current?
        cases hcase : slots implied with
        | unset => simp [Slot.isDisabled, Slot.validator?, hvd]
        | pending => simp [Slot.isDisabled, Slot.validator?, hvd]
        | disabled => rw [hcase] at hslot; cases hslot
        | holds w => rw [hcase] at hslot; cases hslot
      next => rfl
    next => rfl
  next => rfl

theorem admitted?_impliedArray (hdefault : (defaultValidator? kind).isSome = true) :
    (slots.run (impliedArraySteps slots schema)).admitted? kind = slots.admitted? kind := by
  unfold impliedArraySteps
  split
  · rfl
  · exact admitted?_implied hdefault _ _

theorem contains_admittedWith (hdefault : (defaultValidator? kind).isSome = true) (literalKind : Option Kind) :
    (admittedWith literalKind).contains kind = (literalKind == some kind) := by
  cases literalKind with
  | none => rfl
  | some k => cases k <;> cases kind <;> first | rfl | cases hdefault

/-- What `const` leaves of a kind about which nothing has been said. -/
theorem admitted?_const (hdefault : (defaultValidator? kind).isSome = true) :
    Answers False (constSteps (m := Except CompileError) (fun _ => .ok ()) schema) fun steps =>
      (Admissibility.initial.run steps).admitted? kind =
        match Entries.get? schema "const" with
        | none => defaultValidator? kind
        | some value =>
          if value.literalKind == some kind then
            if isComposite kind then defaultValidator? kind else some (literalValidator kind [value])
          else none := by
  obtain ⟨default, hd⟩ := Option.isSome_iff_exists.mp hdefault
  unfold constSteps
  cases Entries.get? schema "const" with
  | none => exact .pure rfl
  | some value =>
    dsimp only
    have hkept : ∀ vd?, (Step.disableAllExcept (admittedWith value.literalKind)).act kind vd?
        = if value.literalKind == some kind then vd? else none := by
      intro vd?
      rw [Step.act, contains_admittedWith hdefault]
    cases hliteral : value.literalKind with
    | none =>
      refine .bind (.trivial _) fun text _ => .bind (.trivial _) fun _ _ => .pure ?_
      rw [Admissibility.admitted?_run hdefault, ← hliteral, List.foldl_cons, hkept, hliteral]
      rfl
    | some k =>
      -- a second step fills the slot of the literal's kind, or marks it as pending
      refine .pure ?_
      rw [Admissibility.admitted?_run hdefault, ← hliteral, List.foldl_cons, hkept, hliteral]
      by_cases hk : k = kind
      · subst hk
        have hinitial : Admissibility.initial.admitted? k = some default := hd
        cases hcomposite : isComposite k <;> simp [Step.act, hinitial, hd]
      · have hne : (some k == some kind) = false := by simpa using hk
        rw [hne]
        cases isComposite k <;> simp [Step.act]

theorem isEmpty_membersOf (values : List Value) :
    (membersOf kind values).isEmpty = !values.any fun value => value.literalKind == some kind := by
  unfold membersOf
  induction values with
  | nil => rfl
  | cons value values ih =>
    rw [List.filter_cons, List.any_cons]
    cases value.literalKind == some kind with
    | true => simp
    | false => simpa using ih

theorem touches_scalarEnumStep {values : List Value} {k : Kind} (h : k ≠ kind) :
    (scalarEnumStep slots values k).touches kind = false := by
  unfold scalarEnumStep
  split
  · exact beq_false_of_ne h
  · dsimp only
    split <;> exact beq_false_of_ne h

theorem touches_compositeEnumStep {values : List Value} {k : Kind} (h : k ≠ kind) :
    (compositeEnumStep values k).touches kind = false := by
  unfold compositeEnumStep
  split <;> exact beq_false_of_ne h

theorem act_scalarEnumStep {values : List Value} {k : Kind} (h : k ≠ kind) (vd? : Option Validator) :
    (scalarEnumStep slots values k).act kind vd? = vd? := by
  unfold scalarEnumStep
  split
  · exact if_neg h
  · dsimp only
    split <;> exact if_neg h

theorem act_compositeEnumStep {values : List Value} {k : Kind} (vd? : Option Validator) :
    (compositeEnumStep values k).act kind vd? =
      if k = kind ∧ (membersOf k values).isEmpty = true then none else vd? := by
  unfold compositeEnumStep
  by_cases hempty : (membersOf k values).isEmpty = true
  · rw [if_pos hempty]
    simp [Step.act, hempty]
  · rw [if_neg hempty]
    simp [Step.act, hempty]

/-- Without a list, `enum` says nothing. -/
theorem enumSteps_none (h : (Entries.get? schema "enum").bind Value.items? = none) : enumSteps slots schema = [] := by
  rw [enumSteps, h]

/-- An empty list leaves no kind, unless there is a `type` beside it. -/
theorem enumSteps_empty (h : (Entries.get? schema "enum").bind Value.items? = some []) :
    enumSteps slots schema = if Entries.has schema "type" then [] else [.disableAllExcept []] := by
  rw [enumSteps, h]

/-- What `enum` with members makes of a kind. -/
theorem admitted?_enum (hdefault : (defaultValidator? kind).isSome = true) {value : Value} {values : List Value}
    (hget : (Entries.get? schema "enum").bind Value.items? = some (value :: values)) :
    (slots.run (enumSteps slots schema)).admitted? kind =
      if isComposite kind then
        if (membersOf kind (value :: values)).isEmpty then none else slots.admitted? kind
      else (scalarEnumStep slots (value :: values) kind).act kind (slots.admitted? kind) := by
  have htuple : ∀ vd?, (if (membersOf .array (value :: values)).isEmpty then [Step.disable .tuple] else []).foldl
      (fun vd? step => step.act kind vd?) vd? = vd? := by
    intro vd?
    have hne : Kind.tuple ≠ kind := by rintro rfl; cases hdefault
    split
    · exact if_neg hne
    · rfl
  have hfile : ∀ vd?, (Step.disable .file).act kind vd? = vd? := by
    intro vd?
    have hne : Kind.file ≠ kind := by rintro rfl; cases hdefault
    exact if_neg hne
  rw [Admissibility.admitted?_run hdefault]
  unfold enumSteps
  rw [hget]
  simp only [List.foldl_append, List.map_cons, List.map_nil, List.foldl_cons, List.foldl_nil, htuple, hfile,
    act_compositeEnumStep]
  cases kind with
  | tuple => cases hdefault
  | file => cases hdefault
  | _ => simp [act_scalarEnumStep, isComposite]

/-- The kinds that a type name keeps are those of values that fit it. -/
theorem contains_typeKinds {v : Value} (hdefault : (defaultValidator? kind).isSome = true) (hkind : v.kind = some kind)
    (hnumber : kind ≠ .number) (name : String) : (typeKinds name).contains kind = typeFits v name := by
  have hfits : typeFits v name = (kind.name == name) := by
    unfold typeFits
    rw [hkind]
    by_cases hinteger : name = "integer"
    · subst hinteger
      cases kind with
      | number => exact (hnumber rfl).elim
      | _ => rfl
    · rw [if_neg hinteger]
      rfl
  rw [hfits]
  unfold typeKinds
  -- the last case is that of names which are no type, and so not the name of the kind either
  split
  case h_8 hstring hnum hinteger hboolean hnull harray hobject =>
    cases kind with
    | string => exact (beq_false_of_ne (Ne.symm hstring)).symm
    | number => exact (hnumber rfl).elim
    | boolean => exact (beq_false_of_ne (Ne.symm hboolean)).symm
    | null => exact (beq_false_of_ne (Ne.symm hnull)).symm
    | array => exact (beq_false_of_ne (Ne.symm harray)).symm
    | object => exact (beq_false_of_ne (Ne.symm hobject)).symm
    | tuple => cases hdefault
    | file => cases hdefault
  all_goals
    cases kind with
    | number => exact (hnumber rfl).elim
    | tuple => cases hdefault
    | file => cases hdefault
    | _ => rfl

theorem contains_flatMap_typeKinds {v : Value} (hdefault : (defaultValidator? kind).isSome = true)
    (hkind : v.kind = some kind) (hnumber : kind ≠ .number) (names : List String) :
    (names.flatMap typeKinds).contains kind = names.any (typeFits v) := by
  induction names with
  | nil => rfl
  | cons name names ih =>
    rw [List.flatMap_cons, List.any_cons, ← ih, ← contains_typeKinds hdefault hkind hnumber name, Bool.eq_iff_iff]
    simp

/-- What `type` makes of a kind of values that are no numbers. -/
theorem admitted?_type {v : Value} (hdefault : (defaultValidator? kind).isSome = true) (hkind : v.kind = some kind)
    (hnumber : kind ≠ .number) :
    (slots.run (typeSteps schema)).admitted? kind =
      if !Entries.has schema "type" || (declaredTypes schema).any (typeFits v) then slots.admitted? kind else none := by
  rw [Admissibility.admitted?_run hdefault]
  unfold typeSteps
  by_cases htype : Entries.has schema "type" = true
  -- what `integer` adds is about numbers
  · have hwhole : ∀ (vd? : Option Validator) (steps : List Step),
        (∀ step ∈ steps, ∃ build, step = Step.update .number build) →
        steps.foldl (fun vd? step => step.act kind vd?) vd? = vd? := by
      intro vd? steps hsteps
      induction steps with
      | nil => rfl
      | cons step steps ih =>
        obtain ⟨⟨build, rfl⟩, hrest⟩ := List.forall_mem_cons.mp hsteps
        rw [List.foldl_cons, Step.act, if_neg (Ne.symm hnumber)]
        exact ih hrest
    rw [if_pos htype, List.foldl_cons, hwhole]
    · rw [Step.act, contains_flatMap_typeKinds hdefault hkind hnumber]
      simp [htype]
    · intro step hstep
      split at hstep
      · exact ⟨_, List.mem_singleton.mp hstep⟩
      · cases hstep
  · simp [htype]

end

end Schemata
