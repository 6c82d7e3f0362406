import Schemata.Proofs.Schema.Arrays
import Schemata.Proofs.Schema.Layers

/-!
# `Schemata.Proofs.Schema.Pairs` — the first phase, kind by kind

The first phase uses sub-schemas in three slots: those of arrays, of tuples and of objects. For two ways of compiling
sub-schemas it fills all other slots alike, and these three with validators that differ in their parts only. So if one
way follows the other on every sub-schema, the first phases follow each other as well.

## Contents
- **Pairs.** `PairedKind`, validators of a kind that differ in the validators of sub-schemas only, and `PairedSlots`.
- **Arrays.** `follows_arrays`, for arrays and tuples.
- **Objects.** `follows_objects`.
- **First phase.** `follows_firstPhase`, and what pairs of validators are joined into.
-/

namespace Schemata

open Validator

/-! ## Pairs -/

/-- Related validators, or two that pass everything. -/
inductive OrPasses (related : Validator → Validator → Prop) : Validator → Validator → Prop
  | passes : OrPasses related .any .any
  | related {c c' : Validator} (h : related c c') : OrPasses related c c'

section

variable (related : Role → Validator → Validator → Prop) (declared : Bool → Validator → Validator → Prop)

/-- The validators of a kind for two ways of compiling sub-schemas. Those of declared members depend on whether the
member is required. -/
inductive PairedKind : Kind → Validator → Validator → Prop
  | plain {kind : Kind} (vd : Validator) (single : isComposite kind = false) (noTuple : kind ≠ .tuple) :
      PairedKind kind vd vd
  | array {element element' : Validator} (each : OrPasses (related .element) element element') (bounds : Bounds) :
      PairedKind .array (.array element bounds) (.array element' bounds)
  | tuple {items items' : List Validator} {rest rest' : Option Validator}
      (each : List.Forall₂ (related .position) items items') (beyond : Option.Rel (OrPasses (related .rest)) rest rest')
      (bounds : Bounds) : PairedKind .tuple (.tuple items rest bounds) (.tuple items' rest' bounds)
  | object {fields fields' : List Field} {additional additional' : Additional}
      (each : List.Forall₂ (Field.Paired fun required => OrPasses (declared required)) fields fields')
      (others : additional.Paired (related .other) additional') (bounds : Bounds) :
      PairedKind .object (.object fields additional bounds) (.object fields' additional' bounds)

/-- A kind is admitted in both slots or in neither, with paired validators. -/
def PairedSlot (kind : Kind) (slots slots' : Admissibility) : Prop :=
  Option.Rel (PairedKind related declared kind) (slots.admitted? kind) (slots'.admitted? kind)

/-- The slots for lists are paired. -/
def PairedLists (slots slots' : Admissibility) : Prop :=
  PairedSlot related declared .array slots slots' ∧ PairedSlot related declared .tuple slots slots'

/-- All slots are paired. -/
def PairedSlots (slots slots' : Admissibility) : Prop := ∀ kind, PairedSlot related declared kind slots slots'

end

section

variable {related : Role → Validator → Validator → Prop} {declared : Bool → Validator → Validator → Prop}
  {slots slots' : Admissibility} {kind : Kind}

theorem PairedSlot.of_none (h : slots.admitted? kind = none) (h' : slots'.admitted? kind = none) :
    PairedSlot related declared kind slots slots' := by
  rw [PairedSlot, h, h']
  exact .none

theorem PairedSlot.of_some {vd vd' : Validator} (h : slots.admitted? kind = some vd) (h' : slots'.admitted? kind = some vd')
    (hpaired : PairedKind related declared kind vd vd') : PairedSlot related declared kind slots slots' := by
  rw [PairedSlot, h, h']
  exact .some hpaired

/-- Slots that have only been opened are paired. -/
theorem PairedSlot.of_opened {b : Bool} (hcomposite : isComposite kind = true) (h : Opened slots kind b)
    (h' : Opened slots' kind b) : PairedSlot related declared kind slots slots' := by
  unfold Opened at h h'
  rw [PairedSlot, h, h']
  cases b with
  | false => exact .none
  | true =>
    cases kind with
    | array => exact .some (.array .passes {})
    | object => exact .some (.object .nil .passthrough {})
    | _ => cases hcomposite

theorem PairedSlot.isDisabled (hdefault : (defaultValidator? kind).isSome = true)
    (h : PairedSlot related declared kind slots slots') : (slots' kind).isDisabled = (slots kind).isDisabled := by
  rw [Admissibility.isDisabled_eq hdefault, Admissibility.isDisabled_eq hdefault]
  rw [PairedSlot] at h
  generalize slots.admitted? kind = x, slots'.admitted? kind = y at h
  cases h <;> rfl

/-- Both validators are rebuilt. -/
theorem PairedSlot.update (hdefault : (defaultValidator? kind).isSome = true)
    (h : PairedSlot related declared kind slots slots') {build build' : Validator → Validator}
    (hbuild : ∀ vd vd', PairedKind related declared kind vd vd' → PairedKind related declared kind (build vd) (build' vd')) :
    PairedSlot related declared kind (slots.run [.update kind build]) (slots'.run [.update kind build']) := by
  rw [PairedSlot, Admissibility.admitted?_run hdefault, Admissibility.admitted?_run hdefault, List.foldl_cons,
    List.foldl_cons, List.foldl_nil, List.foldl_nil, Step.act, Step.act, if_pos rfl, if_pos rfl]
  rw [PairedSlot] at h
  generalize slots.admitted? kind = x, slots'.admitted? kind = y at h
  cases h with
  | none => exact .none
  | some h => exact .some (hbuild _ _ h)

/-- Steps that leave the validators of a kind as they are. -/
theorem PairedSlot.congr {other other' : Admissibility} (h : PairedSlot related declared kind slots slots')
    (heq : other.admitted? kind = slots.admitted? kind) (heq' : other'.admitted? kind = slots'.admitted? kind) :
    PairedSlot related declared kind other other' := by
  rw [PairedSlot, heq, heq']
  exact h

end

section

variable {related : Role → Validator → Validator → Prop} {declared : Bool → Validator → Validator → Prop} {schema : Entries}
  {convert other : Value → Except CompileError Validator} {slots slots' : Admissibility} {b : Bool}

variable (hpairs : ∀ role : Role, ∀ s ∈ role.schemas schema, Follows (convert s) (other s) (related role))

/-! ## Arrays -/

section

include hpairs

theorem follows_restValidator :
    Follows (restValidator convert schema) (restValidator other schema) (Option.Rel (OrPasses (related .rest))) := by
  unfold restValidator
  split
  · exact .pure (.some .passes)
  next entries hget =>
    exact .bind (hpairs .rest _ (mem_mapping hget)) fun c c' hc => .pure (.some (.related hc))
  · exact .pure .none

variable (declared) in
/-- A list of positional items puts a tuple into a slot that is open, and disables arrays. -/
theorem follows_tupleSteps (h : OpenedArray slots b) :
    Follows (tupleSteps (fun _ => .ok ()) convert slots schema) (tupleSteps (fun _ => .ok ()) other slots schema)
      fun steps steps' => PairedLists related declared (slots.run steps) (slots.run steps') := by
  have htuple : ∀ {slots : Admissibility}, slots .tuple = .unset ∨ slots .tuple = .disabled → slots.admitted? .tuple = none := by
    intro slots hslot
    rw [Admissibility.admitted?, Admissibility.current?]
    rcases hslot with hslot | hslot <;> rw [hslot] <;> rfl
  have hnothing : PairedLists related declared (slots.run []) (slots.run []) := by
    have hnone : slots.admitted? .tuple = none := htuple (by rw [h.tuple]; cases b <;> simp)
    exact ⟨.of_opened rfl h.array h.array, .of_none hnone hnone⟩
  have hsilent : ∀ step, (slots.run [step, .disable .array]).admitted? .array = none := fun step =>
    (Admissibility.admitted?_run rfl _).trans rfl
  -- whether no number of items is right depends on the numbers of validators, which are the same on both sides
  unfold tupleSteps
  split
  next items hitems =>
    split
    · exact .pure hnothing
    next hopen =>
      have hunset : slots .tuple = .unset := by
        rw [Admissibility.isDisabled_eq rfl, h.array] at hopen
        cases b with
        | false => exact (hopen rfl).elim
        | true => exact h.tuple
      have hlisted : listedSchemas schema "items" = items := by rw [listedSchemas, hitems]; rfl
      have hpositions : ∀ s ∈ items, s ∈ listedSchemas schema "items" := fun s hs => hlisted.symm ▸ hs
      refine .bind (.mapM items fun s hs => hpairs .position s (hpositions s hs)) fun cs cs' hcs => ?_
      refine .bind (follows_restValidator hpairs) fun rest rest' hrest => ?_
      have hnone : rest'.isNone = rest.isNone := by cases hrest <;> rfl
      dsimp only
      rw [hnone, ← hcs.length_eq]
      have himpossible : PairedLists related declared (slots.run [.disable .tuple, .disable .array])
          (slots.run [.disable .tuple, .disable .array]) := by
        have hdisabled : slots.run [.disable .tuple, .disable .array] .tuple = .disabled := rfl
        exact ⟨.of_none (hsilent _) (hsilent _), .of_none (htuple (.inr hdisabled)) (htuple (.inr hdisabled))⟩
      have hset : ∀ bounds, PairedLists related declared (slots.run [.set .tuple (.tuple cs rest bounds), .disable .array])
          (slots.run [.set .tuple (.tuple cs' rest' bounds), .disable .array]) := fun bounds =>
        ⟨.of_none (hsilent _) (hsilent _),
          .of_some (admitted?_setTuple hunset _) (admitted?_setTuple hunset _) (.tuple hcs hrest bounds)⟩
      split
      · refine .bind (.self _) ?_
        rintro impossible _ rfl
        split
        · exact .bind (.self _) fun _ _ _ => .bind (.self _) fun _ _ _ => .bind (.self _) fun _ _ _ => .pure himpossible
        · exact .pure (hset _)
      · exact .pure (hset _)
  · exact .pure hnothing

omit hpairs in
theorem PairedSlot.itemBounds (h : PairedSlot related declared .array slots slots') (keyword : String) (bounds : Value → Bounds) :
    PairedSlot related declared .array (slots.run (itemBoundSteps schema keyword bounds))
      (slots'.run (itemBoundSteps schema keyword bounds)) := by
  unfold itemBoundSteps
  split
  · refine h.update rfl fun vd vd' hvd => ?_
    cases hvd with
    | plain _ single _ => cases single
    | array each old => exact .array each _
  · exact h

theorem follows_itemsSteps (h : PairedSlot related declared .array slots slots') :
    Follows (itemsSteps convert slots schema) (itemsSteps other slots' schema)
      fun steps steps' => PairedSlot related declared .array (slots.run steps) (slots'.run steps') := by
  have hsettled : PairedSlot related declared .array (slots.run [.settle .array]) (slots'.run [.settle .array]) :=
    h.congr ((Admissibility.admitted?_run rfl _).trans rfl) ((Admissibility.admitted?_run rfl _).trans rfl)
  unfold itemsSteps
  rw [h.isDisabled rfl]
  split
  · exact .pure h
  dsimp only
  split
  · exact .pure h
  · exact .pure h
  · split
    · exact .pure hsettled
    · refine .pure (h.update rfl fun vd vd' hvd => ?_)
      cases hvd with
      | plain _ single _ => cases single
      | array each old => exact .array each _
  next entries hget =>
    split
    · exact .pure hsettled
    next hhas =>
      have hmem : Value.dict entries ∈ Role.element.schemas schema := by
        rw [Role.schemas, if_neg hhas]
        exact mem_mapping hget
      refine .bind (hpairs .element _ hmem) fun c c' hc => .pure (h.update rfl fun vd vd' hvd => ?_)
      cases hvd with
      | plain _ single _ => cases single
      | array each old => exact .array (.related hc) old
  · exact .pure hsettled

variable (declared) in
/-- **The rules of arrays** make paired validators of arrays and of tuples. -/
theorem follows_arrays [Pattern.Engine] (h : OpenedArray slots b) :
    Follows (KindRule.runAll (fun _ => .ok ()) convert schema KindRule.ofArrays slots)
      (KindRule.runAll (fun _ => .ok ()) other schema KindRule.ofArrays slots)
      (PairedLists related declared) := by
  have htuple : ∀ rule ∈ [KindRule.minItems, .maxItems, .items], Kind.tuple ∉ rule.kinds := by decide
  rw [KindRule.ofArrays, KindRule.runAll, KindRule.runAll]
  refine .bind (follows_tupleSteps declared hpairs h) ?_
  rintro steps steps' ⟨harray, htuples⟩
  have hrest : Follows (KindRule.runAll (fun _ => .ok ()) convert schema [.minItems, .maxItems, .items] (slots.run steps))
      (KindRule.runAll (fun _ => .ok ()) other schema [.minItems, .maxItems, .items] (slots.run steps'))
      (PairedSlot related declared .array) := by
    show Follows (itemsSteps convert _ schema >>= _) (itemsSteps other _ schema >>= _) _
    exact .bind (follows_itemsSteps hpairs ((harray.itemBounds _ _).itemBounds _ _)) fun _ _ hitems => .pure hitems
  refine (hrest.both (KindRule.runAll_other htuple _) (KindRule.runAll_other htuple _)).mono ?_
  rintro after after' ⟨hafter, hsame, hsame'⟩
  exact ⟨hafter, htuples.congr (Admissibility.admitted?_congr hsame) (Admissibility.admitted?_congr hsame')⟩

end

/-! ## Objects -/

section

variable (hdeclared : ∀ e ∈ mappedSchemas schema "properties", Follows (convert e.2) (other e.2)
  (declared ((requiredNames schema).any fun key => e.1.isText key)))

theorem follows_propertyFields (required : List String) {properties : Entries}
    (h : ∀ e ∈ properties, Follows (convert e.2) (other e.2) (declared (required.any fun key => e.1.isText key))) :
    Follows (propertyFields convert required properties) (propertyFields other required properties)
      (List.Forall₂ (Field.Paired fun required => OrPasses (declared required))) := by
  induction properties with
  | nil => exact .pure .nil
  | cons e es ih =>
    obtain ⟨hfirst, hrest⟩ := List.forall_mem_cons.mp h
    rw [propertyFields, propertyFields]
    exact .bind hfirst fun c c' hc => .bind (ih hrest) fun fields fields' hfields => .pure (.cons (.mk _ _ (.related hc)) hfields)

theorem paired_addRequired {fields fields' : List Field}
    (h : List.Forall₂ (Field.Paired fun required => OrPasses (declared required)) fields fields') (required : List String) :
    List.Forall₂ (Field.Paired fun required => OrPasses (declared required)) (addRequired fields required)
      (addRequired fields' required) := by
  unfold addRequired
  induction required generalizing fields fields' with
  | nil => exact h
  | cons name names ih =>
    have hdeclares : Field.declares fields' (.string name) = Field.declares fields (.string name) := by
      clear ih
      induction h with
      | nil => rfl
      | cons hfirst _ ih =>
        obtain ⟨key, _, _⟩ := hfirst
        exact congrArg (key.alike (.string name) || ·) ih
    rw [List.foldl_cons, List.foldl_cons, hdeclares]
    split
    · exact ih h
    · exact ih (List.rel_append h (.cons (.mk _ _ .passes) .nil))

include hpairs in
theorem follows_additionalPolicy : Follows (additionalPolicy convert schema) (additionalPolicy other schema)
    fun additional additional' => additional.Paired (related .other) additional' := by
  unfold additionalPolicy
  split
  · exact .pure .passthrough
  next hhas =>
    split
    · exact .pure .strict
    next entries hget =>
      have hmem : Value.dict entries ∈ Role.other.schemas schema := by
        rw [Role.schemas, if_neg hhas]
        exact mem_mapping hget
      exact .bind (hpairs .other _ hmem) fun c c' hc => .pure (.checked hc)
    · exact .pure .passthrough

include hpairs hdeclared in
theorem follows_propertiesSteps (h : Opened slots .object b) (h' : Opened slots' .object b) :
    Follows (propertiesSteps convert slots schema) (propertiesSteps other slots' schema)
      fun steps steps' => PairedSlot related declared .object (slots.run steps) (slots'.run steps') := by
  have hopened : PairedSlot related declared .object slots slots' := .of_opened rfl h h'
  unfold propertiesSteps
  rw [hopened.isDisabled rfl]
  split
  · exact .pure hopened
  split
  · exact .pure hopened
  next hopen _ =>
    have hdefault : b = true := by
      rw [Admissibility.isDisabled_eq rfl, h] at hopen
      cases b with
      | false => exact (hopen rfl).elim
      | true => rfl
    subst hdefault
    refine .bind (follows_propertyFields _ hdeclared) fun fields fields' hfields => ?_
    refine .bind (follows_additionalPolicy hpairs) fun additional additional' hadditional => .pure ?_
    -- what has only been opened has no fields, and is replaced by what is built
    have hbuilt : ∀ {slots : Admissibility}, Opened slots .object true → ∀ built,
        (slots.run [.update .object (joinObject built)]).admitted? .object = some built := by
      intro slots hslots built
      rw [Admissibility.admitted?_run rfl, List.foldl_cons, List.foldl_nil, Step.act, if_pos rfl, hslots]
      rfl
    exact .of_some (hbuilt h _) (hbuilt h' _) (.object (paired_addRequired hfields _) hadditional {})

theorem PairedSlot.memberBounds (h : PairedSlot related declared .object slots slots') (keyword : String)
    (bounds : Value → Bounds) : PairedSlot related declared .object (slots.run (memberBoundSteps schema keyword bounds))
      (slots'.run (memberBoundSteps schema keyword bounds)) := by
  unfold memberBoundSteps
  split
  · refine h.update rfl fun vd vd' hvd => ?_
    cases hvd with
    | plain _ single _ => cases single
    | object each others old => exact .object each others _
  · exact h

include hpairs hdeclared in
/-- **The rules of objects** make paired validators of objects. -/
theorem follows_objects [Pattern.Engine] (h : Opened slots .object b) (h' : Opened slots' .object b) :
    Follows (KindRule.runAll (fun _ => .ok ()) convert schema KindRule.ofObjects slots)
      (KindRule.runAll (fun _ => .ok ()) other schema KindRule.ofObjects slots')
      (PairedSlot related declared .object) := by
  rw [KindRule.ofObjects, KindRule.runAll, KindRule.runAll]
  exact .bind (follows_propertiesSteps hpairs hdeclared h h') fun steps steps' hsteps =>
    .pure ((hsteps.memberBounds _ _).memberBounds _ _)

end

/-! ## First phase -/

/-- The rules before those of arrays and objects compile no sub-schema. -/
theorem runAll_opening [Pattern.Engine] (slots : Admissibility) :
    KindRule.runAll (fun _ => .ok ()) other schema (.const :: KindRule.opening) slots =
      KindRule.runAll (m := Except CompileError) (fun _ => .ok ()) convert schema (.const :: KindRule.opening) slots := by
  have hsteps : ∀ rule ∈ KindRule.const :: KindRule.opening, ∀ slots, rule.steps (fun _ => .ok ()) other slots schema =
      rule.steps (m := Except CompileError) (fun _ => .ok ()) convert slots schema := by
    intro rule hrule slots
    cases rule with
    | tuple | items | properties => simp [KindRule.opening] at hrule
    | _ => rfl
  generalize KindRule.const :: KindRule.opening = rules at hsteps ⊢
  induction rules generalizing slots with
  | nil => rfl
  | cons rule rules ih =>
    obtain ⟨hfirst, hrest⟩ := List.forall_mem_cons.mp hsteps
    rw [KindRule.runAll, KindRule.runAll, hfirst]
    exact bind_congr fun steps => ih _ hrest

include hpairs in
/-- **The first phases for two ways of compiling sub-schemas** fill paired slots, if one way follows the other. -/
theorem follows_firstPhase [Pattern.Engine]
    (hdeclared : ∀ e ∈ mappedSchemas schema "properties", Follows (convert e.2) (other e.2)
    (declared ((requiredNames schema).any fun key => e.1.isText key))) :
    Follows (KindRule.runAll (fun _ => .ok ()) convert schema KindRule.all .initial)
      (KindRule.runAll (fun _ => .ok ()) other schema KindRule.all .initial) (PairedSlots related declared) := by
  have harrays : ∀ kind, kind ≠ .array → kind ≠ .tuple → ∀ rule ∈ KindRule.ofArrays, kind ∉ rule.kinds := fun kind => by
    cases kind <;> decide
  have hobjects : ∀ kind, kind ≠ .object → ∀ rule ∈ KindRule.ofObjects, kind ∉ rule.kinds := fun kind => by
    cases kind <;> decide
  rw [KindRule.all_eq, ← List.cons_append, KindRule.runAll_append, KindRule.runAll_append, runAll_opening]
  have hopening : Answers False (KindRule.runAll (fun _ => .ok ()) convert schema (.const :: KindRule.opening) .initial)
      fun slots => OpenedArray slots (kindKept schema (.list [])) ∧ Opened slots .object (kindKept schema (.dict [])) :=
    (openedArray_opening rfl).and (opened_opening rfl rfl rfl).meets
  refine .bind ((Follows.self _).and hopening) ?_
  rintro opened _ ⟨rfl, hopenedArray, hopenedObject⟩
  rw [KindRule.runAll_append, KindRule.runAll_append]
  -- the rules of arrays leave the other slots alone
  have hothers : ∀ {convert : Value → Except CompileError Validator},
      Answers False (KindRule.runAll (fun _ => .ok ()) convert schema KindRule.ofArrays opened) fun after =>
        ∀ kind, kind ≠ .array → kind ≠ .tuple → after.admitted? kind = opened.admitted? kind :=
    .of_meets fun after hafter kind harray htuple =>
      Admissibility.admitted?_congr ((KindRule.runAll_other (harrays kind harray htuple) opened).meets after hafter)
  refine .bind ((follows_arrays declared hpairs hopenedArray).both hothers hothers) ?_
  rintro lists lists' ⟨⟨harray, htuple⟩, hsame, hsame'⟩
  have hobject : ∀ {slots : Admissibility}, slots.admitted? .object = opened.admitted? .object →
      Opened slots .object (kindKept schema (.dict [])) := fun hslots => hslots.trans hopenedObject
  -- and so do those of objects
  have hkept : ∀ {convert : Value → Except CompileError Validator} (slots : Admissibility),
      Answers False (KindRule.runAll (fun _ => .ok ()) convert schema KindRule.ofObjects slots) fun after =>
        ∀ kind, kind ≠ .object → after.admitted? kind = slots.admitted? kind := fun slots =>
    .of_meets fun after hafter kind hkind =>
      Admissibility.admitted?_congr ((KindRule.runAll_other (hobjects kind hkind) slots).meets after hafter)
  have hfollows := follows_objects hpairs hdeclared (hobject (hsame .object (by decide) (by decide)))
    (hobject (hsame' .object (by decide) (by decide)))
  refine (hfollows.both (hkept lists) (hkept lists')).mono ?_
  rintro after after' ⟨hpaired, hafter, hafter'⟩ kind
  have hplain : kind ≠ .array → kind ≠ .tuple → kind ≠ .object → PairedSlot related declared kind after after' := by
    intro hnotArray hnotTuple hnotObject
    rw [PairedSlot, hafter kind hnotObject, hafter' kind hnotObject, hsame kind hnotArray hnotTuple,
      hsame' kind hnotArray hnotTuple]
    cases opened.admitted? kind with
    | none => exact .none
    | some vd => exact .some (.plain vd (by cases kind <;> trivial) hnotTuple)
  cases kind with
  | array => exact harray.congr (hafter .array (by decide)) (hafter' .array (by decide))
  | tuple => exact htuple.congr (hafter .tuple (by decide)) (hafter' .tuple (by decide))
  | object => exact hpaired
  | _ => exact hplain (by decide) (by decide) (by decide)

end

/-! ## Joining -/

section

variable {related : Role → Validator → Validator → Prop} {declared : Bool → Validator → Validator → Prop}
  {slots slots' : Admissibility}

/-- The validators of the same kinds are joined. -/
theorem PairedSlots.validators (h : PairedSlots related declared slots slots') :
    List.Forall₂ (fun o o' => o.1 = o'.1 ∧ PairedKind related declared o.1 o.2 o'.2 ∧
      slots.admitted? o.1 = some o.2 ∧ slots'.admitted? o.1 = some o'.2) slots.validators slots'.validators := by
  rw [Admissibility.validators_eq, Admissibility.validators_eq]
  induction Kind.all with
  | nil => exact .nil
  | cons kind kinds ih =>
    have hkind := h kind
    rw [PairedSlot] at hkind
    rw [List.filterMap_cons, List.filterMap_cons]
    generalize hx : slots.admitted? kind = x, hy : slots'.admitted? kind = y at hkind
    cases hkind with
    | none => exact ih
    | some hvd => exact .cons ⟨rfl, hvd, hx, hy⟩ ih

/-- **What is joined of paired slots** is related if the validators of kinds are. -/
theorem PairedSlots.assemble {holds : Validator → Validator → Prop} (h : PairedSlots related declared slots slots')
    {schema schema' : Entries} (hconstraints : hasConstraints schema' = hasConstraints schema) (any : holds .any .any)
    (never : holds .never .never) (kinds : ∀ kind vd vd', slots.admitted? kind = some vd → slots'.admitted? kind = some vd' →
      PairedKind related declared kind vd vd' → holds vd vd')
    (union : ∀ options options' tags, List.Forall₂ holds options options' → holds (.union options tags) (.union options' tags)) :
    holds (slots.assemble schema) (slots'.assemble schema') := by
  have hvalidators := h.validators
  unfold Admissibility.assemble
  rw [hconstraints]
  generalize slots.validators = options, slots'.validators = options' at hvalidators
  have hnames : options'.map (fun o => o.1.name) = options.map fun o => o.1.name := by
    induction hvalidators with
    | nil => rfl
    | cons hfirst _ ih => rw [List.map_cons, List.map_cons, ih, hfirst.1]
  have hholds : List.Forall₂ holds (options.map Prod.snd) (options'.map Prod.snd) :=
    List.forall₂_map_left_iff.mpr (List.forall₂_map_right_iff.mpr (hvalidators.imp fun o o' ho => kinds _ _ _ ho.2.2.1 ho.2.2.2 ho.2.1))
  cases hvalidators with
  | nil => exact never
  | cons hfirst hrest =>
    cases hrest with
    | nil => exact kinds _ _ _ hfirst.2.2.1 hfirst.2.2.2 hfirst.2.1
    | cons hsecond hrest =>
      dsimp only
      split
      · rw [hnames]
        exact union _ _ _ hholds
      · exact any

end

end Schemata
