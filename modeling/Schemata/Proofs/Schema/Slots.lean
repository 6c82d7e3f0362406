import Schemata.Proofs.Schema.Conditions
import Schemata.Proofs.Schema.Structures

/-!
# `Schemata.Proofs.Schema.Slots` — what the slots of the kinds hold

The rules of the first phase put validators into the slots of the kinds. Whatever holds of the default validators
and is kept by the few ways in which rules build new ones from old ones and from those of sub-schemas holds of
every validator in a slot, at any time (`slots_keep`).

## Contents
- **Invariants.** `SlotInvariant`, what a property of validators has to be closed under.
- **Steps.** `Step.Keeps` for the steps of every rule.
- **Slots.** `slots_keep`, and `validators_keep` for the validators that are joined in the end.
-/

namespace Schemata

/-! ## Invariants -/

/-- The values that a schema names as literals. -/
def literals (schema : Entries) : List Value :=
  (Entries.get? schema "const").toList ++ ((Entries.get? schema "enum").bind Value.items?).getD []

theorem isWritable_of_mem_literals {schema : Entries} (h : (Value.dict schema).isWritable = true) {w : Value}
    (hw : w ∈ literals schema) : w.isWritable = true := by
  rcases List.mem_append.mp hw with hconst | henum
  · exact isWritable_get? h (Option.mem_toList.mp hconst)
  · cases hget : Entries.get? schema "enum" with
    | none => rw [hget] at henum; cases henum
    | some value =>
      rw [hget] at henum
      cases value with
      | list items => exact Value.isWritable_item (isWritable_get? h hget) henum
      | _ => cases henum

/-- What is known of the things that a schema supplies for its validators. -/
structure Supply where
  literal : Value → Prop := fun _ => True
  /-- Conditions on the values of a kind. -/
  condition : Kind → Test → Prop := fun _ _ => True
  /-- Limits on numbers of elements and on sizes. -/
  limit : Value → Prop := fun _ => True
  /-- The names of the fields of an object. -/
  names : List Value → Prop := fun _ => True
  /-- The media types that a file may have. -/
  mediaType : String → Prop := fun _ => True
  sub : Validator → Prop := fun _ => True

/-- The limits that bounds have. -/
def Bounds.limits (bounds : Bounds) : List Value := bounds.least.toList ++ bounds.most.toList

theorem Bounds.forall_mem_limits {bounds : Bounds} {holds : Value → Prop} :
    (∀ limit ∈ bounds.limits, holds limit) ↔
      (∀ limit, bounds.least = some limit → holds limit) ∧ ∀ limit, bounds.most = some limit → holds limit := by
  simp [Bounds.limits, or_imp, forall_and]

/-- A property of the validators of each kind that holds of the default ones and of everything that rules make
of these and of what a schema supplies. -/
structure SlotInvariant (supply : Supply) (holds : Kind → Validator → Prop) : Prop where
  default : ∀ kind vd, defaultValidator? kind = some vd → holds kind vd
  literal : ∀ kind members, members ≠ [] → (∀ w ∈ members, w.literalKind = some kind ∧ supply.literal w) →
    holds kind (literalValidator kind members)
  refined : ∀ kind vd test message, supply.condition kind test → test.ToldAs message → holds kind vd →
    holds kind (.refined vd test message)
  sized : ∀ kind vd relation limit message, isComposite kind = true → supply.limit limit →
    (Test.size relation limit).ToldAs message → holds kind vd → holds kind (.refined vd (.size relation limit) message)
  both : ∀ kind left right, holds kind left → holds kind right → holds kind (.both left right)
  file : ∀ limits, (∀ limit ∈ limits.size.limits, supply.limit limit) → (∀ t ∈ limits.mediaTypes, supply.mediaType t) →
    holds .file (.file limits)
  passes : supply.sub .any
  array : ∀ element, supply.sub element → holds .array (.array element {})
  arrayElement : ∀ old element bounds, supply.sub element → holds .array (.array old bounds) →
    holds .array (.array element bounds)
  arrayBounds : ∀ element old new, (∀ limit ∈ new.limits, supply.limit limit) → holds .array (.array element old) →
    holds .array (.array element (Validator.replaceBounds old new))
  tuple : ∀ items rest bounds, (∀ c ∈ items, supply.sub c) → (∀ c, rest = some c → supply.sub c) →
    (∀ limit ∈ bounds.limits, supply.limit limit) → holds .tuple (.tuple items rest bounds)
  object : ∀ fields additional, supply.names (fields.map Field.name) → (∀ f ∈ fields, supply.sub f.validator) →
    (∀ c, additional = .checked c → supply.sub c) → holds .object (.object fields additional {})
  objectBounds : ∀ fields additional old new, (∀ limit ∈ new.limits, supply.limit limit) →
    holds .object (.object fields additional old) →
    holds .object (.object fields additional (Validator.replaceBounds old new))

/-- The members that a schema declares. -/
def declaredMembers (schema : Entries) : Entries := ((Entries.get? schema "properties").bind Value.entries?).getD []

/-- Adds a required name to others if it is none of them. -/
def addName (names : List Value) (name : String) : List Value :=
  if names.any fun other => other.alike (.string name) then names else names ++ [.string name]

/-- The names of the fields that a schema gives to objects. -/
def fieldNames (schema : Entries) : List Value :=
  (requiredNames schema).foldl addName ((declaredMembers schema).map Prod.fst)

/-- What a schema really supplies. -/
structure Supplies [Pattern.Engine] (convert : Value → Except CompileError Validator) (schema : Entries)
    (supply : Supply) : Prop where
  literal : ∀ w ∈ literals schema, supply.literal w
  condition : ∀ rule kind test? test, KindRule.condition? rule = some (kind, test?) → test? schema = some test →
    supply.condition kind test
  integral : supply.condition .number .integral
  limit : ∀ keyword, (keyword, KeywordShape.count) ∈ keywordShapes → ∀ limit,
    Entries.given? schema keyword = some limit → supply.limit limit
  zero : supply.limit (.int 0)
  names : supply.names (fieldNames schema)
  mediaTypes : ∀ t ∈ mediaTypesOf schema, supply.mediaType t
  sub : ∀ s ∈ subSchemas schema, ∀ c, convert s = .ok c → supply.sub c

/-- Literals and sub-schemas, when nothing is asked of the rest. -/
theorem Supplies.of_sub [Pattern.Engine] {convert : Value → Except CompileError Validator} {schema : Entries}
    {ofLiteral : Value → Prop} {ofSub : Validator → Prop} (literal : ∀ w ∈ literals schema, ofLiteral w)
    (sub : ∀ s ∈ subSchemas schema, ∀ c, convert s = .ok c → ofSub c) :
    Supplies convert schema { literal := ofLiteral, sub := ofSub } where
  literal := literal
  condition := fun _ _ _ _ _ _ => trivial
  integral := trivial
  limit := fun _ _ _ _ => trivial
  zero := trivial
  names := trivial
  mediaTypes := fun _ _ => trivial
  sub := sub

/-- Every validator in a slot has a property of its kind. -/
def Admissibility.Keep (holds : Kind → Validator → Prop) (slots : Admissibility) : Prop :=
  ∀ kind vd, slots kind = .holds vd → holds kind vd

/-- A step puts only validators with a property into slots whose validators have it. -/
def Step.Keeps (holds : Kind → Validator → Prop) : Step → Prop
  | .set kind vd => holds kind vd
  | .update kind build => ∀ vd, holds kind vd → holds kind (build vd)
  | _ => True

variable {supply : Supply} {holds : Kind → Validator → Prop}

namespace Admissibility

theorem Keep.initial : Admissibility.initial.Keep holds := by
  intro kind vd h
  cases h

theorem Keep.fill {slots : Admissibility} (h : slots.Keep holds) {kind : Kind} {slot : Slot}
    (hslot : ∀ vd, slot = .holds vd → holds kind vd) : (slots.fill kind slot).Keep holds := by
  intro k vd hk
  unfold Admissibility.fill at hk
  by_cases hkind : k = kind
  · rw [if_pos hkind] at hk
    exact hkind ▸ hslot vd hk
  · rw [if_neg hkind] at hk
    exact h k vd hk

/-- The validator that an update starts from has the property. -/
theorem Keep.current {slots : Admissibility} (h : slots.Keep holds) (hinv : SlotInvariant supply holds) {kind : Kind}
    {vd : Validator} (hcurrent : slots.current? kind = some vd) : holds kind vd := by
  unfold Admissibility.current? at hcurrent
  cases hslot : slots kind with
  | holds w =>
    rw [hslot] at hcurrent
    exact h kind vd (hslot.trans (congrArg Slot.holds (Option.some.inj hcurrent)))
  | _ =>
    rw [hslot] at hcurrent
    exact hinv.default kind vd hcurrent

/-- **One step keeps the property.** -/
theorem Keep.apply {slots : Admissibility} (h : slots.Keep holds) (hinv : SlotInvariant supply holds) {step : Step}
    (hstep : step.Keeps holds) : (slots.apply step).Keep holds := by
  have hempty : ∀ slot : Slot, slot.validator? = none → ∀ kind vd, slot = .holds vd → holds kind vd := by
    rintro slot hnone kind vd rfl
    cases hnone
  cases step with
  | set kind vd =>
    rw [Admissibility.apply]
    split
    · exact h
    · exact h.fill fun w hw => Slot.holds.inj hw ▸ hstep
  | disable kind => exact h.fill (hempty _ rfl kind)
  | disableAllExcept kinds =>
    intro k vd hk
    rw [Admissibility.apply] at hk
    dsimp only at hk
    split at hk
    · exact h k vd hk
    · cases hk
  | markPending kind =>
    rw [Admissibility.apply]
    split
    · exact h.fill (hempty _ rfl kind)
    · exact h
  | update kind build =>
    rw [Admissibility.apply]
    split
    · exact h
    · split
      next vd hcurrent => exact h.fill fun w hw => Slot.holds.inj hw ▸ hstep vd (h.current hinv hcurrent)
      next => exact h
  | settle kind =>
    rw [Admissibility.apply]
    split
    · split
      next vd hdefault => exact h.fill fun w hw => Slot.holds.inj hw ▸ hinv.default kind vd hdefault
      next => exact h
    · exact h

theorem Keep.run {slots : Admissibility} (h : slots.Keep holds) (hinv : SlotInvariant supply holds)
    {steps : List Step} (hsteps : ∀ step ∈ steps, step.Keeps holds) : (slots.run steps).Keep holds := by
  induction steps generalizing slots with
  | nil => exact h
  | cons step steps ih =>
    obtain ⟨hstep, hrest⟩ := List.forall_mem_cons.mp hsteps
    exact ih (h.apply hinv hstep) hrest

end Admissibility

/-! ## Steps -/

/-- The limits that two keywords name. -/
theorem forall_mem_given {schema : Entries} {ofLimit : Value → Prop}
    (hlimit : ∀ keyword, (keyword, KeywordShape.count) ∈ keywordShapes → ∀ limit,
      Entries.given? schema keyword = some limit → ofLimit limit)
    (least most : String) (hleast : (least, KeywordShape.count) ∈ keywordShapes := by decide)
    (hmost : (most, KeywordShape.count) ∈ keywordShapes := by decide) :
    ∀ limit ∈ Bounds.limits ⟨Entries.given? schema least, Entries.given? schema most⟩, ofLimit limit :=
  Bounds.forall_mem_limits.mpr ⟨hlimit least hleast, hlimit most hmost⟩

section

variable (hinv : SlotInvariant supply holds)
include hinv

theorem keeps_constSteps {schema : Entries} (hliterals : ∀ w ∈ literals schema, supply.literal w) :
    Answers False (constSteps (m := Except CompileError) (fun _ => .ok ()) schema)
      fun steps => ∀ step ∈ steps, step.Keeps holds := by
  unfold constSteps
  split
  · exact .pure (List.forall_mem_nil _)
  next value hget =>
    have hvalue : supply.literal value := hliterals value (List.mem_append_left _ (by simp [hget]))
    dsimp only
    split
    · refine .bind (.trivial _) fun text _ => .bind (.trivial _) fun _ _ => .pure ?_
      exact List.forall_mem_singleton.mpr trivial
    next kind hkind =>
      refine .pure (List.forall_mem_cons.mpr ⟨trivial, List.forall_mem_singleton.mpr ?_⟩)
      split
      · trivial
      · exact hinv.literal kind [value] (List.cons_ne_nil _ _) (List.forall_mem_singleton.mpr ⟨hkind, hvalue⟩)

theorem keeps_scalarEnumStep {slots : Admissibility} (hslots : slots.Keep holds) {values : List Value}
    (hvalues : ∀ w ∈ values, supply.literal w) (kind : Kind) : (scalarEnumStep slots values kind).Keeps holds := by
  unfold scalarEnumStep
  split
  · trivial
  next members hmembers =>
    have hliteral : holds kind (literalValidator kind (membersOf kind values)) :=
      hinv.literal kind _ hmembers fun w hw => by
        obtain ⟨hmem, hkind⟩ := List.mem_filter.mp hw
        exact ⟨by simpa using hkind, hvalues w hmem⟩
    dsimp only
    split
    · exact hliteral
    next existing hexisting =>
      refine hinv.both kind _ _ (hslots kind existing ?_) hliteral
      cases hslot : slots kind with
      | holds w => rw [hslot] at hexisting; rw [Option.some.inj hexisting]
      | _ => rw [hslot] at hexisting; cases hexisting

theorem keeps_enumSteps {slots : Admissibility} (hslots : slots.Keep holds) {schema : Entries}
    (hliterals : ∀ w ∈ literals schema, supply.literal w) : ∀ step ∈ enumSteps slots schema, step.Keeps holds := by
  unfold enumSteps
  split
  · exact List.forall_mem_nil _
  · split
    · exact List.forall_mem_nil _
    · exact List.forall_mem_singleton.mpr trivial
  next values _ hget =>
    have hvalues : ∀ w ∈ values, supply.literal w := fun w hw =>
      hliterals w (List.mem_append_right _ (by rw [hget]; exact hw))
    intro step hstep
    simp only [List.mem_append, List.mem_map, List.mem_singleton] at hstep
    rcases hstep with ((⟨kind, _, rfl⟩ | ⟨kind, _, rfl⟩) | htuple) | rfl
    · exact keeps_scalarEnumStep hinv hslots hvalues kind
    · unfold compositeEnumStep
      split <;> trivial
    · split at htuple
      · rw [List.mem_singleton.mp htuple]; trivial
      · cases htuple
    · trivial

theorem keeps_typeSteps (hintegral : supply.condition .number .integral) (schema : Entries) :
    ∀ step ∈ typeSteps schema, step.Keeps holds := by
  unfold typeSteps
  split
  · refine List.forall_mem_cons.mpr ⟨trivial, ?_⟩
    split
    · exact List.forall_mem_singleton.mpr fun vd hvd =>
        hinv.refined .number vd _ _ hintegral (.unbroken (by decide)) hvd
    · exact List.forall_mem_nil _
  · exact List.forall_mem_nil _

theorem keeps_fileSteps {schema : Entries}
    (hlimit : ∀ keyword, (keyword, KeywordShape.count) ∈ keywordShapes → ∀ limit,
      Entries.given? schema keyword = some limit → supply.limit limit)
    (hmediaTypes : ∀ t ∈ mediaTypesOf schema, supply.mediaType t) : ∀ step ∈ fileSteps schema, step.Keeps holds := by
  unfold fileSteps
  split
  · exact List.forall_mem_cons.mpr ⟨hinv.file _ (forall_mem_given hlimit "minLength" "maxLength") hmediaTypes,
      List.forall_mem_singleton.mpr trivial⟩
  · exact List.forall_mem_nil _

theorem keeps_impliedSteps (slots : Admissibility) (schema : Entries) (kind : Kind) (keywords : List String) :
    ∀ step ∈ impliedSteps slots schema kind keywords, step.Keeps holds := by
  unfold impliedSteps
  split
  · split
    next vd hvd => exact List.forall_mem_singleton.mpr (hinv.default kind vd hvd)
    next => exact List.forall_mem_nil _
  · exact List.forall_mem_nil _

/-- A condition on the values of a kind. -/
theorem keeps_refines {slots : Admissibility} {kind : Kind} {test? : Option Test} {steps : List Step}
    (h : Refines slots kind test? steps) (htest : ∀ test, test? = some test → supply.condition kind test) :
    ∀ step ∈ steps, step.Keeps holds := by
  cases test? with
  | none =>
    obtain rfl : steps = [] := h
    exact List.forall_mem_nil _
  | some test =>
    rcases h with ⟨_, rfl⟩ | ⟨message, hmessage, rfl⟩
    · exact List.forall_mem_nil _
    · exact List.forall_mem_singleton.mpr fun vd hvd => hinv.refined kind vd _ _ (htest test rfl) hmessage hvd

theorem keeps_withItemBounds {bounds : Bounds} (hbounds : ∀ limit ∈ bounds.limits, supply.limit limit)
    {vd : Validator} (h : holds .array vd) : holds .array (withItemBounds bounds vd) := by
  obtain ⟨hleast, hmost⟩ := Bounds.forall_mem_limits.mp hbounds
  obtain ⟨least, most⟩ := bounds
  unfold withItemBounds
  split
  · exact hinv.arrayBounds _ _ _ hbounds h
  · cases least with
    | some least => exact hinv.sized .array _ _ _ _ rfl (hleast least rfl) (.limit rfl (by decide) (by decide)) h
    | none =>
      cases most with
      | some most => exact hinv.sized .array _ _ _ _ rfl (hmost most rfl) (.limit rfl (by decide) (by decide)) h
      | none => exact h

theorem keeps_withElement {element : Validator} (helement : supply.sub element) {vd : Validator}
    (h : holds .array vd) : holds .array (withElement element vd) := by
  unfold withElement
  split
  · exact hinv.arrayElement _ _ _ helement h
  · exact hinv.both .array _ _ h (hinv.array _ helement)

theorem keeps_withMemberBounds {bounds : Bounds} (hbounds : ∀ limit ∈ bounds.limits, supply.limit limit)
    {vd : Validator} (h : holds .object vd) : holds .object (withMemberBounds bounds vd) := by
  obtain ⟨hleast, hmost⟩ := Bounds.forall_mem_limits.mp hbounds
  obtain ⟨least, most⟩ := bounds
  unfold withMemberBounds
  split
  · exact hinv.objectBounds _ _ _ _ hbounds h
  · cases least with
    | some least => exact hinv.sized .object _ _ _ _ rfl (hleast least rfl) (.limit rfl (by decide) (by decide)) h
    | none =>
      cases most with
      | some most => exact hinv.sized .object _ _ _ _ rfl (hmost most rfl) (.limit rfl (by decide) (by decide)) h
      | none => exact h

theorem keeps_itemBoundSteps {schema : Entries} {keyword : String} {bounds : Value → Bounds}
    (hbounds : ∀ limit, Entries.given? schema keyword = some limit → ∀ l ∈ (bounds limit).limits, supply.limit l) :
    ∀ step ∈ itemBoundSteps schema keyword bounds, step.Keeps holds := by
  unfold itemBoundSteps
  split
  next limit hlimit =>
    exact List.forall_mem_singleton.mpr fun vd hvd => keeps_withItemBounds hinv (hbounds limit hlimit) hvd
  next => exact List.forall_mem_nil _

theorem keeps_memberBoundSteps {schema : Entries} {keyword : String} {bounds : Value → Bounds}
    (hbounds : ∀ limit, Entries.given? schema keyword = some limit → ∀ l ∈ (bounds limit).limits, supply.limit l) :
    ∀ step ∈ memberBoundSteps schema keyword bounds, step.Keeps holds := by
  unfold memberBoundSteps
  split
  next limit hlimit =>
    exact List.forall_mem_singleton.mpr fun vd hvd => keeps_withMemberBounds hinv (hbounds limit hlimit) hvd
  next => exact List.forall_mem_nil _

variable [Pattern.Engine] {convert : Value → Except CompileError Validator} {schema : Entries}
  (hschema : Supplies convert schema supply)
include hschema

theorem keeps_restValidator :
    Answers False (restValidator convert schema) fun rest => ∀ c, rest = some c → supply.sub c := by
  unfold restValidator
  split
  · refine .pure fun c hc => ?_
    exact Option.some.inj hc ▸ hinv.passes
  next entries hget =>
    have hmem : Value.dict entries ∈ subSchemas schema :=
      mem_subSchemas .schema hget (by decide) (List.mem_singleton.mpr rfl)
    refine .bind (.of_meets (hschema.sub _ hmem)) fun c hc => .pure fun d hd => ?_
    exact Option.some.inj hd ▸ hc
  · refine .pure fun c hc => ?_
    cases hc

theorem keeps_tupleSteps (slots : Admissibility) :
    Answers False (tupleSteps (fun _ => .ok ()) convert slots schema)
      fun steps => ∀ step ∈ steps, step.Keeps holds := by
  refine answers_tupleSteps.mono fun steps hsteps => ?_
  cases hsteps with
  | single | refused => exact List.forall_mem_nil _
  | @tuple items positional rest listed _ each beyond =>
    have hitems : ∀ s ∈ items, Answers False (convert s) supply.sub := fun s hs =>
      .of_meets (hschema.sub s (mem_subSchemas .schemaOrSchemas listed (by decide) hs))
    obtain ⟨done, hdone, rfl⟩ := (answers_mapM items hitems).meets _ each
    refine List.forall_mem_cons.mpr ⟨?_, List.forall_mem_singleton.mpr trivial⟩
    exact hinv.tuple _ rest _ (List.forall_mem_map.mpr hdone.fits) ((keeps_restValidator hinv hschema).meets _ beyond)
      (forall_mem_given hschema.limit "minItems" "maxItems")
  | impossible => exact List.forall_mem_cons.mpr ⟨trivial, List.forall_mem_singleton.mpr trivial⟩

theorem keeps_itemsSteps (slots : Admissibility) :
    Answers False (itemsSteps convert slots schema) fun steps => ∀ step ∈ steps, step.Keeps holds := by
  refine answers_itemsSteps.mono fun steps hsteps => ?_
  cases hsteps with
  | refused | nothing => exact List.forall_mem_nil _
  | settled => exact List.forall_mem_singleton.mpr trivial
  | none =>
    refine List.forall_mem_singleton.mpr fun vd hvd => keeps_withItemBounds hinv ?_ hvd
    exact Bounds.forall_mem_limits.mpr ⟨nofun, fun limit hlimit => Option.some.inj hlimit ▸ hschema.zero⟩
  | @element entries c _ read _ compiled =>
    have hmem : Value.dict entries ∈ subSchemas schema :=
      mem_subSchemas .schemaOrSchemas read (by decide) (List.mem_singleton.mpr rfl)
    refine List.forall_mem_singleton.mpr fun vd hvd => ?_
    exact keeps_withElement hinv (hschema.sub _ hmem c compiled) hvd

omit hinv in
theorem keeps_additionalPolicy :
    Answers False (additionalPolicy convert schema) fun additional => ∀ c, additional = .checked c → supply.sub c := by
  unfold additionalPolicy
  split
  · refine .pure fun c hc => ?_
    cases hc
  · split
    · refine .pure fun c hc => ?_
      cases hc
    next entries hget =>
      have hmem : Value.dict entries ∈ subSchemas schema :=
        mem_subSchemas .schema hget (by decide) (List.mem_singleton.mpr rfl)
      refine .bind (.of_meets (hschema.sub _ hmem)) fun c hc => .pure fun d hd => ?_
      exact Additional.checked.inj hd ▸ hc
    · refine .pure fun c hc => ?_
      cases hc

omit hinv hschema [Pattern.Engine] in
/-- The fields of properties, under their names. -/
theorem keeps_propertyFields (required : List String) (properties : Entries)
    (hproperties : ∀ e ∈ properties, ∀ c, convert e.2 = .ok c → supply.sub c) :
    Answers False (propertyFields convert required properties) fun fields =>
      fields.map Field.name = properties.map Prod.fst ∧ ∀ f ∈ fields, supply.sub f.validator := by
  induction properties with
  | nil => exact .pure ⟨rfl, List.forall_mem_nil _⟩
  | cons e es ih =>
    obtain ⟨hfirst, hrest⟩ := List.forall_mem_cons.mp hproperties
    rw [propertyFields]
    refine .bind (.of_meets hfirst) fun c hc => .bind (ih hrest) ?_
    rintro fields ⟨hnames, hfields⟩
    exact .pure ⟨congrArg (e.1 :: ·) hnames, List.forall_mem_cons.mpr ⟨hc, hfields⟩⟩

omit hinv hschema [Pattern.Engine] in
theorem forall_mem_addRequired (hpasses : supply.sub .any) (required : List String) {fields : List Field}
    (h : ∀ f ∈ fields, supply.sub f.validator) : ∀ f ∈ addRequired fields required, supply.sub f.validator := by
  unfold addRequired
  induction required generalizing fields with
  | nil => exact h
  | cons name names ih =>
    refine ih ?_
    by_cases hdeclared : Field.declares fields (.string name) = true
    · simpa only [if_pos hdeclared] using h
    · simp only [if_neg hdeclared]
      exact List.forall_mem_append.mpr ⟨h, List.forall_mem_singleton.mpr hpasses⟩

omit hinv hschema [Pattern.Engine] in
theorem map_name_addRequired (required : List String) (fields : List Field) :
    (addRequired fields required).map Field.name = required.foldl addName (fields.map Field.name) := by
  unfold addRequired
  induction required generalizing fields with
  | nil => rfl
  | cons name names ih =>
    rw [List.foldl_cons, List.foldl_cons, ih]
    refine congrArg (List.foldl addName · names) ?_
    unfold addName
    have hdeclares : Field.declares fields (.string name) =
        (fields.map Field.name).any fun other => other.alike (.string name) := by
      rw [List.any_map]
      rfl
    rw [hdeclares]
    split
    · rfl
    · exact List.map_append

theorem keeps_propertiesSteps (slots : Admissibility) :
    Answers False (propertiesSteps convert slots schema) fun steps => ∀ step ∈ steps, step.Keeps holds := by
  have hproperties : ∀ e ∈ declaredMembers schema, ∀ c, convert e.2 = .ok c → supply.sub c := by
    intro e he
    unfold declaredMembers at he
    cases hget : Entries.get? schema "properties" with
    | none => rw [hget] at he; cases he
    | some v =>
      rw [hget] at he
      exact hschema.sub e.2 (mem_subSchemas .schemaMap hget (by decide) (List.mem_map_of_mem he))
  refine answers_propertiesSteps.mono fun steps hsteps => ?_
  cases hsteps with
  | refused | nothing => exact List.forall_mem_nil _
  | @built fields additional _ _ each others =>
    obtain ⟨hnames, hfields⟩ := (keeps_propertyFields _ _ hproperties).meets _ each
    have hallNames : (addRequired fields (requiredNames schema)).map Field.name = fieldNames schema := by
      rw [map_name_addRequired, hnames]
      rfl
    have hbuilt := hinv.object (addRequired fields (requiredNames schema)) additional (hallNames ▸ hschema.names)
      (forall_mem_addRequired hinv.passes _ hfields) ((keeps_additionalPolicy hschema).meets _ others)
    refine List.forall_mem_singleton.mpr fun vd hvd => ?_
    unfold joinObject
    split
    · exact hbuilt
    · exact hinv.both .object _ _ hvd hbuilt

/-! ## Slots -/

/-- **The steps of every rule keep the property.** -/
theorem keeps_steps (rule : KindRule) {slots : Admissibility} (hslots : slots.Keep holds) :
    Answers False (rule.steps (fun _ => .ok ()) convert slots schema)
      fun steps => ∀ step ∈ steps, step.Keeps holds := by
  have hlimit : ∀ keyword, (keyword, KeywordShape.count) ∈ keywordShapes → ∀ limit,
      Entries.given? schema keyword = some limit →
        (∀ l ∈ Bounds.limits ⟨some limit, none⟩, supply.limit l) ∧ ∀ l ∈ Bounds.limits ⟨none, some limit⟩, supply.limit l := by
    intro keyword hkeyword limit hgiven
    have h := hschema.limit keyword hkeyword limit hgiven
    exact ⟨List.forall_mem_singleton.mpr h, List.forall_mem_singleton.mpr h⟩
  cases hcondition : rule.condition? with
  | some read =>
    exact (steps_refine slots schema _ convert hcondition).mono fun steps hsteps =>
      keeps_refines hinv hsteps fun test htest => hschema.condition rule _ _ test hcondition htest
  | none =>
    cases rule with
    | const => exact keeps_constSteps hinv hschema.literal
    | enumeration => exact .pure (keeps_enumSteps hinv hslots hschema.literal)
    | type => exact .pure (keeps_typeSteps hinv hschema.integral schema)
    | file => exact .pure (keeps_fileSteps hinv hschema.limit hschema.mediaTypes)
    | impliedString => exact .pure (keeps_impliedSteps hinv _ _ _ _)
    | impliedArray =>
      refine .pure ?_
      unfold impliedArraySteps
      split
      · exact List.forall_mem_nil _
      · exact keeps_impliedSteps hinv _ _ _ _
    | impliedObject => exact .pure (keeps_impliedSteps hinv _ _ _ _)
    | tuple => exact keeps_tupleSteps hinv hschema slots
    | minItems => exact .pure (keeps_itemBoundSteps hinv fun limit h => (hlimit _ (by decide) limit h).1)
    | maxItems => exact .pure (keeps_itemBoundSteps hinv fun limit h => (hlimit _ (by decide) limit h).2)
    | items => exact keeps_itemsSteps hinv hschema slots
    | properties => exact keeps_propertiesSteps hinv hschema slots
    | maxProperties => exact .pure (keeps_memberBoundSteps hinv fun limit h => (hlimit _ (by decide) limit h).2)
    | minProperties => exact .pure (keeps_memberBoundSteps hinv fun limit h => (hlimit _ (by decide) limit h).1)
    | _ => cases hcondition

/-- **Every validator in a slot has the property**, after any rules. -/
theorem slots_keep (rules : List KindRule) {slots : Admissibility} (hslots : slots.Keep holds) :
    Answers False (KindRule.runAll (fun _ => .ok ()) convert schema rules slots) (Admissibility.Keep holds) := by
  induction rules generalizing slots with
  | nil => exact .pure hslots
  | cons rule rules ih =>
    rw [KindRule.runAll]
    exact .bind (keeps_steps hinv hschema rule hslots) fun steps hsteps => ih (hslots.run hinv hsteps)

omit hschema [Pattern.Engine] in
/-- The validators that are joined in the end have the property. -/
theorem validators_keep {slots : Admissibility} (hslots : slots.Keep holds) {kind : Kind} {vd : Validator}
    (h : (kind, vd) ∈ slots.validators) : holds kind vd := by
  obtain ⟨⟨k, slot⟩, hadmitted, hvd⟩ := List.mem_filterMap.mp h
  obtain ⟨k', _, heq⟩ := List.mem_map.mp (List.mem_filter.mp hadmitted).1
  obtain ⟨rfl, rfl⟩ := Prod.mk.inj heq
  obtain ⟨w, hcurrent, heq⟩ := Option.map_eq_some_iff.mp hvd
  obtain ⟨rfl, rfl⟩ := Prod.mk.inj heq
  exact hslots.current hinv hcurrent

end

end Schemata
