import Schemata.Pattern.Reader
import Schemata.Proofs.Schema.Objects

/-!
# `Schemata.Proofs.Schema.Chain` — the slots of arrays and objects between two rules

The functions that put bounds, elements and fields into the slots of arrays and objects are written for any validator:
what is no array or object is refined or joined with one, and an object without fields gives way to one with fields,
whatever bounds it has. In the order in which the rules are applied neither matters. The slots never hold anything but
an array or an object by itself, and no bound is read before the fields are.

## Contents
- **Slots.** `Slot.Bare` and `Admissibility.Admits`, how far a slot has got.
- **Order.** `eq_takeWhile`: a rule determines those before it.
- **Arrays, objects.** What the rules up to a point have read, and a lemma for one rule.
- **Runs.** `chainRead_run`, for any rules from the beginning, and `slots_stay_bare`.
-/

namespace Schemata

/-! ## Slots -/

/-- A slot is disabled or has a validator that fits; while it is open this is the default one. -/
inductive Slot.Bare (kind : Kind) (fits : Validator → Prop) : Slot → Prop
  | disabled : Bare kind fits .disabled
  | unset {vd : Validator} (default : defaultValidator? kind = some vd) (h : fits vd) : Bare kind fits .unset
  | pending {vd : Validator} (default : defaultValidator? kind = some vd) (h : fits vd) : Bare kind fits .pending
  | holds {vd : Validator} (h : fits vd) : Bare kind fits (.holds vd)

namespace Admissibility

/-- The validator of a kind fits, if the kind is admitted: it is what the next update starts from. -/
def Admits (slots : Admissibility) (kind : Kind) (fits : Validator → Prop) : Prop :=
  ∀ vd, slots.admitted? kind = some vd → fits vd

variable {slots slots' : Admissibility} {kind : Kind} {fits fits' : Validator → Prop}

theorem Admits.mono (h : slots.Admits kind fits) (hfits : ∀ vd, fits vd → fits' vd) : slots.Admits kind fits' :=
  fun vd hvd => hfits vd (h vd hvd)

theorem admits_none (h : slots.admitted? kind = none) : slots.Admits kind fits := by
  intro vd hvd
  rw [h] at hvd
  cases hvd

theorem Admits.of_eq (h : slots.Admits kind fits) (heq : slots'.admitted? kind = slots.admitted? kind) :
    slots'.Admits kind fits := by
  rwa [Admits, heq]

/-- What is said of a kind is kept, or the kind is disabled. -/
theorem Admits.keep (h : slots.Admits kind fits) {b : Bool}
    (heq : slots'.admitted? kind = if b then slots.admitted? kind else none) : slots'.Admits kind fits := by
  cases b with
  | true => exact h.of_eq heq
  | false => exact admits_none heq

variable (hdefault : (defaultValidator? kind).isSome = true)
include hdefault

theorem Admits.update (h : slots.Admits kind fits) {build : Validator → Validator}
    (hbuild : ∀ vd, fits vd → fits' (build vd)) : (slots.run [.update kind build]).Admits kind fits' := by
  intro vd hvd
  rw [admitted?_run hdefault, List.foldl_cons, List.foldl_nil, Step.act, if_pos rfl] at hvd
  obtain ⟨old, hold, rfl⟩ := Option.map_eq_some_iff.mp hvd
  exact hbuild old (h old hold)

theorem Admits.settle (h : slots.Admits kind fits) : (slots.run [.settle kind]).Admits kind fits :=
  h.of_eq (admitted?_run hdefault _)

theorem Admits.bare (h : slots.Admits kind fits) : (slots kind).Bare kind fits := by
  obtain ⟨default, hdefault⟩ := Option.isSome_iff_exists.mp hdefault
  unfold Admits admitted? current? at h
  cases hslot : slots kind with
  | disabled => exact .disabled
  | unset =>
    rw [hslot, hdefault] at h
    exact .unset hdefault (h default rfl)
  | pending =>
    rw [hslot, hdefault] at h
    exact .pending hdefault (h default rfl)
  | holds vd =>
    rw [hslot] at h
    exact .holds (h vd rfl)

end Admissibility

/-! ## Order -/

namespace KindRule

variable {before after : List KindRule} {rule : KindRule}

theorem nodup_all : all.Nodup := by decide

/-- **A rule is preceded by the same rules always.** -/
theorem eq_takeWhile (hall : before ++ rule :: after = all) : before = all.takeWhile (· != rule) := by
  have hnodup := nodup_all
  rw [← hall] at hnodup ⊢
  have hbefore : ∀ other ∈ before, (other != rule) = true := by
    intro other hother
    refine bne_iff_ne.mpr ?_
    rintro rfl
    exact (List.nodup_append.mp hnodup).2.2 other hother other List.mem_cons_self rfl
  rw [List.takeWhile_append_of_pos hbefore, List.takeWhile_cons_of_neg (by simp), List.append_nil]

theorem not_mem_before (hall : before ++ rule :: after = all) {other : KindRule}
    (hother : other ∉ all.takeWhile (· != rule)) : other ∉ before :=
  eq_takeWhile hall ▸ hother

end KindRule

section

variable {schema : Entries} {slots : Admissibility} {before after : List KindRule} {rule : KindRule}
  {convert : Value → Except CompileError Validator}

/-- **A rule that does not read the structure** of lists or mappings keeps what is said of them, or disables them. -/
theorem admits_unread [Pattern.Engine] {kind : Kind} {v : Value} {fits : Validator → Prop}
    (hdefault : (defaultValidator? kind).isSome = true) (hkind : v.kind = some kind) (hcomposite : isComposite kind = true)
    (hrule : rule = .const ∨ rule ∈ KindRule.opening ∨ kind ∉ rule.kinds) (hinitial : rule = .const → slots = .initial)
    (h : slots.Admits kind fits) :
    Answers False (rule.steps (fun _ => .ok ()) convert slots schema) fun steps => (slots.run steps).Admits kind fits := by
  rcases hrule with rfl | hopening | hother
  -- a constant has nothing before it
  · obtain rfl := hinitial rfl
    exact (opened_const hdefault hkind hcomposite).mono fun steps hsteps => h.keep hsteps
  · exact (admitted?_opening hdefault hkind hcomposite hopening).mono fun steps hsteps => h.keep hsteps
  · exact (steps_other rule hother).mono fun steps hsteps => h.of_eq (Admissibility.admitted?_congr hsteps)

/-! ## Arrays -/

/-- An array and nothing around it. -/
def BareArray (bounds : Bounds) (vd : Validator) : Prop := ∃ element, vd = .array element bounds

/-- Whether a schema admits no items: beside positional ones, `items` is left to the second phase. -/
def noItems (schema : Entries) : Bool :=
  match Entries.get? schema "items" with
  | some (.bool false) => !Entries.has schema "prefixItems"
  | _ => false

/-- The bounds that the rules up to a point have read. Where there may be no items, that is the upper bound. -/
def itemBoundsRead (schema : Entries) (done : List KindRule) : Bounds where
  least := if .minItems ∈ done then Entries.given? schema "minItems" else none
  most :=
    if .items ∈ done ∧ noItems schema = true then some (.int 0)
    else if .maxItems ∈ done then Entries.given? schema "maxItems" else none

theorem itemBoundsRead_other (h : rule ∉ [KindRule.minItems, .maxItems, .items]) :
    itemBoundsRead schema (before ++ [rule]) = itemBoundsRead schema before := by
  have hne : ∀ other ∈ [KindRule.minItems, .maxItems, .items], other ≠ rule := fun other hother heq => h (heq ▸ hother)
  simp [itemBoundsRead, hne .minItems (by decide), hne .maxItems (by decide), hne .items (by decide)]

theorem bareArray_withItemBounds {bounds new : Bounds} {vd : Validator} (h : BareArray bounds vd) :
    BareArray (Validator.replaceBounds bounds new) (withItemBounds new vd) := by
  obtain ⟨element, rfl⟩ := h
  exact ⟨element, rfl⟩

theorem bareArray_withElement {bounds : Bounds} {vd : Validator} (h : BareArray bounds vd) (element : Validator) :
    withElement element vd = .array element bounds := by
  obtain ⟨old, rfl⟩ := h
  rfl

/-- A bound is read where it is given. -/
theorem admits_itemBoundSteps {bounds bounds' : Bounds} {keyword : String} {given : Value → Bounds}
    (h : slots.Admits .array (BareArray bounds)) (hnone : Entries.given? schema keyword = none → bounds = bounds')
    (hsome : ∀ limit, Entries.given? schema keyword = some limit →
      Validator.replaceBounds bounds (given limit) = bounds') :
    (slots.run (itemBoundSteps schema keyword given)).Admits .array (BareArray bounds') := by
  unfold itemBoundSteps
  split
  next limit hlimit => exact h.update rfl fun vd hvd => hsome limit hlimit ▸ bareArray_withItemBounds hvd
  next hlimit => exact hnone hlimit ▸ h

theorem admits_itemsSteps (h : slots.Admits .array (BareArray (itemBoundsRead schema before))) :
    Answers False (itemsSteps convert slots schema) fun steps =>
      (slots.run steps).Admits .array (BareArray (itemBoundsRead schema (before ++ [.items]))) := by
  have hread : noItems schema = false →
      itemBoundsRead schema (before ++ [.items]) = itemBoundsRead schema before := by
    intro hitems
    simp [itemBoundsRead, hitems]
  refine answers_itemsSteps.mono fun steps hsteps => ?_
  cases hsteps with
  | refused disabled =>
    rw [Admissibility.isDisabled_eq rfl, Option.isNone_iff_eq_none] at disabled
    exact Admissibility.admits_none disabled
  | nothing _ unread =>
    have hsome : noItems schema = false := by
      rcases unread with hget | ⟨_, hget⟩ <;> rw [noItems, hget]
    exact hread hsome ▸ h
  | @settled items _ hget beside =>
    have hsome : noItems schema = false := by
      rw [noItems, hget]
      split
      next heq =>
        rcases beside with hhas | ⟨hnonempty, _⟩
        · rw [hhas]
          rfl
        · exact absurd (Option.some.inj heq) hnonempty
      next => rfl
    exact hread hsome ▸ h.settle rfl
  | none _ hget alone =>
    -- only where there may be no items does the rule read a bound
    have hnone : noItems schema = true := by rw [noItems, hget, alone]; rfl
    have hbounds : Validator.replaceBounds (itemBoundsRead schema before) ⟨none, some (.int 0)⟩ =
        itemBoundsRead schema (before ++ [.items]) := by
      simp [Validator.replaceBounds, itemBoundsRead, hnone]
    exact h.update rfl fun vd hvd => hbounds ▸ bareArray_withItemBounds hvd
  | @element _ element _ hget =>
    rw [hread (by rw [noItems, hget])]
    exact h.update rfl fun vd hvd => ⟨element, bareArray_withElement hvd element⟩

/-- Positional items disable arrays, and say nothing else of them. -/
theorem admits_tupleSteps {fits : Validator → Prop} (h : slots.Admits .array fits) :
    Answers False (tupleSteps (fun _ => .ok ()) convert slots schema) fun steps => (slots.run steps).Admits .array fits := by
  have hdisabled : ∀ step, (slots.run [step, .disable .array]).Admits .array fits := by
    intro step
    refine Admissibility.admits_none ?_
    rw [Admissibility.admitted?_run rfl]
    rfl
  refine answers_tupleSteps.mono fun steps hsteps => ?_
  cases hsteps with
  | single | refused => exact h
  | tuple | impossible => exact hdisabled _

/-- **What a rule leaves in the slot of arrays** is an array by itself. -/
theorem array_step [Pattern.Engine] (hall : before ++ rule :: after = KindRule.all)
    (hinitial : rule = .const → slots = .initial) (h : slots.Admits .array (BareArray (itemBoundsRead schema before))) :
    Answers False (rule.steps (fun _ => .ok ()) convert slots schema) fun steps =>
      (slots.run steps).Admits .array (BareArray (itemBoundsRead schema (before ++ [rule]))) := by
  by_cases harrays : rule ∈ KindRule.ofArrays
  · cases rule with
    | tuple =>
      rw [itemBoundsRead_other (by decide)]
      exact admits_tupleSteps h
    | minItems =>
      refine .pure (admits_itemBoundSteps h (fun hnone => ?_) fun limit hlimit => ?_)
      · simp [itemBoundsRead, hnone]
      · simp [itemBoundsRead, Validator.replaceBounds, hlimit]
    | maxItems =>
      -- whether there may be any items has not been read yet
      have hitems : KindRule.items ∉ before := KindRule.not_mem_before hall (by decide)
      refine .pure (admits_itemBoundSteps h (fun hnone => ?_) fun limit hlimit => ?_)
      · simp [itemBoundsRead, hnone]
      · simp [itemBoundsRead, Validator.replaceBounds, hlimit, hitems]
    | items => exact admits_itemsSteps h
    | _ => simp [KindRule.ofArrays] at harrays
  · have hunread : rule = .const ∨ rule ∈ KindRule.opening ∨ Kind.array ∉ rule.kinds := by
      revert harrays
      cases rule <;> decide
    have hbounds : rule ∉ [KindRule.minItems, .maxItems, .items] := fun hmem => harrays (List.mem_cons_of_mem _ hmem)
    rw [itemBoundsRead_other hbounds]
    exact admits_unread (v := .list []) rfl rfl rfl hunread hinitial h

/-! ## Objects -/

/-- The names that are required and not declared, each once. -/
def undeclaredNames (schema : Entries) : List String :=
  ((requiredNames schema).filter fun name => !Entries.has (mappedSchemas schema "properties") name).eraseDups

/-- The fields of an object are those of the declared properties and of the other required names. -/
theorem BuiltObject.fields_eq {fields : List Field} {additional : Additional}
    (h : BuiltObject convert schema fields additional) :
    ∃ done, Visits (mappedSchemas schema "properties") (fun e c => convert e.2 = .ok c) done ∧
      fields = (done.map fun d => .mk d.1.1 ((requiredNames schema).any fun key => d.1.1.isText key) d.2) ++
        (undeclaredNames schema).map Field.ofRequired := by
  obtain ⟨⟨done, hdone, rfl⟩, _⟩ := h
  refine ⟨done, hdone, ?_⟩
  have hdeclares : ∀ name, Field.declares
      (done.map fun d => .mk d.1.1 ((requiredNames schema).any fun key => d.1.1.isText key) d.2) (.string name) =
        Entries.has (mappedSchemas schema "properties") name := by
    intro name
    rw [Field.declares_eq, find?_propertyFields, Entries.has, ← hdone.args, get?_map_fst, Option.isSome_map,
      Option.isSome_map]
  rw [Field.addRequired_eq, undeclaredNames]
  simp only [hdeclares]

/-- The bounds that the rules up to a point have read. -/
def memberBoundsRead (schema : Entries) (done : List KindRule) : Bounds where
  least := if .minProperties ∈ done then Entries.given? schema "minProperties" else none
  most := if .maxProperties ∈ done then Entries.given? schema "maxProperties" else none

/-- An object and nothing around it, with the fields and the policy that have been read. -/
def BareObject (convert : Value → Except CompileError Validator) (schema : Entries) (done : List KindRule)
    (vd : Validator) : Prop :=
  ∃ fields additional, vd = .object fields additional (memberBoundsRead schema done) ∧
    if .properties ∈ done then BuiltObject convert schema fields additional else fields = [] ∧ additional = .passthrough

theorem bareObject_other (h : rule ∉ KindRule.ofObjects) {vd : Validator} (hvd : BareObject convert schema before vd) :
    BareObject convert schema (before ++ [rule]) vd := by
  have hne : ∀ other ∈ KindRule.ofObjects, other ≠ rule := fun other hother heq => h (heq ▸ hother)
  simpa [BareObject, memberBoundsRead, hne .minProperties (by decide), hne .maxProperties (by decide),
    hne .properties (by decide)] using hvd

/-- **Before the fields are read, there is nothing that an object could lose.** -/
theorem bareObject_empty (hall : before ++ .properties :: after = KindRule.all) {vd : Validator}
    (hvd : BareObject convert schema before vd) : vd = .object [] .passthrough {} := by
  obtain ⟨fields, additional, rfl, hread⟩ := hvd
  rw [KindRule.eq_takeWhile hall] at hread ⊢
  rw [if_neg (by decide)] at hread
  obtain ⟨rfl, rfl⟩ := hread
  rfl

/-- A bound is read where it is given. -/
theorem admits_memberBoundSteps {keyword : String} {given : Value → Bounds}
    (h : slots.Admits .object (BareObject convert schema before))
    (hproperties : rule ≠ .properties)
    (hnone : Entries.given? schema keyword = none →
      memberBoundsRead schema before = memberBoundsRead schema (before ++ [rule]))
    (hsome : ∀ limit, Entries.given? schema keyword = some limit →
      Validator.replaceBounds (memberBoundsRead schema before) (given limit) = memberBoundsRead schema (before ++ [rule])) :
    (slots.run (memberBoundSteps schema keyword given)).Admits .object (BareObject convert schema (before ++ [rule])) := by
  have hmem : KindRule.properties ∈ before ++ [rule] ↔ KindRule.properties ∈ before := by simp [Ne.symm hproperties]
  unfold memberBoundSteps BareObject
  simp only [hmem]
  split
  next limit hlimit =>
    refine h.update rfl ?_
    rintro _ ⟨fields, additional, rfl, hread⟩
    exact ⟨fields, additional, hsome limit hlimit ▸ rfl, hread⟩
  next hlimit =>
    rw [← hnone hlimit]
    exact h

theorem admits_propertiesSteps (h : slots.Admits .object (· = .object [] .passthrough {})) :
    Answers False (propertiesSteps convert slots schema) fun steps =>
      (slots.run steps).Admits .object fun vd => ∃ fields additional, vd = .object fields additional {} ∧
        BuiltObject convert schema fields additional := by
  have hholds : HoldsObject slots [] .passthrough {} (slots.admitted? .object).isSome := by
    unfold HoldsObject
    cases hvd : slots.admitted? .object with
    | none => rfl
    | some vd => rw [h vd hvd]; rfl
  refine (holds_propertiesSteps hholds).mono ?_
  rintro steps ⟨fields, additional, hheld, hbuilt⟩ vd hvd
  unfold HoldsObject at hheld
  rw [hheld] at hvd
  split at hvd
  next hb => exact ⟨fields, additional, (Option.some.inj hvd).symm, hbuilt hb⟩
  next => cases hvd

/-- **What a rule leaves in the slot of objects** is an object by itself. -/
theorem object_step [Pattern.Engine] (hall : before ++ rule :: after = KindRule.all)
    (hinitial : rule = .const → slots = .initial) (h : slots.Admits .object (BareObject convert schema before)) :
    Answers False (rule.steps (fun _ => .ok ()) convert slots schema) fun steps =>
      (slots.run steps).Admits .object (BareObject convert schema (before ++ [rule])) := by
  by_cases hobjects : rule ∈ KindRule.ofObjects
  · cases rule with
    | properties =>
      have hempty : slots.Admits .object (· = .object [] .passthrough {}) := h.mono fun vd => bareObject_empty hall
      refine (admits_propertiesSteps hempty).mono fun steps hsteps => hsteps.mono ?_
      rintro _ ⟨fields, additional, rfl, hbuilt⟩
      refine ⟨fields, additional, ?_, ?_⟩
      · rw [KindRule.eq_takeWhile hall]
        rfl
      · rw [if_pos (by simp)]
        exact hbuilt
    | maxProperties =>
      refine .pure (admits_memberBoundSteps h (by decide) (fun hnone => ?_) fun limit hlimit => ?_)
      · simp [memberBoundsRead, hnone]
      · simp [memberBoundsRead, Validator.replaceBounds, hlimit]
    | minProperties =>
      refine .pure (admits_memberBoundSteps h (by decide) (fun hnone => ?_) fun limit hlimit => ?_)
      · simp [memberBoundsRead, hnone]
      · simp [memberBoundsRead, Validator.replaceBounds, hlimit]
    | _ => simp [KindRule.ofObjects] at hobjects
  · have hunread : rule = .const ∨ rule ∈ KindRule.opening ∨ Kind.object ∉ rule.kinds := by
      revert hobjects
      cases rule <;> decide
    refine (admits_unread (v := .dict []) rfl rfl rfl hunread hinitial h).mono fun steps hsteps => hsteps.mono ?_
    exact fun vd => bareObject_other hobjects

/-! ## Runs -/

/-- What is known of the slots of arrays and objects after some of the rules. -/
structure ChainRead (convert : Value → Except CompileError Validator) (schema : Entries) (done : List KindRule)
    (slots : Admissibility) : Prop where
  initial : done = [] → slots = .initial
  array : slots.Admits .array (BareArray (itemBoundsRead schema done))
  object : slots.Admits .object (BareObject convert schema done)

theorem chainRead_initial : ChainRead convert schema [] .initial where
  initial := fun _ => rfl
  array := fun _ hvd => ⟨.any, (Option.some.inj hvd).symm⟩
  object := fun _ hvd => ⟨[], .passthrough, (Option.some.inj hvd).symm, rfl, rfl⟩

theorem chainRead_step [Pattern.Engine] (hall : before ++ rule :: after = KindRule.all)
    (h : ChainRead convert schema before slots) :
    Answers False (rule.steps (fun _ => .ok ()) convert slots schema) fun steps =>
      ChainRead convert schema (before ++ [rule]) (slots.run steps) := by
  have hinitial : rule = .const → slots = .initial := by
    rintro rfl
    exact h.initial (KindRule.eq_takeWhile hall)
  refine ((array_step hall hinitial h.array).and (object_step hall hinitial h.object).meets).mono fun steps hsteps => ?_
  exact ⟨by simp, hsteps.1, hsteps.2⟩

/-- **What any number of rules leaves in the slots of arrays and objects.** -/
theorem chainRead_run [Pattern.Engine] (done rules : List KindRule) (hall : done ++ rules ++ after = KindRule.all)
    (h : ChainRead convert schema done slots) :
    Answers False (KindRule.runAll (fun _ => .ok ()) convert schema rules slots)
      (ChainRead convert schema (done ++ rules)) := by
  induction rules generalizing done slots with
  | nil =>
    rw [List.append_nil]
    exact .pure h
  | cons rule rules ih =>
    rw [KindRule.runAll]
    have hrule : done ++ rule :: (rules ++ after) = KindRule.all := by simpa using hall
    refine .bind (chainRead_step hrule h) fun steps hsteps => ?_
    -- the rule goes over to those that are done
    have hrules := ih (done ++ [rule]) (by simpa using hall) hsteps
    rwa [List.append_assoc, List.singleton_append] at hrules

/-- **The slots of arrays and objects hold nothing else**, from the beginning to the end: an array with the bounds read so
far, and an object with the fields and the bounds read so far. So whatever a rule puts into them is put into an array or
an object, and the object that gives way to one with fields has nothing to lose. In the end the bounds are those of the
keywords, and the fields are those of the properties and behind them those of the required names that are none. -/
theorem slots_stay_bare [Pattern.Engine] (hall : before ++ after = KindRule.all)
    (hrun : KindRule.runAll (fun _ => .ok ()) convert schema before .initial = .ok slots) :
    (slots .array).Bare .array (BareArray (itemBoundsRead schema before)) ∧
      (slots .object).Bare .object (BareObject convert schema before) ∧
      (∀ vd, slots.admitted? .array = some vd →
        (∀ new, ∃ element,
          withItemBounds new vd = .array element (Validator.replaceBounds (itemBoundsRead schema before) new)) ∧
        ∀ element, withElement element vd = .array element (itemBoundsRead schema before)) ∧
      (∀ vd, slots.admitted? .object = some vd →
        (∀ new, ∃ fields additional, withMemberBounds new vd =
          .object fields additional (Validator.replaceBounds (memberBoundsRead schema before) new)) ∧
        ∀ rest, after = .properties :: rest →
          vd = .object [] .passthrough {} ∧ ∀ built, joinObject built vd = built) ∧
      (after = [] →
        (∀ vd, slots .array = .holds vd → ∃ element, vd = .array element
          ⟨Entries.given? schema "minItems",
            if noItems schema then some (.int 0) else Entries.given? schema "maxItems"⟩) ∧
        ∀ vd, slots .object = .holds vd → ∃ done additional,
          Visits (mappedSchemas schema "properties") (fun e c => convert e.2 = .ok c) done ∧
          additionalPolicy convert schema = .ok additional ∧
          vd = .object
            ((done.map fun d => .mk d.1.1 ((requiredNames schema).any fun key => d.1.1.isText key) d.2) ++
              (undeclaredNames schema).map Field.ofRequired)
            additional ⟨Entries.given? schema "minProperties", Entries.given? schema "maxProperties"⟩) := by
  have h : ChainRead convert schema before slots :=
    (chainRead_run [] before hall chainRead_initial).meets slots hrun
  refine ⟨h.array.bare rfl, h.object.bare rfl, fun vd hvd => ?_, fun vd hvd => ?_, ?_⟩
  · exact ⟨fun new => bareArray_withItemBounds (h.array vd hvd), bareArray_withElement (h.array vd hvd)⟩
  · have hbare := h.object vd hvd
    constructor
    · intro new
      obtain ⟨fields, additional, rfl, _⟩ := hbare
      exact ⟨fields, additional, rfl⟩
    · rintro rest rfl
      obtain rfl := bareObject_empty hall hbare
      exact ⟨rfl, fun built => rfl⟩
  · rintro rfl
    rw [List.append_nil] at hall
    subst hall
    -- a filled slot is what the next update would start from, if there were one
    have hadmitted : ∀ kind vd, slots kind = .holds vd → slots.admitted? kind = some vd := by
      intro kind vd hslot
      rw [Admissibility.admitted?, Admissibility.current?, hslot]
      rfl
    constructor
    · intro vd hvd
      obtain ⟨element, rfl⟩ := h.array vd (hadmitted .array vd hvd)
      exact ⟨element, by simp [itemBoundsRead, KindRule.all]⟩
    · intro vd hvd
      obtain ⟨fields, additional, rfl, hread⟩ := h.object vd (hadmitted .object vd hvd)
      rw [if_pos (by decide)] at hread
      obtain ⟨done, hdone, rfl⟩ := hread.fields_eq
      exact ⟨done, additional, hdone, hread.policy, rfl⟩

end

attribute [local instance] Pattern.engine

/-- An array without items, and an object that requires a name twice. -/
theorem slots_stay_bare_both :
    let schema : Entries := [(.string "type", .list [.string "array", .string "object"]), (.string "minItems", .int 1),
      (.string "maxItems", .int 5), (.string "items", .bool false), (.string "properties", .dict [(.string "a", .bool true)]),
      (.string "required", .list [.string "b", .string "a", .string "b"]), (.string "maxProperties", .int 3)]
    undeclaredNames schema = ["b"] ∧ noItems schema = true ∧
      ∃ slots, KindRule.runAll (fun _ => .ok ()) compile schema KindRule.all .initial = .ok slots ∧
        slots .array = .holds (.array .any ⟨some (.int 1), some (.int 0)⟩) ∧
        slots .object = .holds (.object [.mk (.string "a") true .any, .mk (.string "b") true .any] .passthrough
          ⟨none, some (.int 3)⟩) ∧
        (slots .array).Bare .array (BareArray (itemBoundsRead schema KindRule.all)) ∧
        (slots .object).Bare .object (BareObject compile schema KindRule.all) := by
  intro schema
  have hslots : (KindRule.runAll (fun _ => .ok ()) compile schema KindRule.all .initial).map
      (fun slots => (slots .array, slots .object)) = .ok (.holds (.array .any ⟨some (.int 1), some (.int 0)⟩),
        .holds (.object [.mk (.string "a") true .any, .mk (.string "b") true .any] .passthrough ⟨none, some (.int 3)⟩)) := by
    with_unfolding_all rfl
  obtain ⟨slots, hrun, hpair⟩ := exists_of_map_eq_ok hslots
  obtain ⟨harray, hobject⟩ := Prod.mk.inj hpair
  have hall : KindRule.all ++ [] = KindRule.all := List.append_nil _
  have hbare := slots_stay_bare hall hrun
  exact ⟨by decide, by decide, slots, hrun, harray, hobject, hbare.1, hbare.2.1⟩

end Schemata
