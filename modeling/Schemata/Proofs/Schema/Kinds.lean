import Schemata.Proofs.Schema.Slots
import Schemata.Proofs.Validator.Decision
import Schemata.Proofs.Value.Kind

/-!
# `Schemata.Proofs.Schema.Kinds` — what the slots say about a value

Every kind that is not disabled speaks through one validator: that of its slot, or the default one. What a slot says
about values of other kinds is always no, so the joined validator says what the slot for the kind of the value says;
lists have two slots, one of arrays and one of tuples.

## Contents
- **Validators of kinds.** `Admissibility.admitted?`, and how a step changes it.
- **Other kinds.** `foreign_refused`: a validator in a slot refuses what is not of its kind.
- **Joining.** `Says`, and `decides_assemble`.
-/

namespace Schemata

/-! ## Validators of kinds -/

namespace Admissibility

/-- The validator through which a kind speaks. -/
def admitted? (slots : Admissibility) (kind : Kind) : Option Validator :=
  if (slots kind).isDisabled then none else slots.current? kind

theorem validators_eq (slots : Admissibility) :
    slots.validators = Kind.all.filterMap fun kind => (slots.admitted? kind).map fun vd => (kind, vd) := by
  rw [validators, admitted, List.filterMap_filter, List.filterMap_map]
  refine List.filterMap_congr fun kind _ => ?_
  unfold admitted? current?
  cases hdisabled : (slots kind).isDisabled <;> simp [hdisabled]

end Admissibility

namespace Step

/-- Whether a step may change the slot of a kind. -/
def touches (kind : Kind) : Step → Bool
  | .set k _ => k == kind
  | .disable k => k == kind
  | .disableAllExcept kinds => !kinds.contains kind
  | .markPending k => k == kind
  | .update k _ => k == kind
  | .settle k => k == kind

/-- What a step makes of the validator through which a kind with a default speaks. -/
def act (kind : Kind) (step : Step) (vd? : Option Validator) : Option Validator :=
  match step with
  | .set k vd => if k = kind then vd?.map fun _ => vd else vd?
  | .disable k => if k = kind then none else vd?
  | .disableAllExcept kinds => if kinds.contains kind then vd? else none
  | .markPending _ => vd?
  | .update k build => if k = kind then vd?.map build else vd?
  | .settle _ => vd?

end Step

namespace Admissibility

variable {slots : Admissibility} {kind : Kind}

@[simp] theorem fill_self (slot : Slot) : slots.fill kind slot kind = slot := if_pos rfl

theorem fill_ne {k : Kind} (h : k ≠ kind) (slot : Slot) : slots.fill k slot kind = slots kind := if_neg (Ne.symm h)

/-- A step leaves the slots alone that it does not touch. -/
theorem apply_other {step : Step} (h : step.touches kind = false) : slots.apply step kind = slots kind := by
  have hne : ∀ {k}, (k == kind) = false → k ≠ kind := fun hk => by simpa using hk
  cases step with
  | set k vd =>
    rw [apply]
    split
    · rfl
    · exact fill_ne (hne h) _
  | disable k => exact fill_ne (hne h) _
  | disableAllExcept kinds =>
    have hmem : kinds.contains kind = true := by simpa [Step.touches] using h
    rw [apply]
    exact if_pos hmem
  | markPending k =>
    rw [apply]
    cases slots k with
    | unset => exact fill_ne (hne h) _
    | _ => rfl
  | update k build =>
    rw [apply]
    split
    · rfl
    · cases slots.current? k with
      | some vd => exact fill_ne (hne h) _
      | none => rfl
  | settle k =>
    rw [apply]
    split
    · cases defaultValidator? k with
      | some vd => exact fill_ne (hne h) _
      | none => rfl
    · rfl

theorem run_other {steps : List Step} (h : ∀ step ∈ steps, step.touches kind = false) :
    slots.run steps kind = slots kind := by
  induction steps generalizing slots with
  | nil => rfl
  | cons step steps ih =>
    obtain ⟨hstep, hsteps⟩ := List.forall_mem_cons.mp h
    exact (ih hsteps).trans (apply_other hstep)

theorem admitted?_congr {slots' : Admissibility} (h : slots' kind = slots kind) :
    slots'.admitted? kind = slots.admitted? kind := by
  simp only [admitted?, current?, h]

/-- **What a step makes of the validator of a kind.** -/
theorem admitted?_apply (hdefault : (defaultValidator? kind).isSome = true) (step : Step) :
    (slots.apply step).admitted? kind = step.act kind (slots.admitted? kind) := by
  obtain ⟨default, hdefault⟩ := Option.isSome_iff_exists.mp hdefault
  by_cases htouches : step.touches kind = true
  -- the step is about this kind: what it does depends on what the slot holds
  · cases step with
    | set k vd =>
      obtain rfl : k = kind := by simpa [Step.touches] using htouches
      cases hslot : slots k <;>
        simp [apply, Step.act, admitted?, current?, Slot.isDisabled, Slot.validator?, hslot, hdefault]
    | disable k =>
      obtain rfl : k = kind := by simpa [Step.touches] using htouches
      simp [apply, Step.act, admitted?, Slot.isDisabled]
    | disableAllExcept kinds =>
      have hmem : kinds.contains kind = false := by simpa [Step.touches] using htouches
      simp only [apply, Step.act, admitted?, hmem]
      rfl
    | markPending k =>
      obtain rfl : k = kind := by simpa [Step.touches] using htouches
      cases hslot : slots k <;> simp [apply, Step.act, admitted?, current?, Slot.isDisabled, Slot.validator?, hslot]
    | update k build =>
      obtain rfl : k = kind := by simpa [Step.touches] using htouches
      cases hslot : slots k <;>
        simp [apply, Step.act, admitted?, current?, Slot.isDisabled, Slot.validator?, hslot, hdefault]
    | settle k =>
      obtain rfl : k = kind := by simpa [Step.touches] using htouches
      cases hslot : slots k <;>
        simp [apply, Step.act, admitted?, current?, Slot.isDisabled, Slot.isOpen, Slot.validator?, hslot, hdefault]
  · rw [Bool.not_eq_true] at htouches
    rw [admitted?_congr (apply_other htouches)]
    cases step with
    | disableAllExcept kinds =>
      have hmem : kinds.contains kind = true := by simpa [Step.touches] using htouches
      exact (if_pos hmem).symm
    | markPending k => rfl
    | settle k => rfl
    | set k vd | disable k | update k build =>
      have hne : k ≠ kind := by simpa [Step.touches] using htouches
      exact (if_neg hne).symm

theorem admitted?_run (hdefault : (defaultValidator? kind).isSome = true) (steps : List Step) :
    (slots.run steps).admitted? kind = steps.foldl (fun vd? step => step.act kind vd?) (slots.admitted? kind) := by
  induction steps generalizing slots with
  | nil => rfl
  | cons step steps ih =>
    rw [List.foldl_cons, ← admitted?_apply hdefault]
    exact ih

/-- **Disabling is final.** -/
theorem isDisabled_apply (h : (slots kind).isDisabled = true) (step : Step) :
    (slots.apply step kind).isDisabled = true := by
  by_cases htouches : step.touches kind = true
  · have hslot : slots kind = .disabled := by
      cases hcase : slots kind with
      | disabled => rfl
      | _ => rw [hcase] at h; cases h
    cases step with
    | disableAllExcept kinds =>
      have hmem : kinds.contains kind = false := by simpa [Step.touches] using htouches
      simp only [apply, hmem]
      rfl
    | set k vd | disable k | markPending k | update k build | settle k =>
      obtain rfl : k = kind := by simpa [Step.touches] using htouches
      simp [apply, hslot, Slot.isDisabled, Slot.isOpen]
  · rwa [apply_other (Bool.not_eq_true _ ▸ htouches)]

theorem isDisabled_run (h : (slots kind).isDisabled = true) (steps : List Step) :
    (slots.run steps kind).isDisabled = true := by
  induction steps generalizing slots with
  | nil => exact h
  | cons step steps ih => exact ih (isDisabled_apply h step)

/-- Only a disabled kind with a default has no validator to speak through. -/
theorem isDisabled_eq (hdefault : (defaultValidator? kind).isSome = true) :
    (slots kind).isDisabled = (slots.admitted? kind).isNone := by
  obtain ⟨default, hdefault⟩ := Option.isSome_iff_exists.mp hdefault
  cases hslot : slots kind <;> simp [admitted?, current?, Slot.isDisabled, Slot.validator?, hslot, hdefault]

end Admissibility

/-! ## Other kinds -/

section

variable {sure : Prop}

/-- What refuses the values of other kinds. -/
def RefusesOthers (sure : Prop) (kind : Kind) (vd : Validator) : Prop :=
  ∀ w : Value, tagAdmits kind.name w.kind = false → Decides sure vd w false

theorem RefusesOthers.refuses {kind : Kind} {vd : Validator} (h : RefusesOthers sure kind vd) {v : Value}
    (htag : tagAdmits kind.name v.kind = false) (path : Pointer) : Answers sure (vd.check v path) fun r => r.ok = false :=
  (h v htag path).mono fun _ hr => hr.1

theorem refusesOthers_default {kind : Kind} {vd : Validator} (h : defaultValidator? kind = some vd) :
    RefusesOthers sure kind vd := by
  intro w hw
  refine .reject fun path => ?_
  cases kind with
  | tuple => cases h
  | file => cases h
  | _ =>
    obtain rfl := Option.some.inj h
    cases w <;> first | exact ⟨_, rfl⟩ | cases hw

theorem refusesOthers_literal {kind : Kind} {members : List Value} (hne : members ≠ [])
    (h : ∀ w ∈ members, w.literalKind = some kind ∧ (sure → w.isWritable = true)) :
    RefusesOthers sure kind (literalValidator kind members) := by
  intro w hw
  -- the absent value is compared with nothing: literals report that it is missing
  by_cases habsent : w = .absent
  · subst habsent
    refine .reject fun path => ?_
    unfold literalValidator
    split <;> exact ⟨_, rfl⟩
  have hdiffers : ∀ member ∈ members, w.equal member = false := by
    intro member hmember
    rw [Bool.eq_false_iff]
    intro hequal
    have hkind := (Value.kind_eq_of_equal hequal).trans (Value.kind_of_literalKind (h member hmember).1)
    rw [tagAdmits_of_kind hkind] at hw
    cases hw
  unfold literalValidator
  split
  · exact refusesOthers_default rfl w hw
  next value _ =>
    have hliteral := Decides.literal habsent (h value List.mem_cons_self).2
    rwa [hdiffers value List.mem_cons_self] at hliteral
  · have henum := Decides.enumeration habsent fun member hmember => (h member hmember).2
    rwa [List.any_eq_false.mpr fun member hmember => by simp [hdiffers member hmember]] at henum

/-- **A validator in a slot refuses the values of other kinds.** -/
theorem foreign_refused : SlotInvariant { literal := fun w => sure → w.isWritable = true } (RefusesOthers sure) where
  default := fun _ _ h => refusesOthers_default h
  literal := fun _ _ hne h => refusesOthers_literal hne h
  refined := by
    intro kind vd test message _ _ h w hw
    exact (h w hw).refined (c := false) (by simp) message
  sized := by
    intro kind vd relation limit message _ _ _ h w hw
    exact (h w hw).refined (c := false) (by simp) message
  both := by
    intro kind left right hleft hright w hw
    exact (hleft w hw).both (by simp) (hright w hw)
  file := by
    intro limits _ _ w hw
    refine .reject fun path => ?_
    -- an upload that reports no media type is not taken for a file and has no kind
    cases w with
    | file f =>
      cases hfile : f.isFile with
      | true => simp [Value.kind, hfile, tagAdmits, Kind.name] at hw
      | false =>
        refine ⟨wrongType "file" (.file f), ?_⟩
        show (if !f.isFile then _ else _) = _
        rw [hfile]
        rfl
    | _ => exact ⟨_, rfl⟩
  passes := trivial
  array := by
    intro element _ w hw
    refine .reject (Validator.check_array_other ?_ element {})
    cases w <;> first | rfl | cases hw
  arrayElement := by
    intro old element bounds _ _ w hw
    refine .reject (Validator.check_array_other ?_ element bounds)
    cases w <;> first | rfl | cases hw
  arrayBounds := by
    intro element old new _ _ w hw
    refine .reject (Validator.check_array_other ?_ element _)
    cases w <;> first | rfl | cases hw
  tuple := by
    intro items rest bounds _ _ _ w hw
    refine .reject (Validator.check_tuple_other ?_ items rest bounds)
    cases w <;> first | rfl | cases hw
  object := by
    intro fields additional _ _ _ w hw
    refine .reject (Validator.check_object_other ?_ fields additional {})
    cases w <;> first | rfl | cases hw
  objectBounds := by
    intro fields additional old new _ _ w hw
    refine .reject (Validator.check_object_other ?_ fields additional _)
    cases w <;> first | rfl | cases hw

/-! ## Joining -/

/-- What is said through a validator: what it decides, and no if there is none. -/
def Speaks (sure : Prop) (vd? : Option Validator) (v : Value) (b : Bool) : Prop :=
  match vd? with
  | none => b = false
  | some vd => Decides sure vd v b

/-- What a kind says about a value. -/
def Says (sure : Prop) (slots : Admissibility) (v : Value) (kind : Kind) (b : Bool) : Prop :=
  Speaks sure (slots.admitted? kind) v b

variable {slots : Admissibility} {v : Value}

/-- What is said through a validator built from another. -/
theorem Speaks.map {vd? : Option Validator} {b c : Bool} (h : Speaks sure vd? v b) {build : Validator → Validator}
    (hbuild : ∀ vd, vd? = some vd → Decides sure vd v b → Decides sure (build vd) v (b && c)) :
    Speaks sure (vd?.map build) v (b && c) := by
  cases vd? with
  | none =>
    rw [show b = false from h]
    exact Bool.false_and c
  | some vd => exact hbuild vd rfl h

theorem Says.of_eq {slots' : Admissibility} {kind : Kind} {b : Bool} (h : Says sure slots v kind b)
    (heq : slots'.admitted? kind = slots.admitted? kind) : Says sure slots' v kind b := by
  rw [Says, heq]
  exact h

/-- Kinds that a value is not of say no. -/
theorem says_other (hslots : slots.Keep (RefusesOthers sure)) {kind : Kind}
    (h : tagAdmits kind.name v.kind = false) : Says sure slots v kind false := by
  unfold Says Speaks Admissibility.admitted?
  cases hdisabled : (slots kind).isDisabled with
  | true => rfl
  | false =>
    simp only [Bool.false_eq_true, if_false]
    cases hcurrent : slots.current? kind with
    | none => trivial
    | some vd => exact hslots.current foreign_refused hcurrent v h

/-- **The joined validator accepts what some kind says yes to**, unless nothing has been said at all. -/
theorem decides_assemble {said : Kind → Bool} (hsaid : ∀ kind, Says sure slots v kind (said kind))
    (hother : ∀ kind, tagAdmits kind.name v.kind = false → said kind = false) (schema : Entries) :
    (slots.assemble schema = .any ∧ hasConstraints schema = false) ∨
      Decides sure (slots.assemble schema) v (Kind.all.any said) := by
  have hdecides : ∀ o ∈ slots.validators, Decides sure o.2 v (said o.1) := by
    rw [Admissibility.validators_eq]
    intro o ho
    obtain ⟨kind, _, heq⟩ := List.mem_filterMap.mp ho
    obtain ⟨vd, hvd, rfl⟩ := Option.map_eq_some_iff.mp heq
    have hkind := hsaid kind
    rw [Says, hvd] at hkind
    exact hkind
  have hany : (slots.validators.any fun o => said o.1) = Kind.all.any said := by
    rw [Admissibility.validators_eq, List.any_filterMap]
    refine List.any_congr rfl fun kind => ?_
    have hkind := hsaid kind
    unfold Says Speaks at hkind
    cases hadmitted : slots.admitted? kind with
    | none => rw [hadmitted] at hkind; simp [show said kind = false from hkind]
    | some vd => simp
  unfold Admissibility.assemble
  -- no kind speaks, one does, or several are joined
  split
  next hnone =>
    rw [hnone] at hany
    exact .inr (hany ▸ .reject fun path => ⟨_, rfl⟩)
  next kind vd hone =>
    rw [hone] at hany hdecides
    simp only [List.any_cons, List.any_nil, Bool.or_false] at hany
    exact .inr (hany ▸ hdecides _ List.mem_cons_self)
  next hnone _ =>
    split
    · exact .inr (hany ▸ .union_tagged hnone hdecides hother)
    next hconstraints => exact .inl ⟨rfl, by simpa using hconstraints⟩

end

end Schemata
