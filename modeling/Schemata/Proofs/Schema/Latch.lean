import Schemata.Proofs.Schema.Admission

/-!
# `Schemata.Proofs.Schema.Latch` — what any run of steps leaves in the slots

Rules may come with any steps in any order, and each kind has its slot. What a run makes of a slot is decided by a few
facts about single steps: only some steps disable, nothing is enabled again, and a slot that has been decided, by a
validator or by disabling, is never open again. So the admitted kinds do not depend on the order of the steps
(`admitted_run_perm`). The kinds without a default validator, tuples and files, get one only from a step that sets it.

## Contents
- **Steps.** `Step.sets`, `isOpen_apply` and `isFilled_apply`.
- **Runs.** `isOpen_run`, `isFilled_run` and `admitted_run_perm`, and `run_slots` for what a run leaves in fresh slots.
-/

namespace Schemata

/-! ## Steps -/

/-- Whether a step sets the validator of a kind. -/
def Step.sets (kind : Kind) : Step → Bool
  | .set k _ => k == kind
  | _ => false

/-- Whether a slot has a validator. -/
def Slot.isFilled (slot : Slot) : Bool := slot.validator?.isSome

theorem Slot.isDisabled_iff {slot : Slot} : slot.isDisabled = true ↔ slot = .disabled := by
  cases slot <;> simp [isDisabled]

theorem Slot.isFilled_iff {slot : Slot} : slot.isFilled = true ↔ ∃ vd, slot = .holds vd := by
  cases slot <;> simp [isFilled, validator?]

/-- A slot that is not open is disabled or has a validator. -/
theorem Slot.isOpen_eq (slot : Slot) : slot.isOpen = !(slot.isDisabled || slot.isFilled) := by
  cases slot <;> rfl

namespace Admissibility

variable {slots : Admissibility} {kind : Kind}

/-- **A slot is decided once:** no step opens it again. -/
theorem isOpen_apply (h : (slots kind).isOpen = false) (step : Step) : (slots.apply step kind).isOpen = false := by
  by_cases htouches : step.touches kind = true
  · cases step with
    | set k vd =>
      obtain rfl : k = kind := by simpa [Step.touches] using htouches
      rw [apply]
      split
      · exact h
      · rw [fill_self]
        rfl
    | disable k =>
      obtain rfl : k = kind := by simpa [Step.touches] using htouches
      rw [apply, fill_self]
      rfl
    | disableAllExcept kinds =>
      have hmem : kinds.contains kind = false := by simpa [Step.touches] using htouches
      simp only [apply, hmem]
      rfl
    | markPending k =>
      obtain rfl : k = kind := by simpa [Step.touches] using htouches
      rw [apply]
      cases hslot : slots k <;> simp_all [Slot.isOpen]
    | update k build =>
      obtain rfl : k = kind := by simpa [Step.touches] using htouches
      rw [apply]
      split
      · exact h
      · cases slots.current? k with
        | some vd => exact congrArg Slot.isOpen (fill_self _)
        | none => exact h
    | settle k =>
      obtain rfl : k = kind := by simpa [Step.touches] using htouches
      rw [apply, if_neg (by simp [h])]
      exact h
  · rwa [apply_other (Bool.not_eq_true _ ▸ htouches)]

/-- An enabled slot of a kind without a default validator gets a validator only if one is set. -/
theorem isFilled_apply (hdefault : defaultValidator? kind = none) (henabled : (slots kind).isDisabled = false) {step : Step}
    (hstep : step.disables kind = false) :
    (slots.apply step kind).isFilled = ((slots kind).isFilled || step.sets kind) := by
  by_cases htouches : step.touches kind = true
  · cases step with
    | set k vd =>
      obtain rfl : k = kind := by simpa [Step.touches] using htouches
      rw [apply, if_neg (by simp [henabled]), fill_self, Step.sets, beq_self_eq_true, Bool.or_true]
      rfl
    | disable k => exact absurd (htouches.symm.trans hstep) Bool.noConfusion
    | disableAllExcept kinds => exact absurd (htouches.symm.trans hstep) Bool.noConfusion
    | markPending k =>
      obtain rfl : k = kind := by simpa [Step.touches] using htouches
      cases hslot : slots k <;> simp [apply, hslot, Step.sets, Slot.isFilled, Slot.validator?]
    | update k build =>
      obtain rfl : k = kind := by simpa [Step.touches] using htouches
      cases hslot : slots k <;>
        simp_all [apply, current?, Step.sets, Slot.isFilled, Slot.validator?, Slot.isDisabled]
    | settle k =>
      obtain rfl : k = kind := by simpa [Step.touches] using htouches
      simp [apply, hdefault, Step.sets]
  · rw [Bool.not_eq_true] at htouches
    have hsets : step.sets kind = false := by
      cases step with
      | set k vd => exact htouches
      | _ => rfl
    rw [apply_other htouches, hsets, Bool.or_false]

/-! ## Runs -/

theorem run_append (slots : Admissibility) (steps later : List Step) :
    slots.run (steps ++ later) = (slots.run steps).run later := List.foldl_append

theorem isOpen_run (h : (slots kind).isOpen = false) (steps : List Step) : (slots.run steps kind).isOpen = false := by
  induction steps generalizing slots with
  | nil => exact h
  | cons step steps ih => exact ih (isOpen_apply h step)

theorem isFilled_run (hdefault : defaultValidator? kind = none) (henabled : (slots kind).isDisabled = false)
    {steps : List Step} (hsteps : steps.any (Step.disables kind) = false) :
    (slots.run steps kind).isFilled = ((slots kind).isFilled || steps.any (Step.sets kind)) := by
  induction steps generalizing slots with
  | nil => exact (Bool.or_false _).symm
  | cons step steps ih =>
    obtain ⟨hstep, hrest⟩ : step.disables kind = false ∧ steps.any (Step.disables kind) = false := by
      simpa [List.any_cons] using hsteps
    have hnext : (slots.apply step kind).isDisabled = false := by rw [isDisabled_apply_eq, henabled, hstep, Bool.or_false]
    rw [List.any_cons, ← Bool.or_assoc, ← isFilled_apply hdefault henabled hstep]
    exact ih hnext hrest

/-- **The admitted kinds do not depend on the order of steps.** -/
theorem admitted_run_perm (slots : Admissibility) {steps steps' : List Step} (h : steps.Perm steps') :
    (slots.run steps').admitted.map Prod.fst = (slots.run steps).admitted.map Prod.fst := by
  have hkinds : ∀ slots : Admissibility,
      slots.admitted.map Prod.fst = Kind.all.filter fun kind => !(slots kind).isDisabled := by
    intro slots
    rw [admitted, List.filter_map, List.map_map]
    exact List.map_id _
  rw [hkinds, hkinds]
  refine List.filter_congr fun kind _ => ?_
  rw [isDisabled_run_eq, isDisabled_run_eq, h.any_eq]

/-- A run disables a kind of fresh slots if one of its steps does. -/
theorem run_eq_disabled_iff (steps : List Step) (kind : Kind) :
    initial.run steps kind = .disabled ↔ ∃ step ∈ steps, step.disables kind = true := by
  rw [← Slot.isDisabled_iff, isDisabled_run_eq, show (initial kind).isDisabled = false from rfl, Bool.false_or,
    List.any_eq_true]

/-- A run gives a validator to a kind without a default one if one of its steps sets it and none disables the kind. -/
theorem run_eq_holds_iff (hdefault : defaultValidator? kind = none) (steps : List Step) :
    (∃ vd, initial.run steps kind = .holds vd) ↔
      ∃ before vd after, steps = before ++ .set kind vd :: after ∧ ∀ step ∈ steps, step.disables kind = false := by
  by_cases hany : steps.any (Step.disables kind) = true
  · -- neither side holds of a disabled kind
    obtain ⟨step, hmem, hstep⟩ := List.any_eq_true.mp hany
    have hslot := (run_eq_disabled_iff steps kind).mpr ⟨step, hmem, hstep⟩
    constructor
    · rintro ⟨vd, hvd⟩
      rw [hslot] at hvd
      cases hvd
    · rintro ⟨_, _, _, _, hnone⟩
      rw [hnone step hmem] at hstep
      cases hstep
  · have hnone : ∀ step ∈ steps, step.disables kind = false := by simpa using hany
    have hfilled : (initial.run steps kind).isFilled = ((initial kind).isFilled || steps.any (Step.sets kind)) :=
      isFilled_run hdefault rfl (Bool.not_eq_true _ ▸ hany)
    rw [show (initial kind).isFilled = false from rfl, Bool.false_or] at hfilled
    rw [← Slot.isFilled_iff, hfilled, List.any_eq_true]
    constructor
    · rintro ⟨step, hmem, hsets⟩
      cases step with
      | set k vd =>
        obtain rfl : k = kind := by simpa [Step.sets] using hsets
        obtain ⟨before, after, hsplit⟩ := List.append_of_mem hmem
        exact ⟨before, vd, after, hsplit, hnone⟩
      | _ => cases hsets
    · rintro ⟨before, vd, after, hsplit, _⟩
      exact ⟨.set kind vd, hsplit ▸ List.mem_append_right _ List.mem_cons_self, beq_self_eq_true kind⟩

/-- **What a run leaves in the slots.** After any steps from fresh slots: a kind is disabled if and only if some step
disables it, the admitted kinds are the same after the steps in any other order, and the slot of a kind that some step
disables does not change any more, whatever follows. A slot with a validator has one forever or is disabled. Tuples and
files have a validator if and only if some step sets one and none disables the kind; so the step that sets it comes
before any that disables. A step that sets, updates, disables or marks one kind leaves the other slots as they are. -/
theorem run_slots (steps : List Step) :
    (∀ kind, initial.run steps kind = .disabled ↔ ∃ step ∈ steps, step.disables kind = true) ∧
      (∀ steps', steps.Perm steps' →
        (initial.run steps').admitted.map Prod.fst = (initial.run steps).admitted.map Prod.fst) ∧
      (∀ kind later, (∃ step ∈ steps, step.disables kind = true) →
        initial.run (steps ++ later) kind = initial.run steps kind) ∧
      (∀ kind vd later, initial.run steps kind = .holds vd →
        initial.run (steps ++ later) kind = .disabled ∨ ∃ vd', initial.run (steps ++ later) kind = .holds vd') ∧
      (∀ kind ∈ [Kind.tuple, .file], (∃ vd, initial.run steps kind = .holds vd) ↔
        ∃ before vd after, steps = before ++ .set kind vd :: after ∧ ∀ step ∈ steps, step.disables kind = false) ∧
      ∀ kind vd build, ∀ step ∈ [Step.set kind vd, .update kind build, .disable kind, .markPending kind],
        ∀ other, other ≠ kind → initial.run (steps ++ [step]) other = initial.run steps other := by
  refine ⟨run_eq_disabled_iff steps, fun steps' => admitted_run_perm initial, fun kind later hstep => ?_,
    fun kind vd later hholds => ?_, fun kind hkind => ?_, fun kind vd build step hstep other hother => ?_⟩
  · obtain ⟨step, hmem, hdisables⟩ := hstep
    rw [(run_eq_disabled_iff steps kind).mpr ⟨step, hmem, hdisables⟩, run_eq_disabled_iff]
    exact ⟨step, List.mem_append_left _ hmem, hdisables⟩
  · have hdecided : (initial.run (steps ++ later) kind).isOpen = false := by
      rw [run_append]
      exact isOpen_run (by rw [hholds]; rfl) later
    rwa [Slot.isOpen_eq, Bool.not_eq_false', Bool.or_eq_true, Slot.isDisabled_iff, Slot.isFilled_iff] at hdecided
  · refine run_eq_holds_iff ?_ steps
    rcases List.mem_pair.mp hkind with rfl | rfl <;> rfl
  · rw [run_append]
    refine apply_other ?_
    simp only [List.mem_cons, List.not_mem_nil, or_false] at hstep
    rcases hstep with rfl | rfl | rfl | rfl <;> exact beq_false_of_ne hother.symm

/-- A validator that is set for tuples after they are disabled is not taken, nor is an update of files. -/
theorem run_slots_tuple :
    let steps := [Step.disable .tuple, .set .tuple .any, .update .file id, .set .string .string]
    initial.run (steps ++ [.set .tuple .string]) .tuple = initial.run steps .tuple ∧
      ¬ ∃ vd, initial.run steps .file = .holds vd := by
  intro steps
  obtain ⟨_, _, hlatched, _, hspecial, _⟩ := run_slots steps
  refine ⟨hlatched .tuple _ ⟨.disable .tuple, List.mem_cons_self, rfl⟩, fun hholds => ?_⟩
  obtain ⟨before, vd, after, hsplit, _⟩ := (hspecial .file (by simp)).mp hholds
  have hmem : Step.set .file vd ∈ steps := hsplit ▸ List.mem_append_right _ List.mem_cons_self
  simp [steps] at hmem

end Admissibility

end Schemata
