import Schemata.Proofs.Validator.Leaves

/-!
# `Schemata.Proofs.Validator.Parts` — all validators inside a validator

Beside the validators whose outputs become part of its own, a refinement has those in its condition. A property that
holds throughout a validator holds of all of them, at any depth.

## Contents
- **Parts.** `Test.validators`, `Validator.parts`, `inductionOnParts`, and `Inside`.
- **Properties.** `Throughout`, with `Throughout.leaf` for validators without parts.
-/

namespace Schemata

/-! ## Parts -/

/-- The validator of a rule. -/
def PatternRule.validator : PatternRule → Validator
  | .mk _ validator => validator

theorem Additional.forall_mem_validator {holds : Validator → Prop} {additional : Additional}
    (h : ∀ c, additional = .checked c → holds c) : ∀ c ∈ additional.validator?.toList, holds c := by
  intro c hc
  cases additional with
  | checked d => exact List.mem_singleton.mp hc ▸ h d rfl
  | strict => cases hc
  | passthrough => cases hc

/-- The validators in a condition. -/
def Test.validators : Test → List Validator
  | .positions items extra => items ++ extra.validator?.toList
  | .counted item _ _ => [item]
  | .patterns rules _ others => rules.map PatternRule.validator ++ others.validator?.toList
  | .rejectedBy negated => [negated]
  | _ => []

namespace Validator

/-- The validators inside a validator. -/
def parts : Validator → List Validator
  | .refined inner test _ => inner :: test.validators
  | vd => vd.children

theorem sizeOf_additional_lt {additional : Additional} {c : Validator} (h : c ∈ additional.validator?.toList) :
    sizeOf c < sizeOf additional := by
  cases additional with
  | checked validator => simp [Additional.validator?] at h; subst h; simp
  | strict => simp [Additional.validator?] at h
  | passthrough => simp [Additional.validator?] at h

theorem sizeOf_validators_lt {test : Test} {c : Validator} (h : c ∈ test.validators) : sizeOf c < sizeOf test := by
  cases test with
  | positions items extra =>
    rcases List.mem_append.mp h with h | h
    · have := List.sizeOf_lt_of_mem h
      simp; omega
    · have := sizeOf_additional_lt h
      simp; omega
  | counted item least most => simp [Test.validators] at h; subst h; simp; omega
  | patterns rules declared others =>
    rcases List.mem_append.mp h with h | h
    · obtain ⟨⟨pattern, validator⟩, hrule, rfl⟩ := List.mem_map.mp h
      have := List.sizeOf_lt_of_mem hrule
      simp [PatternRule.validator] at this ⊢; omega
    · have := sizeOf_additional_lt h
      simp; omega
  | rejectedBy negated => simp [Test.validators] at h; subst h; simp
  | _ => simp [Test.validators] at h

theorem children_subset_parts (vd : Validator) : vd.children ⊆ vd.parts := by
  cases vd with
  | refined inner test message => exact fun c hc => List.mem_singleton.mp hc ▸ List.mem_cons_self
  | _ => exact List.Subset.refl _

theorem sizeOf_parts_lt {vd c : Validator} (h : c ∈ vd.parts) : sizeOf c < sizeOf vd := by
  cases vd with
  | refined inner test message =>
    rcases List.mem_cons.mp h with rfl | h
    · simp; omega
    · have := sizeOf_validators_lt h
      simp; omega
  | _ => exact sizeOf_children_lt h

/-- **Induction over all validators inside a validator.** -/
theorem inductionOnParts {motive : Validator → Prop} (step : ∀ vd, (∀ c ∈ vd.parts, motive c) → motive vd)
    (vd : Validator) : motive vd :=
  step vd fun c _ => inductionOnParts step c
termination_by sizeOf vd
decreasing_by exact sizeOf_parts_lt ‹_›

/-- A validator is inside itself and inside whatever its parts are inside. -/
inductive Inside (c : Validator) : Validator → Prop
  | whole : Inside c c
  | part {d vd : Validator} (hd : d ∈ vd.parts) (below : Inside c d) : Inside c vd

/-! ## Properties -/

/-- A property of a validator and of all validators inside it. -/
inductive Throughout (here : Validator → Prop) : Validator → Prop
  | intro {vd : Validator} (whole : here vd) (inside : ∀ c ∈ vd.parts, Throughout here c) : Throughout here vd

namespace Throughout

variable {here : Validator → Prop} {vd : Validator}

theorem whole (h : Throughout here vd) : here vd := by
  cases h with
  | intro whole _ => exact whole

/-- A leaf has nothing inside. -/
theorem leaf (hleaf : vd.isLeaf = true) (h : here vd) : Throughout here vd := by
  refine .intro h fun c hc => ?_
  cases vd with
  | any | never | string | number | boolean | null | literal | enumeration | file => cases hc
  | _ => cases hleaf

theorem part (h : Throughout here vd) {c : Validator} (hc : c ∈ vd.parts) : Throughout here c := by
  cases h with
  | intro _ inside => exact inside c hc

theorem mono {there : Validator → Prop} (hmono : ∀ c, here c → there c) (h : Throughout here vd) :
    Throughout there vd := by
  induction h with
  | intro whole _ ih => exact .intro (hmono _ whole) ih

theorem inside (h : Throughout here vd) {c : Validator} (hc : Inside c vd) : Throughout here c := by
  induction hc with
  | whole => exact h
  | part hd _ ih => exact ih (h.part hd)

theorem child (h : Throughout here vd) {c : Validator} (hc : c ∈ vd.children) : Throughout here c :=
  h.part (children_subset_parts vd hc)

/-- The validators in a condition. -/
theorem inTest {inner : Validator} {test : Test} {message : String} (h : Throughout here (.refined inner test message))
    {c : Validator} (hc : c ∈ test.validators) : Throughout here c :=
  h.part (List.mem_cons_of_mem _ hc)

end Throughout

end Validator

end Schemata
