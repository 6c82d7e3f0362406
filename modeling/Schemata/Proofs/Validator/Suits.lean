import Schemata.Proofs.Validator.Combinators
import Schemata.Proofs.Validator.Leaves
import Schemata.Proofs.Value.Kind

/-!
# `Schemata.Proofs.Validator.Suits` — conditions on values of a kind

A condition is a question that may make no sense of a value: null is not less than a number, and a number has no
length. It is answered where it suits the kind of the value, and a validator asks it safely if whatever it accepts
is of that kind.

## Contents
- **Suitable conditions.** `Test.Suits`, and `Suits.answers`.
- **Kinds of outputs.** `Validator.answers_kind`, and `Validator.Yields`: all outputs are of one kind.
-/

namespace Schemata

/-! ## Suitable conditions -/

/-- The conditions that are put on the values of a kind. -/
inductive Test.Suits (sure : Prop) : Kind → Test → Prop
  | integral : Suits sure .number .integral
  | compares (relation : Relation) {limit : Value} (hlimit : limit.kind = some .number) :
      Suits sure .number (.compares relation limit)
  | multipleOf {divisor : Value} (hdivisor : divisor.kind = some .number) (hwritable : sure → divisor.isWritable = true) :
      Suits sure .number (.multipleOf divisor)
  | characters (relation : Relation) {limit : Value} (hlimit : limit.IsOrdered) :
      Suits sure .string (.characters relation limit)
  | found (pattern : Pattern) : Suits sure .string (.found pattern)
  | items (relation : Relation) {limit : Value} (hlimit : limit.IsOrdered) : Suits sure .array (.size relation limit)
  | members (relation : Relation) {limit : Value} (hlimit : limit.IsOrdered) : Suits sure .object (.size relation limit)

namespace Test

theorem holds_size {v : Value} {n : Nat} (h : v.length? = some n) (relation : Relation) (limit : Value) :
    (size relation limit).holds v = Value.related relation (.int n) limit := by
  rw [holds, holdsWith, h]
  exact orFault_except _

variable {sure : Prop} {kind : Kind} {test : Test} {v : Value}

/-- **A condition that suits a kind is answered** on the values of the kind. -/
theorem Suits.answers (h : test.Suits sure kind) (hkind : v.kind = some kind) (hv : sure → v.isWritable = true) :
    Answers sure (test.holds v) fun _ => True := by
  refine ⟨fun _ _ => trivial, fun hsure => ?_⟩
  cases h with
  | integral => exact holds_integral v ▸ Value.isIntegral_answers hkind
  | compares relation hlimit => exact holds_compares v relation _ ▸ Value.related_answers hkind hlimit
  | multipleOf hdivisor hwritable =>
    exact holds_multipleOf v _ ▸ Value.isMultipleOf_answers hkind hdivisor ⟨hv hsure, hwritable hsure⟩
  | characters relation hlimit =>
    obtain ⟨s, rfl⟩ := Value.eq_string_of_kind hkind
    rw [holds_characters]
    exact (Value.isOrdered_int _).related hlimit relation
  | found pattern =>
    obtain ⟨s, rfl⟩ := Value.eq_string_of_kind hkind
    exact ⟨_, holds_found pattern s⟩
  | items relation hlimit =>
    obtain ⟨items, rfl⟩ := Value.eq_array_of_kind hkind
    rw [holds_size rfl]
    exact (Value.isOrdered_int _).related hlimit relation
  | members relation hlimit =>
    obtain ⟨entries, rfl⟩ := Value.eq_object_of_kind hkind
    rw [holds_size rfl]
    exact (Value.isOrdered_int _).related hlimit relation

/-- No condition is put on tuples. -/
theorem Suits.ne_tuple (h : test.Suits sure kind) : kind ≠ .tuple := by
  rintro rfl
  cases h

/-- A condition is put on values that have a kind of the name of its kind. -/
theorem Suits.answers_of_tag (h : test.Suits sure kind) (htag : tagAdmits kind.name v.kind = true)
    (hv : sure → v.isWritable = true) : Answers sure (test.holds v) fun _ => True :=
  h.answers (kind_of_tagAdmits h.ne_tuple htag) hv

end Test

/-! ## Kinds of outputs -/

theorem kind_mergeOutputs {l r : Value} {kind : Option Kind} (hl : l.kind = kind) (hr : r.kind = kind) :
    (mergeOutputs l r).kind = kind := by
  cases l with
  | absent => exact hr
  | dict es => cases r <;> exact hl
  | _ => exact hl

namespace Validator

/-- **The output of an accepted value is of the kind of the value**, if the value is there. -/
theorem answers_kind (vd : Validator) {v : Value} (hv : v ≠ .absent) (path : Pointer) :
    Answers False (vd.check v path) fun r => r.ok = true → r.output.kind = v.kind := by
  induction vd using inductionOnChildren with
  | step vd ih =>
    cases vd with
    | refined inner test message =>
      exact output_refined (Value.kind · = v.kind) (ih inner (by simp [children])) fun _ _ => .trivial _
    | optional inner =>
      exact output_optional (Value.kind · = v.kind) (ih inner (by simp [children])) fun habsent => absurd habsent hv
    | defaulted inner value =>
      rw [check_defaulted hv]
      exact ih inner (by simp [children])
    | described inner text => exact ih inner (by simp [children])
    | union options tags => exact output_union (Value.kind · = v.kind) ih
    | both left right =>
      exact output_both (Value.kind · = v.kind) (ih left (by simp [children])) (ih right (by simp [children]))
        fun _ _ => kind_mergeOutputs
    | array element bounds =>
      cases v with
      | list items =>
        refine (answers_array (.trivial _) fun _ _ _ => .trivial _).mono ?_
        rintro _ ⟨_, _, _, _, rfl⟩ _
        rfl
      | _ => exact .ok (by simp)
    | tuple validators rest bounds =>
      cases v with
      | list items =>
        refine (answers_tuple (.trivial _) (fun _ _ _ _ _ => .trivial _) fun _ _ _ _ _ => .trivial _).mono ?_
        rintro _ (⟨_, _, _, rfl⟩ | ⟨_, _, _, _, _, _, _, rfl⟩) _
        · rfl
        · rfl
      | _ => exact .ok (by simp)
    | object fields additional bounds =>
      cases v with
      | dict entries =>
        refine (answers_object (.trivial _) (fun _ _ _ _ => .trivial _) (fun _ _ _ _ _ => .trivial _)
          fun _ _ => .trivial _).mono ?_
        rintro _ ⟨_, _, _, _, _, _, rfl⟩ _
        rfl
      | _ => exact .ok (by simp)
    | _ => exact (answers_leaf rfl v path).mono fun r hr _ => congrArg Value.kind hr.output

/-- The outputs of accepted values are all of one kind. -/
def Yields (kind : Kind) (vd : Validator) : Prop :=
  ∀ v path, Answers False (vd.check v path) fun r => r.ok = true → tagAdmits kind.name r.output.kind = true

/-- A validator that refuses the values of other kinds gives only outputs of its kind. -/
theorem yields_of_refuses {kind : Kind} {vd : Validator}
    (h : ∀ v path, tagAdmits kind.name v.kind = false → Answers False (vd.check v path) fun r => r.ok = false) :
    vd.Yields kind := by
  intro v path
  refine .of_meets fun r hr hok => ?_
  cases htag : tagAdmits kind.name v.kind with
  | false => exact absurd hok (by simp [(h v path htag).meets r hr])
  | true =>
    have hv : v ≠ .absent := by
      rintro rfl
      cases htag
    rw [(answers_kind vd hv path).meets r hr hok]
    exact htag

end Validator

end Schemata
