import Schemata.Number.Divisibility
import Schemata.Proofs.Value.Order
import Schemata.Validator.Check

/-!
# `Schemata.Proofs.Value.Kind` — values of a kind

What a value of a kind looks like, which tags admit it, and which operations are defined on it: numbers can be compared
and divided.

## Contents
- **Kinds of values.** The forms of texts, null, truth values and numbers.
- **Tags.** `tagAdmits_of_kind`, and the kinds that a tag admits.
- **Numbers.** `related_answers` and `isMultipleOf_answers`.
-/

namespace Schemata

/-! ## Kinds of values -/

namespace Value

variable {v w : Value}

/-- Binary contents have no kind but their own. -/
theorem kind_file_ne {kind : Kind} (h : kind ≠ .file) (f : File) : (Value.file f).kind ≠ some kind := by
  intro hkind
  rw [Value.kind] at hkind
  split at hkind
  · exact h (Option.some.inj hkind).symm
  · cases hkind

theorem eq_string_of_kind (h : v.kind = some .string) : ∃ s, v = .string s := by
  cases v with
  | string s => exact ⟨s, rfl⟩
  | file f => exact (kind_file_ne (by decide) f h).elim
  | _ => cases h

theorem eq_null_of_kind (h : v.kind = some .null) : v = .null := by
  cases v with
  | null => rfl
  | file f => exact (kind_file_ne (by decide) f h).elim
  | _ => cases h

theorem eq_bool_of_kind (h : v.kind = some .boolean) : ∃ b, v = .bool b := by
  cases v with
  | bool b => exact ⟨b, rfl⟩
  | file f => exact (kind_file_ne (by decide) f h).elim
  | _ => cases h

theorem number_of_kind (h : v.kind = some .number) : (∃ n, v = .int n) ∨ ∃ x, v = .float x := by
  cases v with
  | int n => exact .inl ⟨n, rfl⟩
  | float x => exact .inr ⟨x, rfl⟩
  | file f => exact (kind_file_ne (by decide) f h).elim
  | _ => cases h

/-- Values of different kinds are not equal. -/
theorem kind_eq_of_equal (h : v.equal w = true) : v.kind = w.kind := by
  unfold equal at h
  split at h
  · rfl
  · rfl
  · exact eq_of_beq (Bool.and_eq_true_iff.mp h).1

theorem kind_of_literalKind {kind : Kind} (h : w.literalKind = some kind) : w.kind = some kind := by
  unfold literalKind at h
  split at h
  · cases h
  · exact h

theorem eq_array_of_kind (h : v.kind = some .array) : ∃ items, v = .list items := by
  cases v with
  | list items => exact ⟨items, rfl⟩
  | file f => exact (kind_file_ne (by decide) f h).elim
  | _ => cases h

theorem eq_object_of_kind (h : v.kind = some .object) : ∃ entries, v = .dict entries := by
  cases v with
  | dict entries => exact ⟨entries, rfl⟩
  | file f => exact (kind_file_ne (by decide) f h).elim
  | _ => cases h

theorem eq_file_of_kind (h : v.kind = some .file) : ∃ f : File, v = .file f ∧ f.isFile = true := by
  cases v with
  | file f =>
    refine ⟨f, rfl, ?_⟩
    by_contra hother
    rw [kind, if_neg hother] at h
    cases h
  | _ => cases h

end Value

/-! ## Tags -/

theorem tagAdmits_of_kind {w : Value} {kind : Kind} (h : w.kind = some kind) : tagAdmits kind.name w.kind = true := by
  have hne : kind ≠ .tuple := by
    rintro rfl
    cases w with
    | file f => exact Value.kind_file_ne (by decide) f h
    | _ => cases h
  rw [h]
  cases kind with
  | tuple => exact (hne rfl).elim
  | _ => rfl

/-- A tag other than that of tuples admits its own kind only. -/
theorem kind_of_tagAdmits {w : Value} {kind : Kind} (hkind : kind ≠ .tuple) (h : tagAdmits kind.name w.kind = true) :
    w.kind = some kind := by
  cases hw : w.kind with
  | none => rw [hw] at h; cases h
  | some other =>
    rw [hw] at h
    cases kind <;> cases other <;> first | rfl | exact (hkind rfl).elim | cases h

/-! ## Numbers -/

namespace Value

variable {v w : Value}

/-- A number has a quantity. -/
theorem quantity_of_kind (h : v.kind = some .number) : ∃ q, v.quantity? = some q := by
  rcases number_of_kind h with ⟨n, rfl⟩ | ⟨x, rfl⟩
  · exact ⟨_, rfl⟩
  · exact ⟨_, rfl⟩

/-- **Numbers are comparable.** -/
theorem related_answers {relation : Relation} (hv : v.kind = some .number) (hw : w.kind = some .number) :
    ∃ b, related relation v w = .ok b := by
  obtain ⟨p, hp⟩ := quantity_of_kind hv
  obtain ⟨q, hq⟩ := quantity_of_kind hw
  exact ⟨_, related_of_quantities relation hp hq⟩

/-- **Numbers that can be written are divisible** or not. -/
theorem isMultipleOf_answers (hv : v.kind = some .number) (hw : w.kind = some .number)
    (hwritable : v.isWritable = true ∧ w.isWritable = true) : ∃ b, v.isMultipleOf w = .ok b := by
  have hoperand : ∀ u : Value, u.kind = some .number → u.isWritable = true → ∃ o, u.operand? = .ok (some o) := by
    intro u hkind hu
    rcases number_of_kind hkind with ⟨n, rfl⟩ | ⟨x, rfl⟩
    · rw [isWritable] at hu
      exact ⟨.decimal (.ofInt n), by rw [operand?, if_pos hu]⟩
    · exact ⟨.ofDouble x, rfl⟩
  obtain ⟨a, ha⟩ := hoperand v hv hwritable.1
  obtain ⟨b, hb⟩ := hoperand w hw hwritable.2
  unfold isMultipleOf
  rw [ha, hb]
  split
  · exact ⟨_, rfl⟩
  · split
    · exact ⟨_, rfl⟩
    · exact ⟨_, rfl⟩

theorem isIntegral_answers (hv : v.kind = some .number) : ∃ b, Schemata.isIntegral v = .ok b := by
  rcases number_of_kind hv with ⟨n, rfl⟩ | ⟨x, rfl⟩
  · exact ⟨_, rfl⟩
  · exact ⟨_, rfl⟩

end Value

end Schemata
