import Mathlib.Algebra.Group.Int.Defs
import Mathlib.Data.List.Basic
import Schemata.Validator.Check

/-!
# `Schemata.Proofs.Value.Writable` — what can be written

Integers of very many digits are never written in decimal notation. A value can be written if all integers inside it
can, and so can whatever is put together from such values.

## Contents
- **Parts.** `isWritable_list` and `isWritable_dict`.
- **Joining.** `isWritable_mergeOutputs`.
-/

namespace Schemata

/-! ## Parts -/

namespace Value

/-- The least integer with too many digits. -/
theorem isWritableInt_pow : isWritableInt (10 ^ digitLimit) = false := by
  unfold isWritableInt
  generalize digitLimit = digits
  rw [Int.natAbs_pow]
  exact decide_eq_false (Nat.lt_irrefl _)

theorem isWritable_zero : (int 0).isWritable = true := by
  rw [isWritable, isWritableInt]
  exact decide_eq_true (Nat.pow_pos (by decide))

/-- A list can be written if its items can. -/
theorem isWritable_list {items : List Value} :
    (list items).isWritable = true ↔ ∀ w ∈ items, w.isWritable = true := by
  rw [isWritable]
  induction items with
  | nil => simp [areWritable]
  | cons v vs ih => rw [areWritable, Bool.and_eq_true, List.forall_mem_cons, ih]

/-- A mapping can be written if its keys and values can. -/
theorem isWritable_dict {entries : Entries} :
    (dict entries).isWritable = true ↔ ∀ e ∈ entries, e.1.isWritable = true ∧ e.2.isWritable = true := by
  rw [isWritable]
  induction entries with
  | nil => simp [areWritableEntries]
  | cons e es ih =>
    obtain ⟨k, v⟩ := e
    rw [areWritableEntries, Bool.and_eq_true, Bool.and_eq_true, List.forall_mem_cons, ih]

theorem isWritable_item {items : List Value} (h : (list items).isWritable = true) {w : Value} (hw : w ∈ items) :
    w.isWritable = true :=
  isWritable_list.mp h w hw

theorem isWritable_member {entries : Entries} (h : (dict entries).isWritable = true) {e : Value × Value}
    (he : e ∈ entries) : e.2.isWritable = true :=
  (isWritable_dict.mp h e he).2

end Value

/-! ## Joining -/

namespace Entries

/-- What holds of the keys and of the values of entries, and of a new key and value, holds after an insertion. -/
theorem forall_mem_insert {holds : Value × Value → Prop} {key value : Value}
    (hvalue : ∀ k v, holds (k, v) → holds (k, value)) (hnew : holds (key, value)) {entries : Entries}
    (h : ∀ e ∈ entries, holds e) : ∀ e ∈ Entries.insert entries key value, holds e := by
  induction entries with
  | nil => exact List.forall_mem_singleton.mpr hnew
  | cons e es ih =>
    obtain ⟨hfirst, hrest⟩ := List.forall_mem_cons.mp h
    rw [insert]
    split
    · exact List.forall_mem_cons.mpr ⟨hvalue _ _ hfirst, hrest⟩
    · exact List.forall_mem_cons.mpr ⟨hfirst, ih hrest⟩

end Entries

namespace Value

theorem isWritable_union {es fs : Entries} (hes : (dict es).isWritable = true) (hfs : (dict fs).isWritable = true) :
    (dict (Entries.union es fs)).isWritable = true := by
  induction fs generalizing es with
  | nil => exact hes
  | cons f fs ih =>
    obtain ⟨hf, hrest⟩ := List.forall_mem_cons.mp (isWritable_dict.mp hfs)
    refine ih (isWritable_dict.mpr ?_) (isWritable_dict.mpr hrest)
    exact Entries.forall_mem_insert (fun k v h => ⟨h.1, hf.2⟩) hf (isWritable_dict.mp hes)

/-- **Joining outputs that can be written** gives one that can. -/
theorem isWritable_mergeOutputs {l r : Value} (hl : l.isWritable = true) (hr : r.isWritable = true) :
    (mergeOutputs l r).isWritable = true := by
  cases l with
  | absent => exact hr
  | dict es =>
    cases r with
    | dict fs => exact isWritable_union hl hr
    | _ => exact hl
  | _ => exact hl

end Value

end Schemata
