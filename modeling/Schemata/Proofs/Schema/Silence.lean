import Schemata.Proofs.Schema.Dispatch
import Schemata.Proofs.Schema.Layers
import Schemata.Proofs.Schema.Reading

/-!
# `Schemata.Proofs.Schema.Silence` — schemas that say nothing

A schema without keywords passes everything. One whose only keywords are unknown passes all values of JSON as well, but
not in the same way: since it seems to constrain values, it is compiled to a union of all kinds, which refuses the
absent value and whatever is of no kind.

## Contents
- **All kinds.** `everyKind`, and `check_everyKind` on scalars of JSON, lists and mappings.
- **Silence.** `IsSilent`, `KindRule.runAll_silent` and `Refinement.runAll_silent`.
- **Compilation.** `baseValidator_silent`.
-/

namespace Schemata

open Value Validator

/-! ## All kinds -/

/-- The default validators of all kinds, each with its tag. -/
def everyKind : Validator :=
  .union [.string, .number, .boolean, .null, .array .any {}, .object [] .passthrough {}]
    ["string", "number", "boolean", "null", "array", "object"]

/-- Whether a value is a scalar of JSON, a list or a mapping. -/
def Value.isNode (v : Value) : Bool := v.isJsonScalar || v.items?.isSome || v.entries?.isSome

theorem Value.IsJson.isNode {v : Value} (h : v.IsJson) : v.isNode = true := by
  cases h with
  | leaf _ _ here => rw [Value.isNode, here]; rfl
  | list _ => rfl
  | dict _ _ => rfl

theorem checkItems_any (path : Pointer) (i : Nat) (items : List Value) :
    checkItems (m := Except Fault) (fun v place => Validator.any.check v place) path i items = .ok (items, []) := by
  induction items generalizing i with
  | nil => rfl
  | cons v vs ih =>
    rw [checkItems, ih]
    rfl

theorem check_anyItems (items : List Value) (path : Pointer) :
    (Validator.array .any {}).check (.list items) path = .ok (.accept (.list items)) := by
  show (checkItems (m := Except Fault) (fun v place => Validator.any.check v place) path 0 items >>= _) = _
  rw [checkItems_any]
  rfl

theorem check_anyMembers (members : Entries) (path : Pointer) :
    (Validator.object [] .passthrough {}).check (.dict members) path = .ok (.accept (.dict members)) := by
  have hmembers : checkEntries (m := Except Fault) (fun _ item => .ok (some item, [])) members = .ok (members, []) := by
    induction members with
    | nil => rfl
    | cons e es ih =>
      rw [checkEntries, ih]
      rfl
  show (checkEntries (m := Except Fault) (fun _ item => .ok (some item, [])) members >>= _) = _
  rw [hmembers]
  show Except.ok (Report.mk (.dict (members ++ [])) []) = _
  rw [List.append_nil]
  rfl

/-- **Scalars of JSON, lists and mappings are of some kind**, and pass unchanged. -/
theorem check_everyKind {v : Value} (h : v.isNode = true) (path : Pointer) :
    everyKind.check v path = .ok (.accept v) := by
  have hsingle : ∀ c, tried [.string, .number, .boolean, .null, .array .any {}, .object [] .passthrough {}]
      ["string", "number", "boolean", "null", "array", "object"] v = [c] → c.check v path = .ok (.accept v) →
      everyKind.check v path = .ok (.accept v) := by
    intro c htried hc
    rw [everyKind, check_union_single htried, hc]
    rfl
  cases v with
  | list items => exact hsingle _ rfl (check_anyItems items path)
  | dict members => exact hsingle _ rfl (check_anyMembers members path)
  | float x =>
    have hfinite : x.isFinite = true := by simpa [isNode, isJsonScalar, items?, entries?] using h
    refine hsingle _ rfl ?_
    show Except.ok (if x.isFinite then Report.accept (.float x) else _) = _
    rw [if_pos hfinite]
  | null | bool _ | int _ | string _ => exact hsingle _ rfl rfl
  | _ => cases h

/-! ## Silence -/

/-- No keyword of a schema speaks about values. -/
def IsSilent (schema : Entries) : Prop :=
  ∀ k ∈ keywordShapes, k.1 ∉ ["default", "description"] → Entries.get? schema k.1 = none

section

variable {schema : Entries} {remark : Remark → Except CompileError Unit} {convert : Value → Except CompileError Validator}

/-- The keywords that speak about values. -/
abbrev speakingKeywords : List String := (keywordShapes.map Prod.fst).filter (· ∉ ["default", "description"])

theorem keywords_rules : ∀ rule ∈ KindRule.all, ∀ keyword ∈ rule.keywords, keyword ∈ speakingKeywords := by decide

theorem keywords_constraints :
    ∀ refinement ∈ Refinement.constraints, ∀ keyword ∈ refinement.keywords, keyword ∈ speakingKeywords := by decide

/-- A silent schema is read like one without keywords. -/
theorem IsSilent.readsAs (h : IsSilent schema) {keyword : String}
    (hkeyword : keyword ∈ speakingKeywords) :
    ReadsAs id [] schema keyword := by
  obtain ⟨hmem, hspeaks⟩ := List.mem_filter.mp hkeyword
  obtain ⟨k, hk, rfl⟩ := List.mem_map.mp hmem
  exact h k hk (of_decide_eq_true hspeaks)

/-- **A silent schema leaves the slots empty.** -/
theorem KindRule.runAll_silent [Pattern.Engine] (h : IsSilent schema) :
    KindRule.runAll remark convert schema KindRule.all .initial = .ok .initial := by
  rw [KindRule.runAll_readsAs keepsForm_id _ fun rule hrule keyword hkeyword =>
    h.readsAs (keywords_rules rule hrule keyword hkeyword)]
  rfl

/-- **A silent schema refines nothing**, but for annotations. -/
theorem Refinement.runAll_silent [Pattern.Engine] (h : IsSilent schema) (vd : Validator) :
    Refinement.runAll remark convert schema Refinement.constraints vd = .ok vd := by
  rw [Refinement.runAll_readsAs keepsForm_id _ vd fun refinement hrefinement keyword hkeyword =>
    h.readsAs (keywords_constraints refinement hrefinement keyword hkeyword)]
  rfl

end

/-! ## Compilation -/

/-- **A silent schema admits every kind**, or everything at all if it has no keyword. -/
theorem baseValidator_silent [Pattern.Engine] {schema : Entries} (h : IsSilent schema) :
    baseValidator schema = .ok (if hasConstraints schema then everyKind else .any) := by
  rw [baseValidator, KindRule.runAll_silent h]
  rfl

end Schemata
