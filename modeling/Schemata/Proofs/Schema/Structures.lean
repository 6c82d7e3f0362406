import Schemata.Proofs.Answer
import Schemata.Schema.KindRule

/-!
# `Schemata.Proofs.Schema.Structures` — what the rules of structures leave

The rules that read sub-schemas end in one of a few lists of steps. Each list is told here together with what the rule
has found in the schema and in the slots, so that what a rule does to slots is a matter of cases.

## Contents
- **Positional items.** `TupleLeaves`, and `answers_tupleSteps`.
- **Items.** `ItemsLeave`, and `answers_itemsSteps`.
- **Properties.** `PropertiesLeave`, and `answers_propertiesSteps`.
-/

namespace Schemata

variable {remark : Remark → Except CompileError Unit} {convert : Value → Except CompileError Validator}
  {slots : Admissibility} {schema : Entries}

theorem answers_orError {α : Type} {x : Except Fault α} {post : α → Prop} (h : Answers False x post) :
    Answers False (orError (m := Except CompileError) x) post := by
  cases x with
  | ok a => exact .ok (h.meets a rfl)
  | error f => exact .error not_false

/-! ## Positional items -/

variable (convert slots schema) in
/-- What the rule of positional items may leave: a list of them makes a tuple speak in place of an array, or neither of
them if no number of items is right. -/
inductive TupleLeaves : List Step → Prop
  | single (unlisted : ∀ items, Entries.get? schema "items" ≠ some (.list items)) : TupleLeaves []
  | refused {items : List Value} (listed : Entries.get? schema "items" = some (.list items))
      (disabled : (slots .array).isDisabled = true) : TupleLeaves []
  | tuple {items : List Value} {positional : List Validator} {rest : Option Validator}
      (listed : Entries.get? schema "items" = some (.list items)) (enabled : (slots .array).isDisabled = false)
      (each : items.mapM convert = .ok positional) (beyond : restValidator convert schema = .ok rest) :
      TupleLeaves [.set .tuple (.tuple positional rest
        ⟨Entries.given? schema "minItems", Entries.given? schema "maxItems"⟩), .disable .array]
  | impossible {items : List Value} {positional : List Validator}
      (listed : Entries.get? schema "items" = some (.list items)) (enabled : (slots .array).isDisabled = false)
      (each : items.mapM convert = .ok positional) (beyond : restValidator convert schema = .ok none)
      (outside : isImpossible positional.length
        ⟨Entries.given? schema "minItems", Entries.given? schema "maxItems"⟩ = .ok true) :
      TupleLeaves [.disable .tuple, .disable .array]

/-- **Positional items leave** a tuple, nothing, or neither arrays nor tuples. -/
theorem answers_tupleSteps : Answers False (tupleSteps remark convert slots schema) (TupleLeaves convert slots schema) := by
  unfold tupleSteps
  split
  next items listed =>
    split
    next disabled => exact .pure (.refused listed disabled)
    next enabled =>
      have enabled := Bool.eq_false_iff.mpr enabled
      refine .bind (.of_meets fun _ each => each) fun positional each => ?_
      refine .bind (.of_meets fun _ beyond => beyond) fun rest beyond => ?_
      cases rest with
      | some c => exact .ok (.tuple listed enabled each beyond)
      | none =>
        refine .bind (answers_orError (.of_meets fun _ outside => outside)) fun impossible outside => ?_
        cases impossible with
        | false => exact .ok (.tuple listed enabled each beyond)
        | true =>
          refine .bind (.trivial _) fun least _ => .bind (.trivial _) fun most _ => .bind (.trivial _) fun _ _ => ?_
          exact .ok (.impossible listed enabled each beyond outside)
  next unlisted => exact .pure (.single fun items => unlisted items)

/-! ## Items -/

variable (convert slots schema) in
/-- What the rule of items may leave: the elements get a validator of their own, or there may be none. -/
inductive ItemsLeave : List Step → Prop
  | refused (disabled : (slots .array).isDisabled = true) : ItemsLeave []
  | nothing (enabled : (slots .array).isDisabled = false)
      (unread : Entries.get? schema "items" = none ∨ ∃ items, Entries.get? schema "items" = some (.list items)) :
      ItemsLeave []
  | settled {items : Value} (enabled : (slots .array).isDisabled = false)
      (read : Entries.get? schema "items" = some items)
      (beside : Entries.has schema "prefixItems" = true ∨ items ≠ .bool false ∧ ∀ entries, items ≠ .dict entries) :
      ItemsLeave [.settle .array]
  | none (enabled : (slots .array).isDisabled = false) (read : Entries.get? schema "items" = some (.bool false))
      (alone : Entries.has schema "prefixItems" = false) :
      ItemsLeave [.update .array (withItemBounds ⟨Option.none, some (.int 0)⟩)]
  | element {entries : Entries} {c : Validator} (enabled : (slots .array).isDisabled = false)
      (read : Entries.get? schema "items" = some (.dict entries)) (alone : Entries.has schema "prefixItems" = false)
      (compiled : convert (.dict entries) = .ok c) : ItemsLeave [.update .array (withElement c)]

/-- **A schema for items leaves** a validator for the elements, or nothing. -/
theorem answers_itemsSteps : Answers False (itemsSteps convert slots schema) (ItemsLeave convert slots schema) := by
  unfold itemsSteps
  split
  next disabled => exact .pure (.refused disabled)
  next enabled =>
    have enabled := Bool.eq_false_iff.mpr enabled
    dsimp only
    split
    next read => exact .pure (.nothing enabled (.inl read))
    next items read => exact .pure (.nothing enabled (.inr ⟨items, read⟩))
    next read =>
      split
      next beside => exact .pure (.settled enabled read (.inl beside))
      next alone => exact .pure (.none enabled read (Bool.eq_false_iff.mpr alone))
    next entries read =>
      split
      next beside => exact .pure (.settled enabled read (.inl beside))
      next alone =>
        exact .bind (.of_meets fun _ compiled => compiled) fun c compiled =>
          .pure (.element enabled read (Bool.eq_false_iff.mpr alone) compiled)
    next items unlisted nonempty single read =>
      refine .pure (.settled enabled read (.inr ⟨?_, ?_⟩))
      · rintro rfl
        exact nonempty rfl
      · rintro entries rfl
        exact single entries rfl

/-! ## Properties -/

variable (convert slots schema) in
/-- What the rule of properties may leave: an object with the declared and the required fields. -/
inductive PropertiesLeave : List Step → Prop
  | refused (disabled : (slots .object).isDisabled = true) : PropertiesLeave []
  | nothing (enabled : (slots .object).isDisabled = false)
      (unread : Entries.hasAny schema ["properties", "required", "additionalProperties"] = false) : PropertiesLeave []
  | built {fields : List Field} {additional : Additional} (enabled : (slots .object).isDisabled = false)
      (read : Entries.hasAny schema ["properties", "required", "additionalProperties"] = true)
      (each : propertyFields convert (requiredNames schema)
        (((Entries.get? schema "properties").bind Value.entries?).getD []) = .ok fields)
      (others : additionalPolicy convert schema = .ok additional) :
      PropertiesLeave [.update .object (joinObject (.object (addRequired fields (requiredNames schema)) additional {}))]

/-- **Properties leave** an object, or nothing. -/
theorem answers_propertiesSteps :
    Answers False (propertiesSteps convert slots schema) (PropertiesLeave convert slots schema) := by
  unfold propertiesSteps
  split
  next disabled => exact .pure (.refused disabled)
  next enabled =>
    have enabled := Bool.eq_false_iff.mpr enabled
    split
    next unread => exact .pure (.nothing enabled (by simpa using unread))
    next read =>
      refine .bind (.of_meets fun _ each => each) fun fields each => ?_
      refine .bind (.of_meets fun _ others => others) fun additional others => ?_
      exact .pure (.built enabled (by simpa using read) each others)

end Schemata
