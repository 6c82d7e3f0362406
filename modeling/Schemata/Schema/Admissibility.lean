import Schemata.Validator.Basic

/-!
# `Schemata.Schema.Admissibility` — which kinds a schema admits

While the keywords of a schema are read, there is a slot for every kind of value: nothing has been said yet,
the kind is disabled, its check is left to a later refinement, or it has a validator. Disabling is final.

## Contents
- **Slots.** `Slot`, `Admissibility` and its queries.
- **Steps.** `Step`, `Admissibility.apply`, `Admissibility.run`, and `Step.replaced`, the kinds whose slots
  a step fills anew.
- **Assembly.** `defaultValidator?` and `Admissibility.assemble`, which joins the slots into one validator.
-/

namespace Schemata

/-! ## Slots -/

/-- What is known about a kind. -/
inductive Slot
  | unset
  | disabled
  | pending
  | holds (validator : Validator)
deriving Inhabited

namespace Slot

/-- The validator in a slot. -/
def validator? : Slot → Option Validator
  | .holds v => some v
  | _ => none

/-- Whether the kind is disabled. -/
def isDisabled : Slot → Bool
  | .disabled => true
  | _ => false

/-- Whether the kind is enabled and has no validator. -/
def isOpen : Slot → Bool
  | .unset | .pending => true
  | _ => false

end Slot

/-- The slots of all kinds. -/
abbrev Admissibility := Kind → Slot

/-- The validator of an admitted kind about which a schema says no more. Tuples and files have none. -/
def defaultValidator? : Kind → Option Validator
  | .string => some .string
  | .number => some .number
  | .boolean => some .boolean
  | .null => some .null
  | .array => some (.array .any {})
  | .object => some (.object [] .passthrough {})
  | .tuple => none
  | .file => none

/-! ## Steps -/

/-- A change of the slots. -/
inductive Step
  | set (kind : Kind) (validator : Validator)
  | disable (kind : Kind)
  | disableAllExcept (kinds : List Kind)
  | markPending (kind : Kind)
  /-- Rebuilds the validator of a kind, which is the default one if the slot is open. -/
  | update (kind : Kind) (build : Validator → Validator)
  /-- Gives an open slot the default validator of its kind. -/
  | settle (kind : Kind)

namespace Admissibility

/-- The slots before anything has been said. -/
def initial : Admissibility := fun _ => .unset

/-- The slots with one of them filled anew. -/
def fill (slots : Admissibility) (kind : Kind) (slot : Slot) : Admissibility :=
  fun k => if k = kind then slot else slots k

/-- The validator that an update of a kind starts from. -/
def current? (slots : Admissibility) (kind : Kind) : Option Validator :=
  (slots kind).validator?.or (defaultValidator? kind)

/-- The slots after a step. -/
def apply (slots : Admissibility) : Step → Admissibility
  | .set kind validator => if (slots kind).isDisabled then slots else slots.fill kind (.holds validator)
  | .disable kind => slots.fill kind .disabled
  | .disableAllExcept kinds => fun k => if kinds.contains k then slots k else .disabled
  | .markPending kind =>
    match slots kind with
    | .unset => slots.fill kind .pending
    | _ => slots
  | .update kind build =>
    if (slots kind).isDisabled then slots
    else
      match slots.current? kind with
      | some validator => slots.fill kind (.holds (build validator))
      | none => slots
  | .settle kind =>
    if (slots kind).isOpen then
      match defaultValidator? kind with
      | some validator => slots.fill kind (.holds validator)
      | none => slots
    else slots

/-- The slots after several steps. -/
def run (slots : Admissibility) (steps : List Step) : Admissibility := steps.foldl apply slots

end Admissibility

namespace Step

/-- The kinds whose slots a step fills anew, whatever they held before. -/
def replaced (slots : Admissibility) : Step → List Kind
  | .set kind _ => if (slots kind).isDisabled then [] else [kind]
  | .disable kind => if (slots kind).isDisabled then [] else [kind]
  | .disableAllExcept kinds => Kind.all.filter fun k => !kinds.contains k && !(slots k).isDisabled
  | .markPending kind =>
    match slots kind with
    | .unset => [kind]
    | _ => []
  | .update kind _ =>
    if (slots kind).isDisabled || (slots.current? kind).isNone then [] else [kind]
  | .settle kind => if (slots kind).isOpen && (defaultValidator? kind).isSome then [kind] else []

/-- The kinds whose slots some of several steps fill anew. -/
def allReplaced : Admissibility → List Step → List Kind
  | _, [] => []
  | slots, step :: steps => step.replaced slots ++ allReplaced (slots.apply step) steps

end Step

/-! ## Assembly -/

/-- The keywords that constrain no value. -/
def annotationKeywords : List String := ["$schema", "title", "description"]

/-- Whether a schema has a keyword that may constrain values. -/
def hasConstraints (schema : Entries) : Bool :=
  schema.any fun e => !(annotationKeywords.any fun keyword => e.1.isText keyword)

namespace Admissibility

/-- The slots of the kinds that are not disabled, in assembly order. -/
def admitted (slots : Admissibility) : List (Kind × Slot) :=
  (Kind.all.map fun kind => (kind, slots kind)).filter fun entry => !entry.2.isDisabled

/-- The validators of the admitted kinds. Tuples and files count only with a validator of their own. -/
def validators (slots : Admissibility) : List (Kind × Validator) :=
  slots.admitted.filterMap fun (kind, slot) =>
    (slot.validator?.or (defaultValidator? kind)).map fun validator => (kind, validator)

/-- Joins the slots into one validator: none admits nothing, a single one stands alone, and several make a
union tagged by kind, unless the schema says nothing at all. -/
def assemble (slots : Admissibility) (schema : Entries) : Validator :=
  match slots.validators with
  | [] => .never
  | [(_, validator)] => validator
  | options =>
    if hasConstraints schema then .union (options.map Prod.snd) (options.map fun o => o.1.name)
    else .any

end Admissibility

end Schemata
