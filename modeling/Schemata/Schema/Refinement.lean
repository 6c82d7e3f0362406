import Schemata.Schema.KindRule
import Schemata.Validator.Check

/-!
# `Schemata.Schema.Refinement` — keywords that span kinds

The second phase of compilation wraps the assembled validator with the keywords that concern several kinds or
whole sub-schemas. A refinement of arrays or objects lets values of other kinds pass.

## Contents
- **Refinements.** `Refinement`, all of them in order.
- **Readings.** One function for each keyword; no result leaves the validator as it is.
- **Application.** `Refinement.apply?` and `Refinement.runAll`.
-/

namespace Schemata

/-! ## Refinements -/

/-- The refinements of the second phase. -/
inductive Refinement
  | protoRequired
  | compositeEnumeration
  | compositeConst
  | allOf
  | anyOf
  | oneOf
  | prefixItems
  | contains
  | patternProperties
  | uniqueItems
  | not
  | default
  | description
deriving DecidableEq, Repr

/-- The refinements in the order in which they are applied. -/
def Refinement.all : List Refinement := [.protoRequired, .compositeEnumeration, .compositeConst, .allOf,
  .anyOf, .oneOf, .prefixItems, .contains, .patternProperties, .uniqueItems, .not, .default, .description]

section

variable [Pattern.Engine] {m : Type → Type} [Monad m] [MonadExceptOf CompileError m]

/-! ## Required keys and literals -/

/-- Without `type`, a required `__proto__` makes all required names plain keys of the object. -/
def protoRequired? (schema : Entries) : Option Validator :=
  match Entries.get? schema "required" with
  | some (.list names) =>
    if (names.any fun name => name.isText "__proto__") && !Entries.has schema "type" then
      some (.refined .any (.hasKeys names) "Missing required properties")
    else none
  | _ => none

/-- Whether a value is a list or a mapping. -/
def isCompositeValue : Value → Bool
  | .list _ => true
  | .dict _ => true
  | _ => false

/-- Composite values have to be among the composite members of an enumeration. -/
def compositeEnumeration? (v : Validator) (schema : Entries) : Option Validator :=
  match (Entries.get? schema "enum").bind Value.items? with
  | some values =>
    let members := values.filter isCompositeValue
    if members.isEmpty then none else some (.refined v (.amongComposites members) "Invalid enum value")
  | none => none

/-- A value has to equal a composite constant. -/
def compositeConst? (v : Validator) (schema : Entries) : Option Validator :=
  match Entries.get? schema "const" with
  | some value =>
    if isCompositeValue value then some (.refined v (.equals value) "Value must equal the constant")
    else none
  | none => none

/-! ## Combinations -/

/-- The validators of a list of sub-schemas. -/
def branches (convert : Value → m Validator) (schema : Entries) (keyword : String) :
    m (List Validator) := do
  match (Entries.get? schema keyword).bind Value.items? with
  | some items => items.mapM convert
  | none => return []

/-- All branches have to accept. -/
def allOf? (convert : Value → m Validator) (v : Validator) (schema : Entries) :
    m (Option Validator) := do
  let all ← branches convert schema "allOf"
  return if all.isEmpty then none else some (all.foldl .both v)

/-- Some branch has to accept; that several do is no matter. -/
def someOf? (convert : Value → m Validator) (v : Validator) (schema : Entries) (keyword : String) :
    m (Option Validator) := do
  let options ← branches convert schema keyword
  return if options.isEmpty then none else some (.both v (Validator.unionOf options []))

/-- The sub-schema has to reject. -/
def not? (convert : Value → m Validator) (v : Validator) (schema : Entries) : m (Option Validator) := do
  match Entries.get? schema "not" with
  | none => return none
  | some negated =>
    return some (.refined v (.rejectedBy (← convert negated)) "Value must not match the negated schema")

/-! ## Arrays -/

/-- What a keyword says of everything that is left over: nothing may be, a sub-schema has to accept it, or
anything goes. -/
def leftOver (convert : Value → m Validator) (schema : Entries) (keyword : String) : m Additional := do
  match Entries.get? schema keyword with
  | some (.bool false) => return .strict
  | some (.dict entries) => return .checked (← convert (.dict entries))
  | _ => return .passthrough

/-- Positional items, with `items` for those beyond. -/
def prefixItems? (convert : Value → m Validator) (v : Validator) (schema : Entries) :
    m (Option Validator) := do
  match (Entries.get? schema "prefixItems").bind Value.items? with
  | none => return none
  | some items =>
    let positional ← items.mapM convert
    let extra ← leftOver convert schema "items"
    return some (.refined v (.positions positional extra) "Array does not match prefixItems")

/-- The number of items that a sub-schema accepts is bounded. -/
def contains? (convert : Value → m Validator) (v : Validator) (schema : Entries) :
    m (Option Validator) := do
  match Entries.get? schema "contains" with
  | none => return none
  | some item =>
    let counted ← convert item
    let least := (Entries.get? schema "minContains").getD (.int 1)
    let most := Entries.given? schema "maxContains"
    return some (.refined v (.counted counted least most)
      "Array does not contain the required number of matching items")

/-- No two items may be equal. -/
def uniqueItems? (v : Validator) (schema : Entries) : Option Validator :=
  if isSetTrue schema "uniqueItems" then some (.refined v .distinct "Array items must be unique") else none

/-! ## Objects -/

/-- The rules of `patternProperties`; an entry with a bad pattern is skipped, but a fault of the engine stops the
compilation. -/
def patternRules (remark : Remark → m Unit) (convert : Value → m Validator) :
    Entries → m (List PatternRule)
  | [] => pure []
  | (key, schema) :: rest => do
    match compilePattern key with
    | .error (.fault f) => throw (CompileError.fault f)
    | .error e =>
      remark ⟨.objects, "Skipping patternProperties entry: " ++ e.message⟩
      patternRules remark convert rest
    | .ok pattern =>
      let validator ← convert schema
      return .mk pattern validator :: (← patternRules remark convert rest)

/-- Undeclared members follow every rule whose pattern fits, and `additionalProperties` if none does. -/
def patternProperties? (remark : Remark → m Unit) (convert : Value → m Validator) (v : Validator)
    (schema : Entries) : m (Option Validator) := do
  match (Entries.get? schema "patternProperties").bind Value.entries? with
  | none => return none
  | some entries =>
    let rules ← patternRules remark convert entries
    let declared := (((Entries.get? schema "properties").bind Value.entries?).getD []).map Prod.fst
    let others ← leftOver convert schema "additionalProperties"
    return some (.refined v (.patterns rules declared others)
      "Object properties do not match patternProperties")

/-! ## Annotations -/

/-- A default that the validator itself accepts stands in for the absent value. -/
def default? (remark : Remark → m Unit) (v : Validator) (schema : Entries) : m (Option Validator) := do
  match Entries.get? schema "default" with
  | none => return none
  | some value =>
    if (← orError (v.accepts value)) then return some (.defaulted v value)
    else
      let text ← orError value.quoted?
      remark ⟨.annotations, s!"Dropping default {text}: it does not satisfy its own schema"⟩
      return none

/-- A description is attached if it is a text. -/
def description? (v : Validator) (schema : Entries) : Option Validator :=
  match Entries.get? schema "description" with
  | some (.string text) => some (.described v text)
  | _ => none

/-! ## Application -/

/-- The validator that a refinement makes of another, if it changes it. -/
def Refinement.apply? (remark : Remark → m Unit) (convert : Value → m Validator)
    (refinement : Refinement) (v : Validator) (schema : Entries) : m (Option Validator) :=
  match refinement with
  | .protoRequired => pure (protoRequired? schema)
  | .compositeEnumeration => pure (compositeEnumeration? v schema)
  | .compositeConst => pure (compositeConst? v schema)
  | .allOf => allOf? convert v schema
  | .anyOf => someOf? convert v schema "anyOf"
  | .oneOf => someOf? convert v schema "oneOf"
  | .prefixItems => prefixItems? convert v schema
  | .contains => contains? convert v schema
  | .patternProperties => patternProperties? remark convert v schema
  | .uniqueItems => pure (uniqueItems? v schema)
  | .not => not? convert v schema
  | .default => default? remark v schema
  | .description => pure (description? v schema)

/-- The validator after all of some refinements. -/
def Refinement.runAll (remark : Remark → m Unit) (convert : Value → m Validator) (schema : Entries) :
    List Refinement → Validator → m Validator
  | [], v => pure v
  | refinement :: rest, v => do
    let refined ← refinement.apply? remark convert v schema
    Refinement.runAll remark convert schema rest (refined.getD v)

end

end Schemata
