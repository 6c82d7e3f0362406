import Schemata.Metaschema.Draft
import Schemata.Metaschema.Engine
import Schemata.Pattern.Plain
import Schemata.Value.Equality

/-!
# `Schemata.Metaschema.Check` — whether a schema has the form that its draft demands

A violation is known by its place alone. Where a keyword allows one of several forms, the place is that of
the keyword.

## Contents
- **Forms.** `Shape.violation?`, the place where a value departs from a form.
- **Schemas.** `Draft.violation?`, and `Metaschema.engine`, which examines schemas in this way.
-/

namespace Schemata

/-! ## Forms -/

namespace Shape

/-- Whether a value is a number; truth values are none. -/
def isNumber : Value → Bool
  | .int _ => true
  | .float _ => true
  | _ => false

/-- Whether a value is a whole number, which may have to be written without a point. -/
def isWhole (pointless : Bool) : Value → Bool
  | .int _ => true
  | .float x => !pointless && x.isIntegral
  | _ => false

/-- Whether a number is below zero, or zero itself if that counts. -/
def isBelow (orZero : Bool) (v : Value) : Bool :=
  match v.quantity? with
  | some q => q.less (.ofInt 0) || (orZero && q.same (.ofInt 0))
  | none => false

/-- Whether a value is a text. -/
def isTextValue (v : Value) : Bool := v.text?.isSome

/-- Whether a value is the name of a type. -/
def isTypeName (v : Value) : Bool := typeNames.any fun name => v.isText name

/-- No violation, or one here. -/
def here (holds : Bool) : Option (List String) := if holds then none else some []

/-- The first violation among items from an index on, with the index in front. -/
def firstItem (violation? : Value → Option (List String)) : Nat → List Value → Option (List String)
  | _, [] => none
  | i, v :: vs =>
    match violation? v with
    | some place => some (toString i :: place)
    | none => firstItem violation? (i + 1) vs

/-- The first violation among the values of a mapping, with the key in front. -/
def firstEntry (violation? : Value → Option (List String)) : Entries → Option (List String)
  | [] => none
  | (key, v) :: rest =>
    match violation? v with
    | some place => some (key.plain :: place)
    | none => firstEntry violation? rest

/-- Whether a value is a list of distinct texts, of which there may have to be one. -/
def namesViolation? (nonEmpty : Bool) : Value → Option (List String)
  | .list items =>
    (firstItem (fun v => here (isTextValue v)) 0 items).or
      (here (!(nonEmpty && items.isEmpty) && Value.distinctFrom [] items))
  | _ => some []

/-- Whether a value names types as `type` does. -/
def areTypes : Value → Bool
  | .list items => items.all isTypeName && !items.isEmpty && Value.distinctFrom [] items
  | v => isTypeName v

/-- Whether a regular expression is found in a text. -/
def isFound (form text : String) : Bool :=
  match Pattern.read form with
  | .ok expression => expression.search text
  | .error _ => false

/-- Whether a value is a text, or a list of distinct texts and schemas. -/
def looseTypesViolation? (schema? : Value → Option (List String)) : Value → Option (List String)
  | .string _ => none
  | .list items =>
    (firstItem (fun v => here (isTextValue v || (schema? v).isNone)) 0 items).or (here (Value.distinctFrom [] items))
  | _ => some []

/-- The place where a value departs from a form, given how schemas are examined. -/
def violation? (schema? : Value → Option (List String)) : Shape → Value → Option (List String)
  | .anything, _ => none
  | .text, v => here (isTextValue v)
  | .flag, v =>
    match v with
    | .bool _ => none
    | _ => some []
  | .number, v => here (isNumber v)
  | .positiveNumber, v => here (isNumber v && !isBelow true v)
  | .count pointless, v => here (isWhole pointless v && !isBelow false v)
  | .whole pointless, v => here (isWhole pointless v)
  | .textLike form, v => here (v.text?.elim false (isFound form))
  | .pattern, v => here (v.text?.elim false Pattern.Plain.isPattern)
  | .list, v => here v.items?.isSome
  | .distinctList, v =>
    match v with
    | .list items => here (!items.isEmpty && Value.distinctFrom [] items)
    | _ => some []
  | .names nonEmpty, v => namesViolation? nonEmpty v
  | .types, v => here (areTypes v)
  | .schema, v => schema? v
  | .schemas, v =>
    match v with
    | .list [] => some []
    | .list items => firstItem schema? 0 items
    | _ => some []
  | .schemaOrFlag, v =>
    match v with
    | .bool _ => none
    | v => here (schema? v).isNone
  | .schemaOrSchemas, v =>
    match v with
    | .list items => here (!items.isEmpty && (firstItem schema? 0 items).isNone)
    | v => here (schema? v).isNone
  | .schemaOrNames nonEmpty, v => here ((schema? v).isNone || (namesViolation? nonEmpty v).isNone)
  | .looseTypes, v => looseTypesViolation? schema? v
  | .schemaOrList, v =>
    match v with
    | .list items => firstItem schema? 0 items
    | v => here (schema? v).isNone
  | .dependency, v =>
    match v with
    | .string _ => none
    | .list items => firstItem (fun v => here (isTextValue v)) 0 items
    | v => here (schema? v).isNone
  | .mapping values keys, v =>
    match v with
    | .dict entries =>
      (firstEntry (values.violation? schema?) entries).or
        (here (entries.all fun e =>
          match keys, e.1 with
          | .pattern, .string s => Pattern.Plain.isPattern s
          | .text, key => isTextValue key
          | _, _ => true))
    | _ => some []

end Shape

/-! ## Schemas -/

namespace Draft

/-- The first violation among keywords. -/
def firstKeyword (schema? : Value → Option (List String)) (schema : Entries) :
    List (String × Shape) → Option (List String)
  | [] => none
  | (keyword, shape) :: rest =>
    match (Entries.get? schema keyword).bind (shape.violation? schema?) with
    | some place => some (keyword :: place)
    | none => firstKeyword schema? schema rest

/-- Whether a keyword lacks the one that it needs beside it. -/
def lacksCompanion (draft : Draft) (schema : Entries) : Bool :=
  draft.companions.any fun (keyword, needed) => Entries.has schema keyword && !Entries.has schema needed

/-- The place where a value of bounded depth departs from the form of schemas. -/
def violationWithin? (draft : Draft) : Nat → Value → Option (List String)
  | depth, v =>
    match depth, v with
    | _, .bool _ => Shape.here draft.allowsFlags
    | depth + 1, .dict schema =>
      (firstKeyword (draft.violationWithin? depth) schema draft.keywords).or
        (Shape.here !(draft.lacksCompanion schema))
    | _, _ => some []

/-- The place where a value departs from the form of schemas. -/
def violation? (draft : Draft) (v : Value) : Option (List String) :=
  draft.violationWithin? (v.depth + 1) v

end Draft

/-- The engine that examines a schema by the draft that it declares. -/
@[reducible] def Metaschema.engine : Metaschema.Engine where
  departure? schema := (Draft.ofSchema schema).map fun draft => draft.violation? (.dict schema)

end Schemata
