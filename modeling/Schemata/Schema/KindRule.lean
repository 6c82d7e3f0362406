import Schemata.Pattern.Engine
import Schemata.Schema.Admissibility
import Schemata.Schema.Error
import Schemata.Value.Order

/-!
# `Schemata.Schema.KindRule` — keywords that speak about single kinds

The first phase of compilation reads the keywords that say something about one kind of value at a time and
changes the slots. Literals narrow the kinds first, `type` disables the rest, and positional items are
decided before the other keywords of arrays are read.

## Contents
- **Rules.** `KindRule`, all of them in order.
- **Readings.** What the keywords of literals, types, texts, numbers, arrays and objects say, one function
  for each, as a list of `Step`s.
- **Application.** `KindRule.steps`.
-/

namespace Schemata

/-! ## Rules -/

/-- The rules of the first phase. -/
inductive KindRule
  | const
  | enumeration
  | type
  | file
  | impliedString
  | impliedArray
  | impliedObject
  | minLength
  | maxLength
  | pattern
  | minimum
  | maximum
  | exclusiveMinimum
  | exclusiveMaximum
  | multipleOf
  | tuple
  | minItems
  | maxItems
  | items
  | properties
  | maxProperties
  | minProperties
deriving DecidableEq, Repr

/-- The rules in the order in which they are applied. -/
def KindRule.all : List KindRule := [.const, .enumeration, .type, .file, .impliedString, .impliedArray,
  .impliedObject, .minLength, .maxLength, .pattern, .minimum, .maximum, .exclusiveMinimum,
  .exclusiveMaximum, .multipleOf, .tuple, .minItems, .maxItems, .items, .properties, .maxProperties,
  .minProperties]

namespace Entries

/-- The value under a keyword, unless it is null. -/
def given? (schema : Entries) (keyword : String) : Option Value :=
  match Entries.get? schema keyword with
  | some .null => none
  | value => value

end Entries

section

variable [Pattern.Engine] {m : Type → Type} [Monad m] [MonadExceptOf CompileError m]

/-- A fault stops the compilation. -/
def orError {α : Type} (x : Except Fault α) : m α :=
  match x with
  | .ok a => pure a
  | .error f => throw (CompileError.fault f)

/-- The pattern of a value. A text that the engine calls malformed and a value that is no text are errors of the
schema; any other fault of the engine is passed on. -/
def compilePattern (value : Value) : Except CompileError Pattern :=
  match value with
  | .string s =>
    match Pattern.Engine.read s with
    | .ok pattern => .ok pattern
    | .error .malformed => .error (.badPattern value .malformed)
    | .error (.fault f) => .error (.fault f)
  | .list _ | .dict _ | .set _ | .file (.bytes .growable _) =>
    .error (.badPattern value (.notAKey value.typeName))
  | _ => .error (.badPattern value .notText)

/-! ## Literals -/

/-- The validator for the literals of one kind. -/
def literalValidator (kind : Kind) (members : List Value) : Validator :=
  match kind, members with
  | .null, _ => .null
  | _, [value] => .literal value
  | _, values => .enumeration values

/-- The kinds that stay enabled beside a literal: a list may be matched by a tuple. -/
def admittedWith : Option Kind → List Kind
  | some .array => [.array, .tuple]
  | some kind => [kind]
  | none => []

/-- Whether a kind has items or members. -/
def isComposite : Kind → Bool
  | .array | .object => true
  | _ => false

/-- What `const` says: its kind alone is left, with the literal itself unless it is composite. -/
def constSteps (remark : Remark → m Unit) (schema : Entries) : m (List Step) := do
  match Entries.get? schema "const" with
  | none => return []
  | some value =>
    let kept := Step.disableAllExcept (admittedWith value.literalKind)
    match value.literalKind with
    | none =>
      let text ← orError value.quoted?
      remark ⟨.literals, s!"const value {text} is not a JSON value; nothing can match it"⟩
      return [kept]
    | some kind =>
      return [kept, if isComposite kind then .markPending kind else .set kind (literalValidator kind [value])]

/-- The members of an enumeration that are of a kind. -/
def membersOf (kind : Kind) (values : List Value) : List Value :=
  values.filter fun v => v.literalKind == some kind

/-- What an enumeration says about a kind without items: it is disabled, or has to be one of the members
beside what is said already. -/
def scalarEnumStep (slots : Admissibility) (values : List Value) (kind : Kind) : Step :=
  match membersOf kind values with
  | [] => .disable kind
  | members =>
    let literal := literalValidator kind members
    match (slots kind).validator? with
    | none => .set kind literal
    | some existing => .set kind (.both existing literal)

/-- What an enumeration says about a kind with items. -/
def compositeEnumStep (values : List Value) (kind : Kind) : Step :=
  if (membersOf kind values).isEmpty then .disable kind else .markPending kind

/-- What `enum` says. An empty enumeration counts only without a `type`. -/
def enumSteps (slots : Admissibility) (schema : Entries) : List Step :=
  match (Entries.get? schema "enum").bind Value.items? with
  | none => []
  | some [] => if Entries.has schema "type" then [] else [.disableAllExcept []]
  | some values =>
    [.string, .number, .boolean, .null].map (scalarEnumStep slots values) ++
      [.array, .object].map (compositeEnumStep values) ++
      (if (membersOf .array values).isEmpty then [.disable .tuple] else []) ++ [.disable .file]

/-! ## Types and files -/

/-- The kinds that a type name keeps enabled. -/
def typeKinds (name : String) : List Kind :=
  match name with
  | "string" => [.string, .file]
  | "number" => [.number]
  | "integer" => [.number]
  | "boolean" => [.boolean]
  | "null" => [.null]
  | "array" => [.array, .tuple]
  | "object" => [.object]
  | _ => []

/-- The type names of a schema. -/
def declaredTypes (schema : Entries) : List String :=
  match Entries.get? schema "type" with
  | some (.list names) => names.filterMap Value.text?
  | some (.string name) => [name]
  | _ => []

/-- What `type` says: kinds of no listed type are disabled, and numbers that are only called integers have to
be whole. -/
def typeSteps (schema : Entries) : List Step :=
  if Entries.has schema "type" then
    let names := declaredTypes schema
    let kept := names.flatMap typeKinds
    let whole :=
      if names.contains "integer" && !names.contains "number" then
        [Step.update .number fun v => .refined v .integral "Expected integer, received float"]
      else []
    Step.disableAllExcept kept :: whole
  else []

/-- Whether a schema describes binary content. -/
def isBinary (schema : Entries) : Bool :=
  ((Entries.get? schema "type").any (Value.isText "string")) &&
    ((Entries.get? schema "format").any (Value.isText "binary")) &&
    ((Entries.get? schema "contentEncoding").any (Value.isText "binary"))

/-- The media types that a schema names. -/
def mediaTypesOf (schema : Entries) : List String :=
  match Entries.get? schema "contentMediaType" with
  | some (.string s) => [s]
  | some (.list items) => items.filterMap Value.text?
  | _ => []

/-- What the description of binary content says: files instead of texts, with lengths as sizes. -/
def fileSteps (schema : Entries) : List Step :=
  if isBinary schema then
    let size : Bounds := ⟨Entries.given? schema "minLength", Entries.given? schema "maxLength"⟩
    [.set .file (.file ⟨size, mediaTypesOf schema⟩), .disable .string]
  else []

/-! ## Implied kinds -/

/-- The keywords of texts. -/
def stringKeywords : List String := ["minLength", "maxLength", "pattern"]

/-- The keywords of arrays. -/
def arrayKeywords : List String := ["minItems", "maxItems", "items", "prefixItems"]

/-- The keywords of objects. -/
def objectKeywords : List String := ["properties", "required", "additionalProperties", "minProperties",
  "maxProperties", "patternProperties"]

/-- Without `type`, keywords of a kind give an open slot of that kind its validator. -/
def impliedSteps (slots : Admissibility) (schema : Entries) (kind : Kind) (keywords : List String) :
    List Step :=
  if !Entries.has schema "type" && Entries.hasAny schema keywords && (slots kind).isOpen then
    match defaultValidator? kind with
    | some validator => [.set kind validator]
    | none => []
  else []

/-- The same for arrays, unless items are given position by position. -/
def impliedArraySteps (slots : Admissibility) (schema : Entries) : List Step :=
  match Entries.get? schema "items" with
  | some (.list _) => []
  | _ => impliedSteps slots schema .array arrayKeywords

/-! ## Texts -/

/-- What a bound on the length of texts says, in characters as a reader counts them. -/
def lengthSteps (slots : Admissibility) (schema : Entries) (keyword : String) (relation : Relation)
    (words : String) : m (List Step) := do
  match Entries.get? schema keyword with
  | none => return []
  | some limit =>
    if (slots .string).isDisabled then return []
    else
      let text ← orError limit.plain?
      return [.update .string fun v =>
        .refined v (.characters relation limit) s!"String must contain {words} {text} character(s)"]

/-- What `pattern` says: the text has to contain a match. While texts are disabled the pattern is not
even read. -/
def patternSteps (slots : Admissibility) (schema : Entries) : m (List Step) := do
  match Entries.get? schema "pattern" with
  | none => return []
  | some value =>
    if (slots .string).isDisabled then return []
    else
      match compilePattern value with
      | .error e => throw e
      | .ok pattern =>
        return [.update .string fun v =>
          .refined v (.found pattern) s!"String must match pattern {value.quoted}"]

/-! ## Numbers -/

/-- Whether a value may bound numbers; truth values may not. -/
def isBound : Value → Bool
  | .int _ => true
  | .float _ => true
  | _ => false

/-- What a bound on numbers says. -/
def boundSteps (slots : Admissibility) (limit : Value) (test : Test) (words : String) :
    m (List Step) := do
  if (slots .number).isDisabled then return []
  else
    let text ← orError limit.plain?
    return [.update .number fun v => .refined v test s!"Number must be {words} {text}"]

/-- Whether a keyword is present and true. -/
def isSetTrue (schema : Entries) (keyword : String) : Bool :=
  match Entries.get? schema keyword with
  | some (.bool true) => true
  | _ => false

/-- What `minimum` or `maximum` says; a true exclusive keyword beside it makes it strict. -/
def rangeSteps (slots : Admissibility) (schema : Entries) (keyword exclusive : String)
    (inclusiveRelation strictRelation : Relation) (inclusiveWords strictWords : String) :
    m (List Step) := do
  match Entries.get? schema keyword with
  | none => return []
  | some limit =>
    if !isBound limit then return []
    else if isSetTrue schema exclusive then
      boundSteps slots limit (.compares strictRelation limit) strictWords
    else boundSteps slots limit (.compares inclusiveRelation limit) inclusiveWords

/-- What an exclusive bound of its own says. -/
def exclusiveSteps (slots : Admissibility) (schema : Entries) (keyword : String) (relation : Relation)
    (words : String) : m (List Step) := do
  match Entries.get? schema keyword with
  | none => return []
  | some limit =>
    if isBound limit then boundSteps slots limit (.compares relation limit) words else return []

/-- What `multipleOf` says. -/
def multipleSteps (slots : Admissibility) (schema : Entries) : m (List Step) := do
  match Entries.get? schema "multipleOf" with
  | none => return []
  | some divisor =>
    if isBound divisor then boundSteps slots divisor (.multipleOf divisor) "a multiple of" else return []

/-! ## Arrays -/

/-- Narrows the bounds of an array; another validator is refined instead. -/
def withItemBounds (bounds : Bounds) (v : Validator) : Validator :=
  match v with
  | .array element old => .array element (Validator.replaceBounds old bounds)
  | v =>
    match bounds.least, bounds.most with
    | some least, _ =>
      .refined v (.size .atLeast least) s!"Array must contain at least {least.plain} item(s)"
    | none, some most =>
      .refined v (.size .atMost most) s!"Array must contain at most {most.plain} item(s)"
    | none, none => v

/-- Gives an array a validator for its elements; another validator is joined with such an array. -/
def withElement (element : Validator) (v : Validator) : Validator :=
  match v with
  | .array _ bounds => .array element bounds
  | v => .both v (.array element {})

/-- The validator for further items beside positional ones. -/
def restValidator (convert : Value → m Validator) (schema : Entries) : m (Option Validator) := do
  match Entries.get? schema "additionalItems" with
  | some (.bool true) => return some .any
  | some (.dict entries) => return some (← convert (.dict entries))
  | _ => return none

/-- Whether a tuple of a fixed size lies outside the bounds on the number of items. -/
def isImpossible (size : Nat) (bounds : Bounds) : Except Fault Bool := do
  let short ← match bounds.least with
    | some least => Value.related .greater least (.int size)
    | none => pure false
  if short then return true
  else
    match bounds.most with
    | some most => Value.related .less most (.int size)
    | none => return false

/-- How an optional number is written. -/
def plainOrNone (v : Option Value) : Except Fault String := (v.getD .null).plain?

/-- What a list of positional items says: tuples instead of arrays, and no tuples either if their size is
fixed and out of bounds. -/
def tupleSteps (remark : Remark → m Unit) (convert : Value → m Validator) (slots : Admissibility)
    (schema : Entries) : m (List Step) := do
  match Entries.get? schema "items" with
  | some (.list items) =>
    if (slots .array).isDisabled then return []
    else
      let positional ← items.mapM convert
      let rest ← restValidator convert schema
      let bounds : Bounds := ⟨Entries.given? schema "minItems", Entries.given? schema "maxItems"⟩
      let impossible ← if rest.isNone then orError (isImpossible positional.length bounds) else pure false
      if impossible then
        let least ← orError (plainOrNone bounds.least)
        let most ← orError (plainOrNone bounds.most)
        let size := positional.length
        remark ⟨.arrays, s!"Tuple of {size} item(s) cannot satisfy minItems={least}, maxItems={most}"⟩
        return [.disable .tuple, .disable .array]
      else return [.set .tuple (.tuple positional rest bounds), .disable .array]
  | _ => return []

/-- What a bound on the number of items says. -/
def itemBoundSteps (schema : Entries) (keyword : String) (bounds : Value → Bounds) : List Step :=
  match Entries.given? schema keyword with
  | some limit => [.update .array (withItemBounds (bounds limit))]
  | none => []

/-- What `items` says about the elements of arrays. Beside positional items it says nothing here. -/
def itemsSteps (convert : Value → m Validator) (slots : Admissibility) (schema : Entries) :
    m (List Step) := do
  if (slots .array).isDisabled then return []
  else
    let hasPositions := Entries.has schema "prefixItems"
    match Entries.get? schema "items" with
    | none => return []
    | some (.list _) => return []
    | some (.bool false) =>
      if hasPositions then return [.settle .array]
      else return [.update .array (withItemBounds ⟨none, some (.int 0)⟩)]
    | some (.dict entries) =>
      if hasPositions then return [.settle .array]
      else return [.update .array (withElement (← convert (.dict entries)))]
    | some _ => return [.settle .array]

/-! ## Objects -/

/-- What becomes of undeclared members. Beside `patternProperties` all pass here. -/
def additionalPolicy (convert : Value → m Validator) (schema : Entries) : m Additional := do
  if Entries.has schema "patternProperties" then return .passthrough
  else
    match Entries.get? schema "additionalProperties" with
    | some (.bool false) => return .strict
    | some (.dict entries) => return .checked (← convert (.dict entries))
    | _ => return .passthrough

/-- The names that `required` lists. -/
def requiredNames (schema : Entries) : List String :=
  match Entries.get? schema "required" with
  | some (.list names) => names.filterMap Value.text?
  | _ => []

/-- The fields of declared properties. -/
def propertyFields (convert : Value → m Validator) (required : List String) :
    Entries → m (List Field)
  | [] => pure []
  | (name, schema) :: rest => do
    let validator ← convert schema
    let isRequired := required.any fun r => name.isText r
    return .mk name isRequired validator :: (← propertyFields convert required rest)

/-- Adds a field for every required name that is not declared. -/
def addRequired (fields : List Field) (required : List String) : List Field :=
  required.foldl (fun fields name =>
    if Field.declares fields (.string name) then fields
    else fields ++ [.mk (.string name) true .any]) fields

/-- Joins an object with what a slot holds: an object without fields is replaced. -/
def joinObject (built : Validator) (v : Validator) : Validator :=
  match v with
  | .object [] _ _ => built
  | v => .both v built

/-- What `properties`, `required` and `additionalProperties` say. -/
def propertiesSteps (convert : Value → m Validator) (slots : Admissibility) (schema : Entries) :
    m (List Step) := do
  if (slots .object).isDisabled then return []
  else if !Entries.hasAny schema ["properties", "required", "additionalProperties"] then return []
  else
    let required := requiredNames schema
    let declared := ((Entries.get? schema "properties").bind Value.entries?).getD []
    let fields := addRequired (← propertyFields convert required declared) required
    let built := Validator.object fields (← additionalPolicy convert schema) {}
    return [.update .object (joinObject built)]

/-- Narrows the bounds of an object; another validator is refined instead. -/
def withMemberBounds (bounds : Bounds) (v : Validator) : Validator :=
  match v with
  | .object fields additional old => .object fields additional (Validator.replaceBounds old bounds)
  | v =>
    match bounds.least, bounds.most with
    | some least, _ =>
      .refined v (.size .atLeast least) s!"Object must have at least {least.plain} properties"
    | none, some most =>
      .refined v (.size .atMost most) s!"Object must have at most {most.plain} properties"
    | none, none => v

/-- What a bound on the number of members says. -/
def memberBoundSteps (schema : Entries) (keyword : String) (bounds : Value → Bounds) : List Step :=
  match Entries.given? schema keyword with
  | some limit => [.update .object (withMemberBounds (bounds limit))]
  | none => []

/-! ## Application -/

/-- What a rule has to say about the slots, given how sub-schemas are compiled. -/
def KindRule.steps (remark : Remark → m Unit) (convert : Value → m Validator) (rule : KindRule)
    (slots : Admissibility) (schema : Entries) : m (List Step) :=
  match rule with
  | .const => constSteps remark schema
  | .enumeration => pure (enumSteps slots schema)
  | .type => pure (typeSteps schema)
  | .file => pure (fileSteps schema)
  | .impliedString => pure (impliedSteps slots schema .string stringKeywords)
  | .impliedArray => pure (impliedArraySteps slots schema)
  | .impliedObject => pure (impliedSteps slots schema .object objectKeywords)
  | .minLength => lengthSteps slots schema "minLength" .atLeast "at least"
  | .maxLength => lengthSteps slots schema "maxLength" .atMost "at most"
  | .pattern => patternSteps slots schema
  | .minimum =>
    rangeSteps slots schema "minimum" "exclusiveMinimum" .atLeast .greater "greater than or equal to"
      "greater than"
  | .maximum =>
    rangeSteps slots schema "maximum" "exclusiveMaximum" .atMost .less "less than or equal to"
      "less than"
  | .exclusiveMinimum => exclusiveSteps slots schema "exclusiveMinimum" .greater "greater than"
  | .exclusiveMaximum => exclusiveSteps slots schema "exclusiveMaximum" .less "less than"
  | .multipleOf => multipleSteps slots schema
  | .tuple => tupleSteps remark convert slots schema
  | .minItems => pure (itemBoundSteps schema "minItems" fun limit => ⟨some limit, none⟩)
  | .maxItems => pure (itemBoundSteps schema "maxItems" fun limit => ⟨none, some limit⟩)
  | .items => itemsSteps convert slots schema
  | .properties => propertiesSteps convert slots schema
  | .maxProperties => pure (memberBoundSteps schema "maxProperties" fun limit => ⟨none, some limit⟩)
  | .minProperties => pure (memberBoundSteps schema "minProperties" fun limit => ⟨some limit, none⟩)

/-- The slots after all of some rules. -/
def KindRule.runAll (remark : Remark → m Unit) (convert : Value → m Validator) (schema : Entries) :
    List KindRule → Admissibility → m Admissibility
  | [], slots => pure slots
  | rule :: rules, slots => do
    let steps ← rule.steps remark convert slots schema
    KindRule.runAll remark convert schema rules (slots.run steps)

end

end Schemata
