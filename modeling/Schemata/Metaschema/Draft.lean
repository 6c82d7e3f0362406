import Schemata.Fault
import Schemata.Value.Text

/-!
# `Schemata.Metaschema.Draft` — the form of schemas

A draft of the schema language says for each keyword what form its value has. The keywords stand in the order
in which they are examined, so that of several violations always the same one is reported.

## Contents
- **Forms.** `Shape`, the forms of the values of keywords.
- **Drafts.** `Draft`, with one for each draft from `Draft.third` to `Draft.latest`.
- **Choice.** `Draft.ofSchema`, the draft that a schema declares.
-/

namespace Schemata

/-! ## Forms -/

/-- The form of the value of a keyword. -/
inductive Shape
  | anything
  | text
  | flag
  | number
  | positiveNumber
  /-- A whole number that is not negative, which may have to be written without a point. -/
  | count (pointless : Bool)
  /-- Any whole number. -/
  | whole (pointless : Bool)
  /-- A text in which a regular expression is found. -/
  | textLike (pattern : String)
  /-- A text that is a pattern of the plain dialect. -/
  | pattern
  | list
  /-- A list with at least one item and no two equal ones. -/
  | distinctList
  /-- A list of distinct texts, of which there may have to be one. -/
  | names (nonEmpty : Bool)
  /-- The name of a type, or a list of some distinct ones. -/
  | types
  | schema
  /-- A list of at least one schema. -/
  | schemas
  | schemaOrFlag
  | schemaOrSchemas
  | schemaOrNames (nonEmpty : Bool)
  /-- A text, or a list of distinct texts and schemas. -/
  | looseTypes
  /-- A schema, or a list of any number of schemas. -/
  | schemaOrList
  /-- A text, a list of texts, or a schema. -/
  | dependency
  /-- A mapping whose values have a form. Its keys may have to be regular expressions, or texts. -/
  | mapping (values : Shape) (keys : Shape)
deriving DecidableEq, Repr

/-! ## Drafts -/

/-- A draft of the schema language. -/
structure Draft where
  /-- The forms of the values of keywords, in the order in which they are examined. -/
  keywords : List (String × Shape)
  /-- Whether a truth value is a schema. -/
  allowsFlags : Bool
  /-- Keywords that need another one beside them. -/
  companions : List (String × String)

/-- The names of types. -/
def typeNames : List String := ["array", "boolean", "integer", "null", "number", "object", "string"]

/-- A mapping of names to schemas. -/
def Shape.schemaMap : Shape := .mapping .schema .anything

/-- A mapping of regular expressions to schemas. -/
def Shape.patternMap : Shape := .mapping .schema .pattern

namespace Draft

/-- The names of anchors. -/
def anchorForm : String := "^[A-Za-z_][-A-Za-z0-9._]*$"

/-- References whose fragment is empty. -/
def identifierForm : String := "^[^#]*#?$"

/-- The latest draft, examined vocabulary by vocabulary. -/
def latest : Draft where
  keywords := [
    ("$id", .textLike identifierForm), ("$schema", .text), ("$ref", .text),
    ("$anchor", .textLike anchorForm), ("$dynamicRef", .text), ("$dynamicAnchor", .textLike anchorForm),
    ("$vocabulary", .mapping .flag .text), ("$comment", .text), ("$defs", .schemaMap),
    ("prefixItems", .schemas), ("items", .schema), ("contains", .schema), ("additionalProperties", .schema),
    ("properties", .schemaMap), ("patternProperties", .patternMap), ("dependentSchemas", .schemaMap),
    ("propertyNames", .schema), ("if", .schema), ("then", .schema), ("else", .schema),
    ("allOf", .schemas), ("anyOf", .schemas), ("oneOf", .schemas), ("not", .schema),
    ("unevaluatedItems", .schema), ("unevaluatedProperties", .schema),
    ("type", .types), ("const", .anything), ("enum", .list), ("multipleOf", .positiveNumber),
    ("maximum", .number), ("exclusiveMaximum", .number), ("minimum", .number), ("exclusiveMinimum", .number),
    ("maxLength", .count false), ("minLength", .count false), ("pattern", .pattern), ("maxItems", .count false),
    ("minItems", .count false), ("uniqueItems", .flag), ("maxContains", .count false), ("minContains", .count false),
    ("maxProperties", .count false), ("minProperties", .count false), ("required", .names false),
    ("dependentRequired", .mapping (.names false) .anything),
    ("title", .text), ("description", .text), ("default", .anything), ("deprecated", .flag),
    ("readOnly", .flag), ("writeOnly", .flag), ("examples", .list), ("format", .text),
    ("contentEncoding", .text), ("contentMediaType", .text), ("contentSchema", .schema),
    ("definitions", .schemaMap), ("dependencies", .mapping (.schemaOrNames false) .anything),
    ("$recursiveAnchor", .textLike anchorForm), ("$recursiveRef", .text)]
  allowsFlags := true
  companions := []

/-- The draft of September 2019, examined vocabulary by vocabulary. -/
def ofSeptember2019 : Draft where
  keywords := [
    ("$id", .textLike identifierForm), ("$schema", .text), ("$anchor", .textLike "^[A-Za-z][-A-Za-z0-9.:_]*$"),
    ("$ref", .text), ("$recursiveRef", .text), ("$recursiveAnchor", .flag), ("$vocabulary", .mapping .flag .text),
    ("$comment", .text), ("$defs", .schemaMap),
    ("additionalItems", .schema), ("unevaluatedItems", .schema), ("items", .schemaOrSchemas), ("contains", .schema),
    ("additionalProperties", .schema), ("unevaluatedProperties", .schema), ("properties", .schemaMap),
    ("patternProperties", .patternMap), ("dependentSchemas", .schemaMap), ("propertyNames", .schema),
    ("if", .schema), ("then", .schema), ("else", .schema), ("allOf", .schemas), ("anyOf", .schemas),
    ("oneOf", .schemas), ("not", .schema),
    ("multipleOf", .positiveNumber), ("maximum", .number), ("exclusiveMaximum", .number), ("minimum", .number),
    ("exclusiveMinimum", .number), ("maxLength", .count false), ("minLength", .count false), ("pattern", .pattern),
    ("maxItems", .count false), ("minItems", .count false), ("uniqueItems", .flag), ("maxContains", .count false),
    ("minContains", .count false), ("maxProperties", .count false), ("minProperties", .count false),
    ("required", .names false), ("dependentRequired", .mapping (.names false) .anything), ("const", .anything),
    ("enum", .list), ("type", .types),
    ("title", .text), ("description", .text), ("default", .anything), ("deprecated", .flag), ("readOnly", .flag),
    ("writeOnly", .flag), ("examples", .list), ("format", .text),
    ("contentMediaType", .text), ("contentEncoding", .text), ("contentSchema", .schema),
    ("definitions", .schemaMap), ("dependencies", .mapping (.schemaOrNames false) .anything)]
  allowsFlags := true
  companions := []

/-- The seventh draft. -/
def seventh : Draft where
  keywords := [
    ("$id", .text), ("$schema", .text), ("$ref", .text), ("$comment", .text), ("title", .text),
    ("description", .text), ("default", .anything), ("readOnly", .flag), ("writeOnly", .flag),
    ("examples", .list), ("multipleOf", .positiveNumber), ("maximum", .number),
    ("exclusiveMaximum", .number), ("minimum", .number), ("exclusiveMinimum", .number),
    ("maxLength", .count false), ("minLength", .count false), ("pattern", .pattern), ("additionalItems", .schema),
    ("items", .schemaOrSchemas), ("maxItems", .count false), ("minItems", .count false), ("uniqueItems", .flag),
    ("contains", .schema), ("maxProperties", .count false), ("minProperties", .count false), ("required", .names false),
    ("additionalProperties", .schema), ("definitions", .schemaMap), ("properties", .schemaMap),
    ("patternProperties", .patternMap), ("dependencies", .mapping (.schemaOrNames false) .anything),
    ("propertyNames", .schema), ("const", .anything), ("enum", .list), ("type", .types), ("format", .text),
    ("contentMediaType", .text), ("contentEncoding", .text), ("if", .schema), ("then", .schema),
    ("else", .schema), ("allOf", .schemas), ("anyOf", .schemas), ("oneOf", .schemas), ("not", .schema)]
  allowsFlags := true
  companions := []

/-- The sixth draft. -/
def sixth : Draft where
  keywords := [
    ("$id", .text), ("$schema", .text), ("$ref", .text), ("title", .text), ("description", .text),
    ("default", .anything), ("examples", .list), ("multipleOf", .positiveNumber), ("maximum", .number),
    ("exclusiveMaximum", .number), ("minimum", .number), ("exclusiveMinimum", .number),
    ("maxLength", .count false), ("minLength", .count false), ("pattern", .pattern), ("additionalItems", .schema),
    ("items", .schemaOrSchemas), ("maxItems", .count false), ("minItems", .count false), ("uniqueItems", .flag),
    ("contains", .schema), ("maxProperties", .count false), ("minProperties", .count false),
    ("required", .names false), ("additionalProperties", .schema), ("definitions", .schemaMap),
    ("properties", .schemaMap), ("patternProperties", .schemaMap),
    ("dependencies", .mapping (.schemaOrNames false) .anything), ("propertyNames", .schema), ("const", .anything),
    ("enum", .distinctList), ("type", .types), ("format", .text), ("allOf", .schemas), ("anyOf", .schemas),
    ("oneOf", .schemas), ("not", .schema)]
  allowsFlags := true
  companions := []

/-- The fourth draft, in which limits are made exclusive by a flag beside them. -/
def fourth : Draft where
  keywords := [
    ("id", .text), ("$schema", .text), ("title", .text), ("description", .text), ("default", .anything),
    ("multipleOf", .positiveNumber), ("maximum", .number), ("exclusiveMaximum", .flag),
    ("minimum", .number), ("exclusiveMinimum", .flag), ("maxLength", .count true), ("minLength", .count true),
    ("pattern", .pattern), ("additionalItems", .schemaOrFlag), ("items", .schemaOrSchemas),
    ("maxItems", .count true), ("minItems", .count true), ("uniqueItems", .flag), ("maxProperties", .count true),
    ("minProperties", .count true), ("required", .names true), ("additionalProperties", .schemaOrFlag),
    ("definitions", .schemaMap), ("properties", .schemaMap), ("patternProperties", .schemaMap),
    ("dependencies", .mapping (.schemaOrNames true) .anything), ("enum", .distinctList), ("type", .types),
    ("format", .text), ("allOf", .schemas), ("anyOf", .schemas), ("oneOf", .schemas), ("not", .schema)]
  allowsFlags := false
  companions := [("exclusiveMaximum", "maximum"), ("exclusiveMinimum", "minimum")]

/-- The third draft, in which a schema may stand where types are named. -/
def third : Draft where
  keywords := [
    ("type", .looseTypes), ("properties", .schemaMap), ("patternProperties", .schemaMap),
    ("additionalProperties", .schemaOrFlag), ("items", .schemaOrList), ("additionalItems", .schemaOrFlag),
    ("required", .flag), ("dependencies", .mapping .dependency .anything), ("minimum", .number),
    ("maximum", .number), ("exclusiveMinimum", .flag), ("exclusiveMaximum", .flag), ("minItems", .count true),
    ("maxItems", .count true), ("uniqueItems", .flag), ("pattern", .pattern), ("minLength", .count true),
    ("maxLength", .whole true), ("enum", .distinctList), ("default", .anything), ("title", .text),
    ("description", .text), ("format", .text), ("divisibleBy", .positiveNumber), ("disallow", .looseTypes),
    ("extends", .schemaOrList), ("id", .text), ("$ref", .text), ("$schema", .text)]
  allowsFlags := false
  companions := [("exclusiveMinimum", "minimum"), ("exclusiveMaximum", "maximum")]

/-! ## Choice -/

/-- An address without blanks in front, line breaks and tabs, with its scheme in small letters. -/
def tidyAddress (address : List Char) : List Char :=
  let cs := (address.dropWhile fun c => c.toNat ≤ 0x20).filter fun c => c != '\t' && c != '\n' && c != '\r'
  let scheme := cs.takeWhile fun c => c.isAlphanum || c == '+' || c == '-' || c == '.'
  match cs.drop scheme.length with
  | ':' :: rest => scheme.map Char.toLower ++ ':' :: rest
  | _ => cs

/-- A text without a character at its end. -/
def dropLast (c : Char) (cs : List Char) : List Char :=
  if cs.getLast? = some c then cs.dropLast else cs

/-- An address in the form in which it is compared: an empty fragment and an empty query do not count. -/
def plainAddress (address : String) : String :=
  String.ofList (dropLast '?' (dropLast '#' (tidyAddress address.toList)))

/-- The drafts before the latest one that can be declared, by their addresses. -/
def declared : List (String × Draft) := [
  ("https://json-schema.org/draft/2019-09/schema", ofSeptember2019),
  ("http://json-schema.org/draft-07/schema", seventh),
  ("http://json-schema.org/draft-06/schema", sixth),
  ("http://json-schema.org/draft-04/schema", fourth),
  ("http://json-schema.org/draft-03/schema", third)]

/-- The draft that a schema declares; without a known address it is the latest one. -/
def ofSchema (schema : Entries) : Except Fault Draft :=
  match Entries.get? schema "$schema" with
  | none => .ok latest
  | some (.string address) => .ok ((declared.lookup (plainAddress address)).getD latest)
  | some (.list _) | some (.dict _) | some (.set _) => .error .unsupported
  | some v => if v.truthy then .error .missingPart else .ok latest

end Draft

end Schemata
