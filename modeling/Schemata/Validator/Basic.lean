import Schemata.Issue
import Schemata.Pattern.Engine
import Schemata.Value.Order
import Schemata.Value.Text

/-!
# `Schemata.Validator.Basic` — validators

A validator is a tree: leaves for the kinds of values and for literals, structures for arrays, tuples,
objects and files, and wrappers that refine, default, describe or combine other validators.

## Contents
- **Parts.** `Bounds`, `FileLimits`.
- **Validators.** `Validator`, the conditions `Test` of refinements, `Additional` members of objects,
  `Field`s and `PatternRule`s.
- **Combinators.** `Validator.unionOf`, `Validator.description?`, `Field.insert`.
-/

namespace Schemata

/-! ## Parts -/

/-- A least and a greatest number, each of them any value that a schema names. -/
structure Bounds where
  least : Option Value := none
  most : Option Value := none
deriving Inhabited

/-- Limits on the size of a file, and the media types it may have; no types allow any. -/
structure FileLimits where
  size : Bounds := {}
  mediaTypes : List String := []
deriving Inhabited

/-! ## Validators -/

mutual

/-- A composable check of one value. -/
inductive Validator
  /-- Accepts everything, the absent value included. -/
  | any
  /-- Accepts nothing. -/
  | never
  | string
  | number
  | boolean
  | null
  /-- Accepts what equals a value. -/
  | literal (value : Value)
  /-- Accepts what equals one of some values. -/
  | enumeration (values : List Value)
  /-- Puts a condition on the output of another validator. -/
  | refined (inner : Validator) (test : Test) (message : String)
  /-- Accepts the absent value besides. -/
  | optional (inner : Validator)
  /-- Replaces the absent value. -/
  | defaulted (inner : Validator) (value : Value)
  | described (inner : Validator) (text : String)
  /-- Accepts what one of the options accepts; tags name the kind that each option is for. -/
  | union (options : List Validator) (tags : List String)
  /-- Accepts what both sides accept. -/
  | both (left right : Validator)
  | file (limits : FileLimits)
  | array (element : Validator) (bounds : Bounds)
  /-- A list checked position by position, with a validator for further items if there may be any. -/
  | tuple (items : List Validator) (rest : Option Validator) (bounds : Bounds)
  | object (fields : List Field) (additional : Additional) (bounds : Bounds)

/-- A condition on a value. -/
inductive Test
  /-- Any condition that is put from outside; it may fail to give an answer. -/
  | custom (holds : Value → Except Fault Bool)
  | integral
  | compares (relation : Relation) (limit : Value)
  | multipleOf (divisor : Value)
  /-- Compares the number of characters as a reader counts them. -/
  | characters (relation : Relation) (limit : Value)
  | found (pattern : Pattern)
  /-- Compares the number of items or members. -/
  | size (relation : Relation) (limit : Value)
  /-- Composite values have to equal one of some values. -/
  | amongComposites (members : List Value)
  | equals (value : Value)
  /-- Items of a list are accepted position by position, and further ones as `extra` says. -/
  | positions (items : List Validator) (extra : Additional)
  /-- The number of accepted items of a list lies between limits. -/
  | counted (item : Validator) (least : Value) (most : Option Value)
  /-- Undeclared members are accepted by every rule whose pattern fits, and by `others` if none does. -/
  | patterns (rules : List PatternRule) (declared : List Value) (others : Additional)
  | distinct
  | rejectedBy (negated : Validator)
  /-- Objects have all the given keys. -/
  | hasKeys (keys : List Value)

/-- What becomes of members or items beyond those declared. -/
inductive Additional
  | strict
  | passthrough
  | checked (validator : Validator)

/-- A declared member of an object. -/
inductive Field
  | mk (name : Value) (required : Bool) (validator : Validator)

/-- A validator for the members whose key fits a pattern. -/
inductive PatternRule
  | mk (pattern : Pattern) (validator : Validator)

end

instance : Inhabited Validator := ⟨.any⟩

/-! ## Combinators -/

namespace Field

/-- The name of a field. -/
def name : Field → Value
  | .mk name _ _ => name

/-- Whether a field has to be present. -/
def required : Field → Bool
  | .mk _ required _ => required

/-- The validator of a field. -/
def validator : Field → Validator
  | .mk _ _ validator => validator

/-- Adds a field; one of the same name keeps its place and is replaced. -/
def insert : List Field → Field → List Field
  | [], field => [field]
  | f :: fs, field =>
    if f.name.alike field.name then .mk f.name field.required field.validator :: fs
    else f :: insert fs field

/-- Whether a field of a name is declared. -/
def declares (fields : List Field) (name : Value) : Bool := fields.any fun f => f.name.alike name

end Field

namespace Validator

/-- A union of options; a single option is taken as it is. -/
def unionOf (options : List Validator) (tags : List String) : Validator :=
  match options with
  | [] => .never
  | [option] => option
  | options => .union options tags

/-- The description of a validator, which only an outermost description gives. -/
def description? : Validator → Option String
  | .described _ text => some text
  | _ => none

/-- The message of a refinement that is given none. -/
def defaultMessage : String := "Invalid value"

/-- The items of an array or the members of an object take no bound that is not given. -/
def replaceBounds (old new : Bounds) : Bounds :=
  ⟨new.least.or old.least, new.most.or old.most⟩

end Validator

end Schemata
