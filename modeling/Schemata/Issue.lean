import Schemata.Pointer
import Schemata.Value.Basic

/-!
# `Schemata.Issue` — what validation reports

An issue says what is wrong with the value at a place. Its cause determines both its code and its message.

## Contents
- `Cause` with `Cause.code` and `Cause.message`.
- `Issue`, a cause at a place, with its line of text `Issue.line`.
- `Note`, an issue as plain text, and `failureText`, the text of a failed validation.
-/

namespace Schemata

/-- What can be wrong with a value. Limits and literals are kept as they are written in messages. -/
inductive Cause
  | required
  | never
  | wrongType (expected actual : String)
  | literal (expected : String)
  | enumeration (expected : List String)
  | notFinite
  | refinement (message : String)
  | noOption
  | tooFewItems (least : String)
  | tooManyItems (most : String)
  | itemsShortOf (size : Nat)
  | itemsBeyond (size : Nat)
  | itemsBelow (size : Nat)
  | tooFewMembers (least : String)
  | tooManyMembers (most : String)
  | unknownMember (key : String)
  | missingMember (key : String)
  | fileTooSmall (least : String)
  | fileTooBig (most : String)
  | fileSizeUnknown
  | mediaType (expected : List String)
deriving DecidableEq, Repr

namespace Cause

/-- The code under which a cause is reported. -/
def code : Cause → String
  | .required | .missingMember _ => "required"
  | .never => "never"
  | .wrongType _ _ | .mediaType _ => "invalid_type"
  | .literal _ => "invalid_literal"
  | .enumeration _ => "invalid_enum_value"
  | .notFinite => "not_finite"
  | .refinement _ => "custom"
  | .noOption => "invalid_union"
  | .tooFewItems _ | .itemsShortOf _ | .itemsBelow _ | .tooFewMembers _ | .fileTooSmall _ => "too_small"
  | .tooManyItems _ | .itemsBeyond _ | .tooManyMembers _ | .fileTooBig _ => "too_big"
  | .unknownMember _ => "unrecognized_keys"
  | .fileSizeUnknown => "invalid_file"

/-- The message of a cause. -/
def message : Cause → String
  | .required => "Required"
  | .never => "No value is allowed here"
  | .wrongType expected actual => s!"Invalid type: expected {expected}, got {actual}"
  | .literal expected => s!"Invalid literal value, expected {expected}"
  | .enumeration expected => "Invalid enum value. Expected one of: " ++ ", ".intercalate expected
  | .notFinite => "Number must be finite"
  | .refinement message => message
  | .noOption => "Value does not match any allowed schema"
  | .tooFewItems least => s!"Array must contain at least {least} item(s)"
  | .tooManyItems most => s!"Array must contain at most {most} item(s)"
  | .itemsShortOf size | .itemsBeyond size => s!"Array must contain exactly {size} item(s)"
  | .itemsBelow size => s!"Array must contain at least {size} item(s)"
  | .tooFewMembers least => s!"Object must have at least {least} properties"
  | .tooManyMembers most => s!"Object must have at most {most} properties"
  | .unknownMember key => s!"Unknown field '{key}'"
  | .missingMember key => s!"Missing required field '{key}'"
  | .fileTooSmall least => s!"File must be at least {least} bytes"
  | .fileTooBig most => s!"File must be at most {most} bytes"
  | .fileSizeUnknown => "File size cannot be determined"
  | .mediaType expected => "Invalid media type: expected " ++ " | ".intercalate expected

end Cause

/-- A cause at a place. -/
structure Issue where
  path : Pointer
  cause : Cause
deriving DecidableEq, Repr

/-- An issue as plain text. -/
structure Note where
  path : String
  code : String
  message : String
deriving DecidableEq, Repr

namespace Note

/-- The line of a note: its message, behind its path unless that is the whole document. -/
def line (note : Note) : String :=
  if note.path.isEmpty then note.message else s!"{note.path}: {note.message}"

end Note

namespace Issue

/-- The plain text of an issue. -/
def note (issue : Issue) : Note := ⟨issue.path.encode, issue.cause.code, issue.cause.message⟩

end Issue

/-- The text of a failed validation: a heading and a line for each note. -/
def failureText (notes : List Note) : String :=
  let details := "\n".intercalate (notes.map fun note => "  - " ++ note.line)
  if details.isEmpty then "Validation failed" else "Validation failed:\n" ++ details

end Schemata
