import Schemata.Fault
import Schemata.Json.Reader
import Schemata.Schema.Error
import Schemata.Text.Utf8
import Schemata.Yaml.Cursor

/-!
# `Schemata.Store.Error` — why a file cannot be loaded

## Contents
- `LoadError` with `LoadError.ofYaml`, its `LoadError.subject` and `LoadError.message?`.
-/

namespace Schemata

/-- Why a file cannot be loaded, or is no schema. -/
inductive LoadError
  | notFound (path : String)
  | notAFile (path : String)
  /-- The content of the file cannot be read. -/
  | unreadable (path reason : String)
  | undecodable (path : String) (e : Text.Utf8Error)
  | badJson (path : String) (fault : JsonFault) (line : Nat)
  | badYaml (path : String)
  /-- The file holds neither a mapping nor a truth value. -/
  | notASchemaFile (path : String)
  /-- The schema departs from the form that its draft demands. -/
  | badForm (place : List String)
  /-- The schema is neither a mapping nor a truth value. -/
  | notASchema (typeName : String)
  /-- The system does not say what stands under the path. -/
  | unreachable (path : String)
  /-- A number in the file is too long to be read. -/
  | numberTooLong
  /-- The file spells half of a pair of codes, which is no character of a text. -/
  | notUnicode
  /-- A scalar in the file has no value. -/
  | noValue (e : Yaml.YamlError)
  /-- An operation on the schema is not defined. -/
  | fault (f : Fault)

/-- What an error speaks about. -/
inductive LoadError.Subject
  | loading
  | schema
  /-- Neither: the error is no fault of the file that is foreseen. -/
  | unforeseen
  /-- The file spells a text that no value here holds; what comes of it is left open. -/
  | leftOpen
deriving DecidableEq, Repr

namespace LoadError

/-- The error of a file that holds a YAML text. -/
def ofYaml (path : String) : Yaml.YamlError → LoadError
  | .malformed => .badYaml path
  | .notUnicode => .notUnicode
  | e => .noValue e

/-- What an error speaks about. -/
def subject : LoadError → Subject
  | .notFound _ | .notAFile _ | .unreadable _ _ | .undecodable _ _ | .badJson _ _ _ | .badYaml _ => .loading
  | .notASchemaFile _ | .badForm _ | .notASchema _ => .schema
  | .unreachable _ | .numberTooLong | .noValue _ | .fault _ => .unforeseen
  | .notUnicode => .leftOpen

/-- The message of an error; unforeseen ones have none. -/
def message? : LoadError → Option String
  | .notFound path => s!"File not found: {path}"
  | .notAFile path => s!"Path is not a file: {path}"
  | .unreadable path reason => s!"Failed to read file {path}: {reason}"
  | .undecodable path e => s!"Failed to read file {path}: {e.message}"
  | .badJson path e line => s!"Invalid JSON in file {path}: {e.message} (line {line})"
  | .badYaml path => s!"Failed to parse file {path}: <detail>"
  | .notASchemaFile path => s!"Schema file {path} must hold a mapping or a boolean"
  | .badForm place => "Invalid schema at '/" ++ "/".intercalate place ++ "': <detail>"
  | .notASchema typeName => s!"Schema must be a boolean or a mapping, got {typeName}"
  | .unreachable _ | .numberTooLong | .notUnicode | .noValue _ | .fault _ => none

end LoadError

end Schemata
