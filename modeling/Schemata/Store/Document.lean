import Schemata.Metaschema.Engine
import Schemata.Source.Map
import Schemata.Store.Error
import Schemata.Store.Files

/-!
# `Schemata.Store.Document` — documents in files

A file whose name ends in `.json` holds a JSON text, any other file a YAML text. The places of values are
always those of the YAML tree.

## Contents
- **Reading.** `Files.content`, `Document.parse` and `Document.read`.
- **Schemas.** `checkForm`, whether a value has the form of a schema, and `asSchema`.
-/

namespace Schemata

/-! ## Reading -/

/-- The characters of a file, every line end being a line feed. -/
def Files.content (files : Files) (path : String) : Except LoadError String :=
  match files.find? path with
  | none => .error (.notFound path)
  | some .directory => .error (.notAFile path)
  | some (.unreadable reason) => .error (.unreadable path reason)
  | some .unreachable => .error (.unreachable path)
  | some (.file bytes) =>
    match Text.Utf8.decode bytes with
    | .ok cs => .ok (String.ofList (Text.unifyLines cs))
    | .error e => .error (.undecodable path e)

/-- The value of a JSON text. -/
def parseJson (path content : String) : Except LoadError Value :=
  match Json.read content with
  | .ok v => .ok v
  | .error (.syntaxFault fault line) => .error (.badJson path fault line)
  | .error .numberTooLong => .error .numberTooLong
  | .error .notUnicode => .error .notUnicode

section

variable [Yaml.Engine]

/-- The value of a YAML text. -/
def parseYaml (path content : String) : Except LoadError Value :=
  (Yaml.load content).mapError (.ofYaml path)

/-- The value of a file's content. -/
def parseContent (path content : String) : Except LoadError Value :=
  if Path.suffix path = ".json".toList then parseJson path content else parseYaml path content

/-- A document with the places of its values. -/
structure Document where
  value : Value
  places : SourceMap

namespace Document

/-- The document that a file's content holds. -/
def parse (path content : String) : Except LoadError Document := do
  let value ← parseContent path content
  let places ← (SourceMap.ofText? content).mapError (.ofYaml path)
  return ⟨value, places⟩

/-- Reads the document in a file. -/
def read (files : Files) (path : String) : Except LoadError Document := do
  parse path (← files.content path)

end Document

/-! ## Schemas -/

/-- Reads the value in a file. -/
def readValue (files : Files) (path : String) : Except LoadError Value := do
  parseContent path (← files.content path)

end

/-- A value of a file that may be a schema. -/
def asSchema (path : String) (v : Value) : Except LoadError Value :=
  match v with
  | .dict _ | .bool _ => .ok v
  | _ => .error (.notASchemaFile path)

/-- Checks that a value has the form of schemas. -/
def checkForm [Metaschema.Engine] (v : Value) : Except LoadError Unit :=
  match v with
  | .bool _ => .ok ()
  | .dict entries =>
    match Metaschema.Engine.departure? entries with
    | .ok none => .ok ()
    | .ok (some place) => .error (.badForm place)
    | .error f => .error (.fault f)
  | v => .error (.notASchema v.typeName)

end Schemata
