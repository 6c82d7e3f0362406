import Schemata.Log.Basic
import Schemata.Settings
import Schemata.Store.Document

/-!
# `Schemata.Store.Basic` — schemas and documents that are kept

What has been read from a file is kept, if the settings say so, and found again by the resolved path. A kept
schema is checked anew whenever that is asked for; a schema that does not have the right form is kept all the
same, because it is kept before it is checked.

## Contents
- **The store.** `Store`, `Loading`, and the records of loading.
- **Loading.** `Store.loadSchema` and `Store.loadDocument`.
- **Forgetting.** `Store.clearSchemas` and `Store.clearDocuments`.
-/

namespace Schemata

/-! ## The store -/

/-- Files, settings, and what has been kept of the files. -/
structure Store where
  files : Files
  settings : Settings
  /-- Whether documents are kept. -/
  keepsDocuments : Bool
  schemas : List (String × Value) := []
  documents : List (String × Document) := []
  records : List Log.Record := []

namespace Store

/-- A store that keeps documents if the settings say so. -/
def ofFiles (files : Files) (settings : Settings) : Store := ⟨files, settings, settings.cacheEnabled, [], [], []⟩

end Store

/-- A step of loading; what it has kept and recorded survives an error. -/
abbrev Loading := ExceptT LoadError (StateM Store)

/-- The level of all records of the program. -/
def debugLevel : Int := 10

/-- Records something under a source below the root of all sources. -/
def record {ε : Type} (source message : String) : ExceptT ε (StateM Store) Unit :=
  modify fun s =>
    { s with records := s.records ++ [⟨Settings.logRoot ++ "." ++ source, debugLevel, message⟩] }

/-- The source of the records of loading. -/
def loaderSource : String := "loader"

namespace Store

/-! ## Loading -/

/-- An answer or an error as a step of loading. -/
def orError {α : Type} (x : Except LoadError α) : Loading α :=
  match x with
  | .ok a => pure a
  | .error e => throw e

section

variable [Yaml.Engine]

/-- Reads a schema, and keeps it if the settings say so. -/
def readSchema (path : String) : Loading Value := do
  let s ← get
  let schema ← orError ((readValue s.files path).bind (asSchema path))
  if s.settings.cacheEnabled then
    modify fun s => { s with schemas := (path, schema) :: s.schemas }
  return schema

/-- Loads the schema in a file. It is checked if that is asked for, or if nothing is asked and the settings
say so. -/
def loadSchema [Metaschema.Engine] (path : String) (check : Option Bool) : Loading Value := do
  let path := Path.resolve path
  let s ← get
  let kept := if s.settings.cacheEnabled then s.schemas.lookup path else none
  let schema ←
    match kept with
    | some schema =>
      record loaderSource s!"Loading schema from cache: {path}"
      pure schema
    | none =>
      record loaderSource s!"Loading schema file: {path}"
      readSchema path
  if check.getD s.settings.checkSchema then orError (checkForm schema)
  return schema

/-- Loads the document in a file. -/
def loadDocument (path : String) : Loading Document := do
  let path := Path.resolve path
  let s ← get
  match if s.keepsDocuments then s.documents.lookup path else none with
  | some document =>
    record loaderSource s!"Loading document from cache: {path}"
    return document
  | none =>
    record loaderSource s!"Loading document: {path}"
    let document ← orError (Document.read s.files path)
    if s.keepsDocuments then
      modify fun s => { s with documents := (path, document) :: s.documents }
    return document

end

/-! ## Forgetting -/

/-- Forgets all schemas. -/
def clearSchemas (s : Store) : Store := { s with schemas := [] }

/-- Forgets all documents. -/
def clearDocuments (s : Store) : Store := { s with documents := [] }

end Store

end Schemata
