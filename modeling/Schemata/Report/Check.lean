import Schemata.Report.Basic
import Schemata.Schema.Compile
import Schemata.Store.Basic

/-!
# `Schemata.Report.Check` — checking documents in files

A schema is loaded and compiled once, and every document is checked with it. A document that cannot be loaded
has that as its only error and does not keep the others from being checked.

## Contents
- **Errors.** `CheckError`, what stops all checking.
- **Documents.** `issueFinding`, `Store.checkDocument` and `Store.checkDocuments`.
-/

namespace Schemata

/-! ## Errors -/

/-- What stops all checking. -/
inductive CheckError
  | load (e : LoadError)
  | compile (e : CompileError)
  | fault (f : Fault)

/-- The message of an error; unforeseen ones have none. -/
def CheckError.message? : CheckError → Option String
  | .load e => e.message?
  | .compile (.fault _) => none
  | .compile e => some e.message
  | .fault _ => none

/-- A step of checking. -/
abbrev Checking := ExceptT CheckError (StateM Store)

/-- A step of loading as a step of checking. -/
def Loading.checked {α : Type} (load : Loading α) : Checking α :=
  ExceptT.mk (load.run.map fun r => r.mapError .load)

/-! ## Documents -/

/-- The source of the remarks on a topic. -/
def Topic.source : Topic → String
  | .literals => "handlers.primitive.literals"
  | .arrays => "handlers.primitive.arrays"
  | .objects => "handlers.refinement.objects"
  | .annotations => "handlers.refinement.annotations"

/-- The finding of an issue, at the place of the value in the document. -/
def issueFinding (places : SourceMap) (file : String) (issue : Issue) : Finding :=
  let note := issue.note
  let location := places.locate (some note.path) (some file)
  ⟨note.message, location.line, location.column, some note.path⟩

/-- The warnings about a document: one without any content is checked as null. -/
def documentWarnings (document : Document) : List Finding :=
  match document.value with
  | .null => if document.places.isEmpty then [⟨"Document is empty; it is checked as null", none, none, none⟩] else []
  | _ => []

/-- The report on a document. -/
def documentReport (validator : Validator) (file : String) (document : Document) :
    Except Fault FileReport := do
  let outcome ← validator.validate document.value
  let errors :=
    match outcome with
    | .ok _ => []
    | .error issues => issues.map (issueFinding document.places file)
  return ⟨file, errors, documentWarnings document⟩

namespace Store

variable [Yaml.Engine]

/-- Checks the document in a file. One that cannot be loaded has that as its only error. -/
def checkDocument (validator : Validator) (path : String) : Checking FileReport := do
  let file := Path.plain path
  let (loaded, s) := (loadDocument file).run.run (← get)
  set s
  match loaded with
  | .error e =>
    match e.subject, e.message? with
    | .loading, some message => return ⟨file, [⟨message, none, none, none⟩], []⟩
    | _, _ => throw (.load e)
  | .ok document =>
    match documentReport validator file document with
    | .error f => throw (.fault f)
    | .ok report =>
      record "checker" s!"Checked {file}: {report.errors.length} error(s)"
      return report

/-- Compiles a schema, recording the remarks. -/
def compileSchema [Pattern.Engine] (schema : Value) : Checking Validator := do
  let (compiled, remarks) := compileLogged schema
  remarks.forM fun r => record r.topic.source r.text
  match compiled with
  | .ok validator => return validator
  | .error e => throw (.compile e)

/-- Checks documents with the schema in a file. -/
def checkDocuments [Pattern.Engine] [Metaschema.Engine] (schema : String) (documents : List String)
    (check : Option Bool) : Checking (List FileReport) := do
  let schema ← (loadSchema schema check).checked
  let validator ← compileSchema schema
  modify fun s => { s.clearDocuments with keepsDocuments := s.settings.cacheEnabled }
  documents.mapM (checkDocument validator)

end Store

end Schemata
