import Schemata.Json.Writer
import Schemata.Report.Basic
import Schemata.Value.Basic

/-!
# `Schemata.Report.Form` — how reports are written

## Contents
- `Form`, the forms of a report, and `Form.ofName?`.
- `Form.write`, with one function for each form.
-/

namespace Schemata

-- the core zero, also beside the zeros of other libraries
attribute [local instance (high)] Zero.ofOfNat0

/-- The forms of a report. -/
inductive Form
  /-- For reading, with a heading for each document. -/
  | human
  | json
  /-- One line for each finding, as annotations of a build. -/
  | annotations
deriving DecidableEq, Repr

namespace Form

/-- The names of the forms. -/
def names : List (String × Form) := [("human", .human), ("json", .json), ("github-actions", .annotations)]

/-- The form with a name. -/
def ofName? (name : String) : Option Form := names.lookup name

/-- A finding for reading. -/
def humanLine (r : FileReport) (label : String) (finding : Finding) : String :=
  s!"  {label}: {finding.message}{(r.location finding).text}\n"

/-- A report for reading; without findings there is nothing to read. -/
def humanReport (r : FileReport) : String :=
  if r.isEmpty then ""
  else
    s!"\n{r.file}:\n" ++ String.join (r.errors.map (humanLine r "ERROR")) ++
      String.join (r.warnings.map (humanLine r "WARNING"))

/-- A finding as a mapping; what is not known is left out. -/
def findingValue (finding : Finding) : Value :=
  let part (name : String) (v : Option Value) : Entries := (v.map fun v => (.string name, v)).toList
  .dict ([(.string "message", .string finding.message)] ++ part "line" (finding.line.map .int) ++
    part "column" (finding.column.map .int) ++ part "pointer" (finding.pointer.map .string))

/-- A report as a mapping. -/
def reportValue (r : FileReport) : Value :=
  .dict [(.string "file", .string r.file), (.string "errors", .list (r.errors.map findingValue)),
    (.string "warnings", .list (r.warnings.map findingValue))]

/-- The number of all findings of some sort. -/
def total (findings : FileReport → List Finding) (reports : List FileReport) : Value :=
  .int ((reports.map fun r => (findings r).length).sum : Nat)

/-- All reports as a mapping, with the numbers of documents, errors and warnings in front. -/
def summaryValue (reports : List FileReport) : Value :=
  .dict [(.string "files", .int reports.length), (.string "errors", total FileReport.errors reports),
    (.string "warnings", total FileReport.warnings reports),
    (.string "results", .list (reports.map reportValue))]

/-- A finding as an annotation. Without a line it is put on the first one. -/
def annotatedLine (r : FileReport) (level : String) (finding : Finding) : String :=
  let column := (finding.column.map fun column => s!",col={column}").getD ""
  s!"::{level} file={r.file},line={finding.line.getD 1}{column}::{finding.message}\n"

/-- The findings of a report as annotations. -/
def annotationLines (r : FileReport) : String :=
  String.join (r.errors.map (annotatedLine r "error")) ++ String.join (r.warnings.map (annotatedLine r "warning"))

/-- Writes reports in a form. -/
def write (form : Form) (reports : List FileReport) : String :=
  match form with
  | .human => String.join (reports.map humanReport)
  | .json => Json.write (some 2) (summaryValue reports) ++ "\n"
  | .annotations => String.join (reports.map annotationLines)

end Form

end Schemata
