import Schemata.Source.Location

/-!
# `Schemata.Report.Basic` — what was found in a document

## Contents
- `Finding`, a message with a place, and `Finding.location`.
- `FileReport`, the errors and warnings of one document.
-/

namespace Schemata

/-- A message and the place that it is about, as far as it is known. -/
structure Finding where
  message : String
  line : Option Int := none
  column : Option Int := none
  pointer : Option String := none
deriving DecidableEq, Repr

/-- The errors and warnings of one document. -/
structure FileReport where
  file : String
  errors : List Finding := []
  warnings : List Finding := []
deriving DecidableEq, Repr

namespace FileReport

/-- Whether no errors were found. -/
def ok (r : FileReport) : Bool := r.errors.isEmpty

/-- Whether nothing was found. -/
def isEmpty (r : FileReport) : Bool := r.errors.isEmpty && r.warnings.isEmpty

/-- Adds an error. -/
def addError (r : FileReport) (finding : Finding) : FileReport :=
  { r with errors := r.errors ++ [finding] }

/-- Adds a warning. -/
def addWarning (r : FileReport) (finding : Finding) : FileReport :=
  { r with warnings := r.warnings ++ [finding] }

/-- The location of a finding. -/
def location (r : FileReport) (finding : Finding) : Location :=
  ⟨some r.file, finding.pointer, finding.line, finding.column⟩

end FileReport

end Schemata
