import Schemata.CommandLine.Arguments
import Schemata.Report.Check

/-!
# `Schemata.CommandLine.Run` — what the program does

## Contents
- `Result`, how the program ends and what it has written.
- `run`, the program as a function of its arguments, the files and the settings, for any engines of regular
  expressions, of YAML texts and of the language of schemas.
-/

namespace Schemata.CommandLine

/-- How the program ends. -/
inductive Ending
  /-- With an exit code: zero without errors, one if documents have errors, two if nothing was checked. -/
  | code (n : Nat)
  /-- With an error that is not foreseen. -/
  | unforeseen (e : CheckError)

/-- How the program ends and what it has written. -/
structure Result where
  ending : Ending
  out : String := ""
  err : String := ""

/-- What stands for the description of the command line. -/
def usage : String := "<usage>"

/-- The last line of a report for reading, which only stands where nothing is wrong. -/
def conclusion (form : Form) (reports : List FileReport) : String :=
  if form = .human ∧ reports.all FileReport.ok then
    s!"Checked {reports.length} document(s) with no errors.\n"
  else ""

variable [Pattern.Engine] [Yaml.Engine] [Metaschema.Engine]

/-- Carries out a request. -/
def perform (request : Request) (files : Files) (settings : Settings) : Result :=
  let (outcome, store) := (Store.checkDocuments request.schema request.documents request.checkSchema).run.run
    (Store.ofFiles files settings)
  let split := settings.split
  let out := split.written .results store.records
  let err := split.written .errors store.records
  match outcome with
  | .ok reports =>
    ⟨.code (if reports.all FileReport.ok then 0 else 1),
      out ++ request.form.write reports ++ conclusion request.form reports, err⟩
  | .error e =>
    match e.message? with
    | some message => ⟨.code 2, out, err ++ s!"Error: {message}\n"⟩
    | none => ⟨.unforeseen e, out, err⟩

/-- Runs the program. -/
def run (arguments : List String) (files : Files) (settings : Settings) : Result :=
  match Reading.ofArguments arguments with
  | .request request => perform request files settings
  | .help => ⟨.code 0, usage, ""⟩
  | .misuse => ⟨.code 2, "", usage⟩

end Schemata.CommandLine
