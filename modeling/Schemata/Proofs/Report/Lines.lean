import Schemata.Metaschema.Check
import Schemata.Pattern.Reader
import Schemata.Proofs.Report.Independence
import Schemata.Proofs.Schema.Faults
import Schemata.Proofs.Schema.Messages
import Schemata.Report.Form
import Schemata.Yaml.Value

/-!
# `Schemata.Proofs.Report.Lines` — one line for every annotation

Reports that are written as annotations have a line for every finding, as long as no line break gets into a line. The
words of messages have none, and quoted values have theirs escaped. But keys, names and paths are written as they are,
so a line break in one of these breaks the line.

## Contents
- **Annotations.** `FileReport.entries`, `Form.annotated`, and `Form.isLines_annotations_iff`.
- **Paths.** Plain and resolved paths, and the messages of files that cannot be read.
- **Reports.** `Files.report_unbroken` and `checkDocuments_lines`.
-/

namespace Schemata

/-! ## Annotations -/

/-- The findings of a report in the order in which they are written, each under its level. -/
def FileReport.entries (r : FileReport) : List (String × Finding) :=
  r.errors.map (("error", ·)) ++ r.warnings.map (("warning", ·))

namespace Form

end Form

/-! ## Paths -/

namespace Path

theorem unbroken_parts {path : String} (h : Unbroken path) : ∀ part ∈ parts path, Unbroken part := by
  have hsplit : NoBreak (['/'].intercalate (path.toList.splitOn '/')) := by
    rw [List.intercalate_splitOn]
    exact h
  refine List.forall_mem_map.mpr fun part hpart => unbroken_ofList.mpr ?_
  exact (noBreak_intercalate (by decide)).mp hsplit part hpart

theorem unbroken_join (isAbsolute : Bool) {parts : List String} (h : ∀ part ∈ parts, Unbroken part) :
    Unbroken (join isAbsolute parts) := by
  have hjoined : Unbroken ("/".intercalate parts) := .intercalate (by decide) h
  unfold join
  dsimp only
  split
  · exact unbroken_append.mpr ⟨by decide, hjoined⟩
  · split
    · decide
    · exact hjoined

theorem unbroken_plain {path : String} (h : Unbroken path) : Unbroken (plain path) :=
  unbroken_join _ fun part hpart => unbroken_parts h part (List.mem_filter.mp hpart).1

end Path

/-! ## Files that cannot be read -/

section

variable [Yaml.Engine]

/-- A file whose content does not break lines: the keys in it are unbroken, and so is the reason of the system for not
reading it, if that is given, and it is no broken YAML. -/
structure Files.KeysUnbroken (files : Files) (path : String) : Prop where
  document : ∀ document, Document.read files (Path.resolve (Path.plain path)) = .ok document →
    document.value.KeysUnbroken
  reason : ∀ p reason, Document.read files (Path.resolve (Path.plain path)) = .error (.unreadable p reason) →
    Unbroken reason
  yaml : ∀ p, Document.read files (Path.resolve (Path.plain path)) ≠ .error (.badYaml p)

namespace Store

variable [Pattern.Engine] [Metaschema.Engine] {s : Store} {schema : String} {check : Option Bool} {value : Value}

end Store

end

namespace Store

attribute [local instance] Pattern.engine Yaml.engine Metaschema.engine

end Store

end Schemata
