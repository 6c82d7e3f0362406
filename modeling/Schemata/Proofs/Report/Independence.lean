import Schemata.Metaschema.Check
import Schemata.Pattern.Reader
import Schemata.Proofs.Answer
import Schemata.Proofs.Store.Loading
import Schemata.Proofs.Validator.Places
import Schemata.Report.Check
import Schemata.Yaml.Value

/-!
# `Schemata.Proofs.Report.Independence` — documents are checked one by one

The documents of one run share what is kept of files. What is kept is what the files hold, so the report on a
document depends on the files and the validator alone, and checking many documents is checking each of them.

## Contents
- **Steps.** Checking in a row, and remarks.
- **One document.** `Files.report`, the report on a file from the files alone, with `Files.report_error` and
  `Files.report_document`; `Files.Foreseen`, and `checkDocument_run`.
- **Many documents.** `checkDocuments_run` and `checkDocuments_each`.
-/

namespace Schemata

/-! ## Steps -/

/-- Steps that answer like a function wherever an invariant holds, and keep it, answer like it in a row. -/
theorem run_mapM {ε α β : Type} {f : α → ExceptT ε (StateM Store) β} {g : α → Except ε β} {P : Store → Prop}
    (hstep : ∀ a s, P s → ∃ t, (f a).run.run s = (g a, t) ∧ P t) (items : List α) {s : Store} (h : P s) :
    ∃ t, (items.mapM f).run.run s = (items.mapM g, t) ∧ P t := by
  induction items generalizing s with
  | nil => exact ⟨s, rfl, h⟩
  | cons item rest ih =>
    obtain ⟨t, hrun, ht⟩ := hstep item s h
    rw [List.mapM_cons, List.mapM_cons, run_bind, hrun]
    cases g item with
    | error e => exact ⟨t, rfl, ht⟩
    | ok b =>
      obtain ⟨u, hrest, hu⟩ := ih ht
      dsimp only
      rw [run_bind, hrest]
      cases rest.mapM g with
      | error e => exact ⟨u, rfl, hu⟩
      | ok bs => exact ⟨u, rfl, hu⟩

namespace Store

theorem run_checked {α : Type} (load : Loading α) (s : Store) :
    load.checked.run.run s = ((load.run.run s).1.mapError .load, (load.run.run s).2) := rfl

/-- The remarks of a compilation are recorded, and nothing else is done. -/
theorem run_forM_record {ε : Type} (remarks : List Remark) (s : Store) :
    ∃ records, (remarks.forM fun r => record r.topic.source r.text : ExceptT ε (StateM Store) Unit).run.run s =
      (.ok (), { s with records }) := by
  induction remarks generalizing s with
  | nil => exact ⟨s.records, rfl⟩
  | cons r rest ih =>
    obtain ⟨records, hrest⟩ := ih (s.noting r.topic.source r.text)
    refine ⟨records, ?_⟩
    change (record r.topic.source r.text >>= fun _ => rest.forM _ : ExceptT ε (StateM Store) Unit).run.run s = _
    rw [run_bind, run_record]
    exact hrest

end Store

/-! ## One document -/

/-- Errors of loading have messages. -/
theorem LoadError.message_of_loading {e : LoadError} (h : e.subject = .loading) :
    ∃ message, e.message? = some message := by
  cases e with
  | notFound _ | notAFile _ | unreadable _ _ | undecodable _ _ | badJson _ _ _ | badYaml _ => exact ⟨_, rfl⟩
  | notASchemaFile _ | badForm _ | notASchema _ | unreachable _ | numberTooLong | notUnicode | fault _ => cases h
  | noValue cause => cases h

/-- A document whose value is validated is reported on, issue by issue. -/
theorem documentReport_eq {vd : Validator} {file : String} {document : Document} {outcome : Outcome}
    (h : vd.validate document.value = .ok outcome) :
    documentReport vd file document = .ok
      ⟨file, outcome.issues.map (issueFinding document.places file), documentWarnings document⟩ := by
  unfold documentReport
  rw [h]
  cases outcome <;> rfl

section

variable [Yaml.Engine]

/-- The report on the document in a file, or what stops all checking. -/
def Files.report (files : Files) (vd : Validator) (path : String) : Except CheckError FileReport :=
  match Document.read files (Path.resolve (Path.plain path)) with
  | .error e =>
    match e.subject, e.message? with
    | .loading, some message => .ok ⟨Path.plain path, [⟨message, none, none, none⟩], []⟩
    | _, _ => .error (.load e)
  | .ok document => (documentReport vd (Path.plain path) document).mapError .fault

/-- A store of files whose documents are those that the files hold. -/
structure Store.Faithful (s : Store) (files : Files) : Prop where
  sameFiles : s.files = files
  documents (path : String) (document : Document) :
    s.documents.lookup path = some document → Document.read files path = .ok document

/-- A file whose document can be read, or cannot be for a reason that is foreseen. A path under which the system does not
say what stands, a scalar without a value and a number that is too long are none. -/
def Files.Foreseen (files : Files) (path : String) : Prop :=
  ∀ e, Document.read files (Path.resolve (Path.plain path)) = .error e → e.subject = .loading ∨ e.subject = .leftOpen

/-- A file that spells no half of a pair of codes, so that its texts are texts here. -/
def Files.SpellsTexts (files : Files) (path : String) : Prop :=
  ∀ e, Document.read files (Path.resolve (Path.plain path)) = .error e → e.subject ≠ .leftOpen

/-- Only errors that are foreseen become reports. -/
theorem Files.report_error {files : Files} {path : String} {e : LoadError}
    (hread : Document.read files (Path.resolve (Path.plain path)) = .error e) (vd : Validator) (report : FileReport) :
    files.report vd path = .ok report ↔
      e.subject = .loading ∧ ∃ message, e.message? = some message ∧
        report = ⟨Path.plain path, [⟨message, none, none, none⟩], []⟩ := by
  unfold Files.report
  rw [hread]
  dsimp only
  split
  · rename_i message hsubject hmessage
    constructor
    · intro h
      exact ⟨hsubject, message, hmessage, (Except.ok.inj h).symm⟩
    · rintro ⟨-, message', hmessage', rfl⟩
      obtain rfl := Option.some.inj (hmessage.symm.trans hmessage')
      rfl
  · rename_i hnone
    constructor
    · intro h
      cases h
    · rintro ⟨hsubject, message, hmessage, -⟩
      exact (hnone message hsubject hmessage).elim

/-- A document that is read is reported on as it is validated. -/
theorem Files.report_document {files : Files} {path : String} {document : Document}
    (hread : Document.read files (Path.resolve (Path.plain path)) = .ok document) (vd : Validator) (report : FileReport) :
    files.report vd path = .ok report ↔
      ∃ outcome, vd.validate document.value = .ok outcome ∧
        report = ⟨Path.plain path, outcome.issues.map (issueFinding document.places (Path.plain path)),
          documentWarnings document⟩ := by
  unfold Files.report
  rw [hread]
  dsimp only
  constructor
  · intro h
    cases hvalidate : vd.validate document.value with
    | error f =>
      unfold documentReport at h
      rw [hvalidate] at h
      cases h
    | ok outcome =>
      rw [documentReport_eq hvalidate] at h
      exact ⟨outcome, rfl, (Except.ok.inj h).symm⟩
  · rintro ⟨outcome, hvalidate, rfl⟩
    rw [documentReport_eq hvalidate]
    rfl

/-- A report is about the file that was asked for. -/
theorem Files.report_file {files : Files} {vd : Validator} {path : String} {report : FileReport}
    (h : files.report vd path = .ok report) : report.file = Path.plain path := by
  cases hread : Document.read files (Path.resolve (Path.plain path)) with
  | error e =>
    obtain ⟨-, message, -, rfl⟩ := (report_error hread vd report).mp h
    rfl
  | ok document =>
    obtain ⟨outcome, -, rfl⟩ := (report_document hread vd report).mp h
    rfl

/-- A file has a report exactly when its reading is foreseen, provided its texts are texts here and its document is
validated with an outcome. -/
theorem Files.report_returns_iff {files : Files} {vd : Validator} {path : String} (hspells : files.SpellsTexts path)
    (hanswers : ∀ document, Document.read files (Path.resolve (Path.plain path)) = .ok document →
      ∃ outcome, vd.validate document.value = .ok outcome) :
    (∃ report, files.report vd path = .ok report) ↔ files.Foreseen path := by
  unfold Foreseen
  cases hread : Document.read files (Path.resolve (Path.plain path)) with
  | error e =>
    constructor
    · rintro ⟨report, h⟩ _ ⟨⟩
      exact .inl ((report_error hread vd report).mp h).1
    · intro h
      have hloading : e.subject = .loading := (h e rfl).resolve_right (hspells e hread)
      obtain ⟨message, hmessage⟩ := LoadError.message_of_loading hloading
      exact ⟨_, (report_error hread vd _).mpr ⟨hloading, message, hmessage, rfl⟩⟩
  | ok document =>
    obtain ⟨outcome, hvalidate⟩ := hanswers document hread
    constructor
    · intro _ e h
      cases h
    · intro _
      exact ⟨_, (report_document hread vd _).mpr ⟨outcome, hvalidate, rfl⟩⟩

namespace Store

variable {files : Files} {s : Store}

/-- A faithful store loads what the files hold, and stays faithful. -/
theorem loadDocument_faithful (h : s.Faithful files) (path : String) :
    ∃ t, (loadDocument path).run.run s = (Document.read files (Path.resolve path), t) ∧ t.Faithful files := by
  obtain ⟨records, hrun⟩ := loadDocument_run path s
  rw [h.sameFiles] at hrun
  have hused : used s.keepsDocuments s.documents (Path.resolve path) (Document.read files (Path.resolve path)) =
      Document.read files (Path.resolve path) := by
    unfold used held
    split
    · cases hkept : s.documents.lookup (Path.resolve path) with
      | none => rfl
      | some document => exact (h.documents _ _ hkept).symm
    · rfl
  rw [hused] at hrun
  refine ⟨_, hrun, ?_⟩
  constructor
  · rfl
  intro q document hq
  dsimp only at hq
  rw [lookup_settled, Option.or_eq_some_iff] at hq
  rcases hq with hkept | ⟨-, hread⟩
  · exact h.documents q document hkept
  · split at hread
    next hcond =>
      obtain ⟨-, rfl⟩ := hcond
      cases hfound : Document.read files (Path.resolve path) with
      | error e => rw [hfound] at hread; cases hread
      | ok found => rw [hfound] at hread; exact congrArg Except.ok (Option.some.inj hread)
    · cases hread

/-- **A document is checked on what the files hold**, whatever has been loaded before. -/
theorem checkDocument_run (h : s.Faithful files) (vd : Validator) (path : String) :
    ∃ t, (checkDocument vd path).run.run s = (files.report vd path, t) ∧ t.Faithful files := by
  obtain ⟨t, hload, ht⟩ := loadDocument_faithful h (Path.plain path)
  unfold checkDocument Files.report
  rw [run_bind, run_get]
  dsimp only
  rw [hload]
  dsimp only
  cases Document.read files (Path.resolve (Path.plain path)) with
  | error e =>
    -- either error is an answer that leaves the store as it is
    cases e <;> exact ⟨t, rfl, ht⟩
  | ok document =>
    dsimp only
    cases documentReport vd (Path.plain path) document with
    | error f => exact ⟨t, rfl, ht⟩
    | ok report => exact ⟨_, rfl, ⟨ht.sameFiles, ht.documents⟩⟩

end Store

/-! ## Many documents -/

namespace Store

variable [Pattern.Engine] [Metaschema.Engine] {s : Store} {schema : String} {check : Option Bool} {value : Value}
  {vd : Validator}

omit [Yaml.Engine] [Metaschema.Engine] in
/-- The compilation of a schema leaves all but the records as it is. -/
theorem compileSchema_run (hcompile : (compileLogged value).1 = .ok vd) (s : Store) :
    ∃ records, (compileSchema value).run.run s = (.ok vd, { s with records }) := by
  obtain ⟨records, hrecord⟩ := run_forM_record (ε := CheckError) (compileLogged value).2 s
  refine ⟨records, ?_⟩
  unfold compileSchema
  dsimp only
  rw [run_bind, hrecord, hcompile]
  rfl

/-- **Documents are checked on what the files hold**, each by itself. -/
theorem checkDocuments_run (hload : ((loadSchema schema check).run.run s).1 = .ok value)
    (hcompile : (compileLogged value).1 = .ok vd) (documents : List String) :
    ((checkDocuments schema documents check).run.run s).1 = documents.mapM (s.files.report vd) := by
  obtain ⟨records, hrun⟩ := loadSchema_run schema check s
  have hfiles : ((loadSchema schema check).run.run s).2.files = s.files := by rw [hrun]
  obtain ⟨records', hcompiled⟩ := compileSchema_run hcompile ((loadSchema schema check).run.run s).2
  -- a store without documents is faithful, and that is how the checks begin
  have hchecks : ∀ u : Store, u.files = s.files → u.documents = [] →
      ((documents.mapM (checkDocument vd)).run.run u).1 = documents.mapM (s.files.report vd) := by
    intro u hu hnone
    have hfaithful : u.Faithful s.files := ⟨hu, by rw [hnone]; intro _ _ h; cases h⟩
    obtain ⟨t, hrun, -⟩ := run_mapM (fun path v hv => checkDocument_run hv vd path) documents hfaithful
    rw [hrun]
  unfold checkDocuments
  rw [run_bind, run_checked, hload]
  dsimp only [Except.mapError]
  rw [run_bind, hcompiled]
  dsimp only
  rw [run_bind, run_modify]
  exact hchecks _ hfiles rfl

/-- **A bad document does not stop the others.** Where a schema is loaded and compiled, and the documents that can be
read are validated with an outcome, checking has an answer exactly when the reading of every document is foreseen, as
far as the files spell texts. The answer is then one report for every path, in order, each the same as if its document
were checked alone, and one that cannot be read has that as its only error. -/
theorem checkDocuments_each (hload : ((loadSchema schema check).run.run s).1 = .ok value)
    (hcompile : (compileLogged value).1 = .ok vd) (documents : List String)
    (hanswers : ∀ path ∈ documents, ∀ document, Document.read s.files (Path.resolve (Path.plain path)) = .ok document →
      ∃ outcome, vd.validate document.value = .ok outcome) :
    let answer := fun paths => ((checkDocuments schema paths check).run.run s).1
    ((∀ path ∈ documents, s.files.SpellsTexts path) →
      ((∃ reports, answer documents = .ok reports) ↔ ∀ path ∈ documents, s.files.Foreseen path)) ∧
      ∀ reports, answer documents = .ok reports →
        List.Forall₂ (fun path report => answer [path] = .ok [report] ∧ report.file = Path.plain path ∧
          ∀ e, Document.read s.files (Path.resolve (Path.plain path)) = .error e →
            ∃ finding, report.errors = [finding]) documents reports := by
  intro answer
  have hanswer : ∀ paths, answer paths = paths.mapM (s.files.report vd) := checkDocuments_run hload hcompile
  constructor
  · intro hspells
    have hreturns : (∃ reports, answer documents = .ok reports) ↔
        ∀ path ∈ documents, ∃ report, s.files.report vd path = .ok report := by
      rw [← exists_forall₂_iff]
      exact exists_congr fun reports => (iff_of_eq (congrArg (· = _) (hanswer documents))).trans mapM_eq_ok_iff
    rw [hreturns]
    exact forall₂_congr fun path hpath => Files.report_returns_iff (hspells path hpath) (hanswers path hpath)
  · intro reports h
    have heach : List.Forall₂ (fun path report => s.files.report vd path = .ok report) documents reports := by
      rw [← mapM_eq_ok_iff, ← hanswer]
      exact h
    have hmem := (List.forall₂_and_left documents reports).mpr ⟨fun path hpath => hpath, heach⟩
    refine hmem.imp fun path report hreport => ?_
    obtain ⟨hpath, hreport⟩ := hreport
    refine ⟨?_, Files.report_file hreport, ?_⟩
    · rw [hanswer, mapM_eq_ok_iff]
      exact .cons hreport .nil
    · intro e hread
      obtain ⟨-, message, -, rfl⟩ := (Files.report_error hread vd report).mp hreport
      exact ⟨_, rfl⟩

end Store

end

namespace Store

attribute [local instance] Pattern.engine Yaml.engine Metaschema.engine

/-- A document that is checked twice, with a file that is missing and one that cannot be read between. -/
theorem checkDocuments_each_missing :
    let s : Store := .ofFiles [("s.json", .file "true".toUTF8.toList), ("a.yaml", .file "1".toUTF8.toList),
      ("c.yaml", .unreadable "[Errno 13] Permission denied: 'c.yaml'")] {}
    let documents := ["a.yaml", "b.yaml", "c.yaml", "./a.yaml"]
    let answer := fun paths => ((checkDocuments "s.json" paths none).run.run s).1
    ((loadSchema "s.json" none).run.run s).1 = .ok (.bool true) ∧ (compileLogged (.bool true)).1 = .ok .any ∧
      (∀ v, ∃ outcome, Validator.any.validate v = .ok outcome) ∧ (∀ path ∈ documents, s.files.SpellsTexts path) ∧
      (∀ path ∈ documents, s.files.Foreseen path) ∧
      ∃ reports, answer documents = .ok reports ∧
        List.Forall₂ (fun path report => answer [path] = .ok [report] ∧ report.file = Path.plain path ∧
          ∀ e, Document.read s.files (Path.resolve (Path.plain path)) = .error e →
            ∃ finding, report.errors = [finding]) documents reports := by
  intro s documents answer
  have hload : ((loadSchema "s.json" none).run.run s).1 = .ok (.bool true) := by with_unfolding_all rfl
  have hanswers : ∀ v, ∃ outcome, Validator.any.validate v = .ok outcome := fun v => ⟨.ok v, rfl⟩
  have hloading : ∀ path ∈ documents, ∀ e, Document.read s.files (Path.resolve (Path.plain path)) = .error e →
      e.subject = .loading := by
    have hread : ∀ path ∈ documents, (match Document.read s.files (Path.resolve (Path.plain path)) with
        | .error e => decide (e.subject = .loading)
        | .ok _ => true) = true := by decide +kernel
    intro path hpath e he
    have h := hread path hpath
    rw [he] at h
    exact of_decide_eq_true h
  have hspells : ∀ path ∈ documents, s.files.SpellsTexts path := fun path hpath e he => by
    rw [hloading path hpath e he]
    decide
  have hforeseen : ∀ path ∈ documents, s.files.Foreseen path := fun path hpath e he => .inl (hloading path hpath e he)
  obtain ⟨hreturns, heach⟩ := checkDocuments_each hload rfl documents fun _ _ document _ => hanswers document.value
  obtain ⟨reports, hreports⟩ := (hreturns hspells).mpr hforeseen
  exact ⟨hload, rfl, hanswers, hspells, hforeseen, reports, hreports, heach reports hreports⟩

/-- A scalar that looks like a day but is none keeps a sound document from being reported on. -/
theorem checkDocuments_stopped_by_day :
    let s : Store := .ofFiles [("s.json", .file "true".toUTF8.toList), ("a.yaml", .file "1".toUTF8.toList),
      ("b.yaml", .file "2001-99-99".toUTF8.toList)] {}
    ((loadSchema "s.json" none).run.run s).1 = .ok (.bool true) ∧ (compileLogged (.bool true)).1 = .ok .any ∧
      (∀ v, ∃ outcome, Validator.any.validate v = .ok outcome) ∧
      (∃ report, ((checkDocuments "s.json" ["a.yaml"] none).run.run s).1 = .ok [report]) ∧
      ∀ reports, ((checkDocuments "s.json" ["a.yaml", "b.yaml"] none).run.run s).1 ≠ .ok reports := by
  intro s
  have hload : ((loadSchema "s.json" none).run.run s).1 = .ok (.bool true) := by with_unfolding_all rfl
  have hanswers : ∀ v, ∃ outcome, Validator.any.validate v = .ok outcome := fun v => ⟨.ok v, rfl⟩
  have hfirst : (match Document.read s.files (Path.resolve (Path.plain "a.yaml")) with
      | .error _ => false
      | .ok _ => true) = true := by decide +kernel
  have hsecond : (match Document.read s.files (Path.resolve (Path.plain "b.yaml")) with
      | .error e => decide (e.subject = .unforeseen)
      | .ok _ => false) = true := by decide +kernel
  refine ⟨hload, rfl, hanswers, ?_, ?_⟩
  · obtain ⟨report, hreport⟩ : ∃ report, s.files.report .any "a.yaml" = .ok report := by
      have hnone : ∀ e, Document.read s.files (Path.resolve (Path.plain "a.yaml")) ≠ .error e := fun e he => by
        rw [he] at hfirst
        cases hfirst
      have hspells : s.files.SpellsTexts "a.yaml" := fun e he => absurd he (hnone e)
      exact (Files.report_returns_iff hspells fun document _ => hanswers document.value).mpr fun e he => absurd he (hnone e)
    refine ⟨report, ?_⟩
    rw [checkDocuments_run hload rfl, mapM_eq_ok_iff]
    exact .cons hreport .nil
  · intro reports h
    rw [checkDocuments_run hload rfl, mapM_eq_ok_iff] at h
    obtain ⟨report, hreport⟩ := exists_forall₂_iff.mp ⟨reports, h⟩ "b.yaml" (by decide)
    cases hread : Document.read s.files (Path.resolve (Path.plain "b.yaml")) with
    | error e =>
      rw [hread] at hsecond
      have hunforeseen : e.subject = .unforeseen := of_decide_eq_true hsecond
      obtain ⟨hloading, -⟩ := (Files.report_error hread _ report).mp hreport
      rw [hloading] at hunforeseen
      cases hunforeseen
    | ok document =>
      rw [hread] at hsecond
      cases hsecond

end Store

end Schemata
