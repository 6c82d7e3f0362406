import Schemata.Pattern.Reader
import Schemata.Proofs.Schema.Literals
import Schemata.Proofs.Schema.Regular
import Schemata.Proofs.Validator.Passing

/-!
# `Schemata.Proofs.Schema.Files` — which files a schema accepts

Files have a slot of their own. It is empty in the beginning and no rule fills it but the one for binary content, which
also disables texts, so a schema of binary content has files or nothing. Literals disable files, since no literal is
one. Whatever the second phase puts around that, a file has to pass the validator of the first phase, and what is no
file does not.

## Contents
- **Descriptions.** `DescribesBinary`, and `AdmitsFile` for a single file.
- **Limits.** `FileLimits.Fit`, and `passes_file`.
- **Slots.** `KindRule.sparesFiles`, `admitted?_file`, and `baseValidator_binary`.
- **Files.** `files_admitted`, and `files_unanswered`, where something else is not refused.
-/

namespace Schemata

open Validator

/-! ## Descriptions -/

/-- A schema describes binary content: by its type, its format and its encoding. -/
structure DescribesBinary (schema : Entries) : Prop where
  type : Entries.get? schema "type" = some (.string "string")
  format : Entries.get? schema "format" = some (.string "binary")
  encoding : Entries.get? schema "contentEncoding" = some (.string "binary")

/-- A file is what a schema of binary content describes: it is compared with no literal, its size is known and lies
within the lengths that are given, and its media type is one of those that are named, in any case of letters. -/
structure AdmitsFile (schema : Entries) (f : File) : Prop extends DescribesBinary schema where
  const : Entries.get? schema "const" = none
  enum : ∀ values, Entries.get? schema "enum" = some (.list values) → values = []
  least : ∀ least, Entries.given? schema "minLength" = some least →
    ∃ size, f.size? = some size ∧ Value.related .less (.int size) least = .ok false
  most : ∀ most, Entries.given? schema "maxLength" = some most →
    ∃ size, f.size? = some size ∧ Value.related .greater (.int size) most = .ok false
  mediaType : mediaTypesOf schema ≠ [] →
    ∃ mediaType ∈ (mediaTypesOf schema).map Unicode.lower, f.mediaType? = some mediaType

/-- A schema without branches. -/
def Unbranched (schema : Entries) : Prop := ∀ keyword ∈ ["allOf", "anyOf", "oneOf"], Entries.get? schema keyword = none

section

variable {schema : Entries}

theorem describesBinary_iff : DescribesBinary schema ↔ isBinary schema = true := by
  have hkeyword : ∀ keyword text, (Entries.get? schema keyword).any (Value.isText text) = true ↔
      Entries.get? schema keyword = some (.string text) := by
    intro keyword text
    simp only [Option.any_eq_true, Value.isText_iff]
    exact ⟨fun ⟨_, hget, heq⟩ => heq ▸ hget, fun hget => ⟨_, hget, rfl⟩⟩
  rw [isBinary, Bool.and_eq_true, Bool.and_eq_true, hkeyword, hkeyword, hkeyword, and_assoc]
  exact ⟨fun h => ⟨h.type, h.format, h.encoding⟩, fun h => ⟨h.1, h.2.1, h.2.2⟩⟩

theorem Unbranched.branch_schemas (h : Unbranched schema) : Role.branch.schemas schema = [] := by
  have hnone : ∀ keyword ∈ ["allOf", "anyOf", "oneOf"], listedSchemas schema keyword = [] := by
    intro keyword hkeyword
    rw [listedSchemas, h keyword hkeyword]
    rfl
  rw [Role.schemas, hnone _ (by decide), hnone _ (by decide), hnone _ (by decide)]
  rfl

end

/-! ## Limits -/

/-- A file lies within limits. -/
structure FileLimits.Fit (limits : FileLimits) (f : File) : Prop where
  least : ∀ least, limits.size.least = some least →
    ∃ size, f.size? = some size ∧ Value.related .less (.int size) least = .ok false
  most : ∀ most, limits.size.most = some most →
    ∃ size, f.size? = some size ∧ Value.related .greater (.int size) most = .ok false
  mediaType : limits.mediaTypes ≠ [] → ∃ mediaType ∈ limits.mediaTypes.map Unicode.lower, f.mediaType? = some mediaType

section

variable {f : File} {path : Pointer}

theorem limitIssues_eq_nil {relation : Relation} {n : Int} {limit : Option Value} {cause : String → Cause} :
    limitIssues relation n limit path cause = .ok [] ↔
      ∀ value, limit = some value → Value.related relation (.int n) value = .ok false := by
  cases limit with
  | none => exact ⟨fun _ => nofun, fun _ => rfl⟩
  | some limit =>
    simp only [limitIssues, Option.some.injEq, forall_eq']
    cases Value.related relation (.int n) limit with
    | error e => simp [bind, Except.bind]
    | ok passed =>
      cases passed with
      | false => exact ⟨fun _ => rfl, fun _ => rfl⟩
      | true =>
        -- a limit that is passed is written into an issue
        cases limit.plain? <;> simp [bind, Except.bind, pure, Except.pure]

theorem firstIssues_eq_nil {x y : Except Fault (List Issue)} : firstIssues x y = .ok [] ↔ x = .ok [] ∧ y = .ok [] := by
  unfold firstIssues
  cases x with
  | error e => simp [bind, Except.bind]
  | ok issues =>
    cases issues with
    | nil => simp [bind, Except.bind]
    | cons issue issues => simp [bind, Except.bind, pure, Except.pure]

theorem mediaTypeIssues_eq_nil {allowed : List String} : mediaTypeIssues f allowed path = [] ↔
    (allowed ≠ [] → ∃ mediaType ∈ allowed.map Unicode.lower, f.mediaType? = some mediaType) := by
  unfold mediaTypeIssues
  cases allowed with
  | nil => simp
  | cons first rest =>
    rw [if_neg (by simp)]
    cases f.mediaType? with
    | none => simp
    | some mediaType =>
      by_cases hmem : mediaType ∈ (first :: rest).map Unicode.lower
      · have hcontains : ((first :: rest).map Unicode.lower).contains mediaType = true := by simpa using hmem
        dsimp only
        rw [if_pos hcontains]
        exact ⟨fun _ _ => ⟨mediaType, hmem, rfl⟩, fun _ => rfl⟩
      · have hcontains : ((first :: rest).map Unicode.lower).contains mediaType = false := by simpa using hmem
        dsimp only
        rw [if_neg (by rw [hcontains]; decide)]
        refine ⟨nofun, fun h => ?_⟩
        obtain ⟨_, hmem', heq⟩ := h (List.cons_ne_nil _ _)
        exact (hmem (Option.some.inj heq ▸ hmem')).elim

/-- The size of a file is asked for only if it is bounded. -/
theorem check_file (hf : f.isFile = true) (limits : FileLimits) : (Validator.file limits).check (.file f) path =
    ((if limits.size.least.isSome || limits.size.most.isSome then
        fileSizeIssues (m := Except Fault) f.size? limits.size path else .ok []) >>= fun issues =>
      .ok ⟨.file f, issues ++ mediaTypeIssues f limits.mediaTypes path⟩) := by
  show (if !f.isFile then _ else _) = _
  rw [hf, if_neg (by decide)]
  split <;> rfl

/-- A size passes if it is known and lies within the bounds. -/
theorem fileSizeIssues_eq_nil {size : Option Int} {bounds : Bounds}
    (hbounded : (bounds.least.isSome || bounds.most.isSome) = true) :
    fileSizeIssues (m := Except Fault) size bounds path = .ok [] ↔
      (∀ least, bounds.least = some least → ∃ n, size = some n ∧ Value.related .less (.int n) least = .ok false) ∧
        ∀ most, bounds.most = some most → ∃ n, size = some n ∧ Value.related .greater (.int n) most = .ok false := by
  cases size with
  | some n =>
    rw [fileSizeIssues_eq, firstIssues_eq_nil, limitIssues_eq_nil, limitIssues_eq_nil]
    simp
  | none =>
    refine ⟨nofun, fun ⟨hleast, hmost⟩ => ?_⟩
    rw [Bool.or_eq_true, Option.isSome_iff_exists, Option.isSome_iff_exists] at hbounded
    rcases hbounded with ⟨value, hvalue⟩ | ⟨value, hvalue⟩
    · obtain ⟨_, hnone, _⟩ := hleast value hvalue
      cases hnone
    · obtain ⟨_, hnone, _⟩ := hmost value hvalue
      cases hnone

/-- **A file passes if it lies within the limits.** -/
theorem passes_file (hf : f.isFile = true) (limits : FileLimits) :
    (∃ r, (Validator.file limits).check (.file f) path = .ok r ∧ r.ok = true) ↔ limits.Fit f := by
  have hreport : ∀ x : Except Fault (List Issue), (∃ r : Report, (x >>= fun issues =>
      .ok ⟨.file f, issues ++ mediaTypeIssues f limits.mediaTypes path⟩) = Except.ok r ∧ r.ok = true) ↔
        x = .ok [] ∧ mediaTypeIssues f limits.mediaTypes path = [] := by
    intro x
    cases x with
    | error e => simp [bind, Except.bind]
    | ok issues => simp [bind, Except.bind, Report.ok_iff]
  rw [check_file hf, hreport, mediaTypeIssues_eq_nil]
  by_cases hbounded : (limits.size.least.isSome || limits.size.most.isSome) = true
  · rw [if_pos hbounded, fileSizeIssues_eq_nil hbounded]
    exact ⟨fun h => ⟨h.1.1, h.1.2, h.2⟩, fun h => ⟨⟨h.least, h.most⟩, h.mediaType⟩⟩
  · rw [if_neg hbounded]
    rw [Bool.or_eq_true, not_or, Option.not_isSome_iff_eq_none, Option.not_isSome_iff_eq_none] at hbounded
    refine ⟨fun h => ⟨fun least hleast => ?_, fun most hmost => ?_, h.2⟩, fun h => ⟨rfl, h.mediaType⟩⟩
    · rw [hbounded.1] at hleast
      cases hleast
    · rw [hbounded.2] at hmost
      cases hmost

/-- A file that passes is left as it is. -/
theorem accept_file (hf : f.isFile = true) {limits : FileLimits} (h : limits.Fit f) :
    (Validator.file limits).check (.file f) path = .ok (.accept (.file f)) := by
  obtain ⟨r, hr, hok⟩ := (passes_file hf limits).mpr h
  have hat := (answers_leaf (rfl : (Validator.file limits).isLeaf = true) (.file f) path).meets r hr
  obtain ⟨output, issues⟩ := r
  obtain rfl : output = .file f := hat.output
  obtain rfl : issues = [] := Report.ok_iff.mp hok
  exact hr

end

/-! ## Slots -/

/-- Steps that do nothing to a kind but disable it. -/
def OnlyDisable (kind : Kind) (steps : List Step) : Prop := ∀ step ∈ steps, step.touches kind = step.disables kind

theorem Admissibility.run_onlyDisable {kind : Kind} {steps : List Step} (h : OnlyDisable kind steps) (slots : Admissibility) :
    slots.run steps kind = if steps.any (Step.disables kind) then .disabled else slots kind := by
  have hdisabled : ∀ slot : Slot, slot.isDisabled = true → slot = .disabled := by
    intro slot hslot
    cases slot with
    | disabled => rfl
    | _ => cases hslot
  by_cases hany : steps.any (Step.disables kind) = true
  · rw [if_pos hany]
    apply hdisabled
    rw [isDisabled_run_eq, hany, Bool.or_true]
  · rw [if_neg hany]
    refine run_other fun step hstep => ?_
    rw [h step hstep]
    exact Bool.eq_false_iff.mpr fun hdisables => hany (List.any_eq_true.mpr ⟨step, hstep, hdisables⟩)

/-- Whether a rule of literals or types leaves files alone. -/
def KindRule.sparesFiles (schema : Entries) : KindRule → Bool
  | .const => !Entries.has schema "const"
  | .enumeration =>
    match (Entries.get? schema "enum").bind Value.items? with
    | none => true
    | some [] => Entries.has schema "type"
    | some _ => false
  | .type => !Entries.has schema "type" || ((declaredTypes schema).flatMap typeKinds).contains .file
  | _ => true

section

variable {schema : Entries} {slots : Admissibility} {convert : Value → Except CompileError Validator}

/-- A constant is no file. -/
theorem const_file : Answers False (constSteps (m := Except CompileError) (fun _ => .ok ()) schema) fun steps =>
    OnlyDisable .file steps ∧ steps.any (Step.disables .file) = !KindRule.const.sparesFiles schema := by
  unfold constSteps KindRule.sparesFiles Entries.has
  cases Entries.get? schema "const" with
  | none => exact .pure ⟨List.forall_mem_nil _, rfl⟩
  | some value =>
    dsimp only
    have hfile := value.literalKind_ne_file
    cases hliteral : value.literalKind with
    | none =>
      exact .bind (.trivial _) fun _ _ => .bind (.trivial _) fun _ _ => .pure ⟨List.forall_mem_singleton.mpr rfl, rfl⟩
    | some kind =>
      refine .pure ?_
      cases kind with
      | file => exact (hfile hliteral).elim
      | _ => exact ⟨List.forall_mem_cons.mpr ⟨rfl, List.forall_mem_singleton.mpr rfl⟩, rfl⟩

/-- A member of an enumeration is no file. -/
theorem enum_file : OnlyDisable .file (enumSteps slots schema) ∧
    (enumSteps slots schema).any (Step.disables .file) = !KindRule.enumeration.sparesFiles schema := by
  unfold enumSteps KindRule.sparesFiles
  match (Entries.get? schema "enum").bind Value.items? with
  | none => exact ⟨List.forall_mem_nil _, rfl⟩
  | some [] =>
    cases Entries.has schema "type" with
    | true => exact ⟨List.forall_mem_nil _, rfl⟩
    | false => exact ⟨List.forall_mem_singleton.mpr rfl, rfl⟩
  | some (value :: values) =>
    dsimp only
    have hscalar : ∀ k ∈ [Kind.string, .number, .boolean, .null], k ≠ .file := by decide
    have hcomposite : ∀ k ∈ [Kind.array, .object], k ≠ .file := by decide
    refine ⟨?_, ?_⟩
    · refine List.forall_mem_append.mpr ⟨List.forall_mem_append.mpr ⟨List.forall_mem_append.mpr ⟨?_, ?_⟩, ?_⟩, ?_⟩
      · refine List.forall_mem_map.mpr fun k hk => ?_
        rw [touches_scalarEnumStep (hscalar k hk), disables_scalarEnumStep, beq_false_of_ne (hscalar k hk), Bool.and_false]
      · refine List.forall_mem_map.mpr fun k hk => ?_
        rw [touches_compositeEnumStep (hcomposite k hk), disables_compositeEnumStep, beq_false_of_ne (hcomposite k hk),
          Bool.and_false]
      · split
        · exact List.forall_mem_singleton.mpr rfl
        · exact List.forall_mem_nil _
      · exact List.forall_mem_singleton.mpr rfl
    · rw [List.any_append]
      exact Bool.or_true _

theorem type_file : OnlyDisable .file (typeSteps schema) ∧
    (typeSteps schema).any (Step.disables .file) = !KindRule.type.sparesFiles schema := by
  unfold typeSteps KindRule.sparesFiles
  cases Entries.has schema "type" with
  | false => exact ⟨List.forall_mem_nil _, rfl⟩
  | true =>
    dsimp only
    rw [if_pos rfl, Bool.not_true, Bool.false_or]
    split
    · exact ⟨List.forall_mem_cons.mpr ⟨rfl, List.forall_mem_singleton.mpr rfl⟩, Bool.or_false _⟩
    · exact ⟨List.forall_mem_singleton.mpr rfl, Bool.or_false _⟩

/-- What the slot of files gets from a description of binary content. -/
def fileLimits (schema : Entries) : FileLimits :=
  ⟨⟨Entries.given? schema "minLength", Entries.given? schema "maxLength"⟩, mediaTypesOf schema⟩

/-- Whether a schema describes binary content that no literal and no type rules out. -/
def admitsFiles (schema : Entries) : Bool :=
  isBinary schema && [KindRule.const, .enumeration, .type].all (KindRule.sparesFiles schema)

/-- The slot of files while nothing but literals and types has been read. -/
theorem spared_file [Pattern.Engine] : Answers False
    (KindRule.runAll (fun _ => .ok ()) convert schema [.const, .enumeration, .type] .initial)
    fun slots => slots .file =
      if [KindRule.const, .enumeration, .type].all (KindRule.sparesFiles schema) then .unset else .disabled := by
  let spared (slots : Admissibility) (b : Bool) : Prop := slots .file = if b then .unset else .disabled
  have hsteps : ∀ {slots b steps}, spared slots b → ∀ {rule : KindRule}, OnlyDisable .file steps ∧
      steps.any (Step.disables .file) = !rule.sparesFiles schema → spared (slots.run steps) (b && rule.sparesFiles schema) := by
    intro slots b steps h rule hrule
    show slots.run steps .file = _
    rw [Admissibility.run_onlyDisable hrule.1, hrule.2, show slots .file = _ from h]
    cases b <;> cases rule.sparesFiles schema <;> rfl
  have hrules : ∀ rule ∈ [KindRule.const, .enumeration, .type], ∀ slots b, spared slots b →
      Answers False (rule.steps (fun _ => .ok ()) convert slots schema) fun steps =>
        spared (slots.run steps) (b && rule.sparesFiles schema) := by
    refine List.forall_mem_cons.mpr ⟨?_, List.forall_mem_cons.mpr ⟨?_, List.forall_mem_singleton.mpr ?_⟩⟩
    · exact fun slots b h => const_file.mono fun steps => hsteps h
    · exact fun slots b h => .pure (hsteps h enum_file)
    · exact fun slots b h => .pure (hsteps h type_file)
  have hinitial : spared .initial true := rfl
  exact KindRule.runAll_and spared _ hrules hinitial

/-- **Only a description of binary content fills the slot of files.** -/
theorem admitted?_file [Pattern.Engine] : Answers False
    (KindRule.runAll (fun _ => .ok ()) convert schema KindRule.all .initial) fun slots =>
    slots.admitted? .file = if admitsFiles schema then some (.file (fileLimits schema)) else none := by
  let later : List KindRule := KindRule.all.drop 4
  have hall : KindRule.all = [.const, .enumeration, .type] ++ .file :: later := rfl
  have hlater : ∀ rule ∈ later, Kind.file ∉ rule.kinds := by decide
  rw [hall, KindRule.runAll_append]
  refine .bind spared_file fun slots hslots => ?_
  rw [KindRule.runAll]
  have hfile : Answers False (KindRule.file.steps (m := Except CompileError) (fun _ => .ok ()) convert slots schema)
      (· = fileSteps schema) := .pure rfl
  refine .bind hfile ?_
  rintro _ rfl
  refine (KindRule.runAll_other hlater _).mono fun slots' hslots' => ?_
  rw [Admissibility.admitted?_congr hslots', admitsFiles, fileSteps]
  cases isBinary schema <;> cases hspared : [KindRule.const, .enumeration, .type].all (KindRule.sparesFiles schema) <;>
    simp [hspared] at hslots <;>
    simp [Admissibility.run, Admissibility.apply, Admissibility.fill, Admissibility.admitted?, Admissibility.current?,
      Slot.isDisabled, Slot.validator?, defaultValidator?, hslots, fileLimits]

/-- A description of binary content disables all other kinds. -/
theorem disabled_binary [Pattern.Engine] (h : DescribesBinary schema) {kind : Kind} (hkind : kind ≠ .file) :
    Answers False (KindRule.runAll (fun _ => .ok ()) convert schema KindRule.all .initial) fun slots =>
      (slots kind).isDisabled = true := by
  have hall : KindRule.all = [.const, .enumeration] ++ .type :: .file :: KindRule.all.drop 4 := rfl
  have htype : typeSteps schema = [.disableAllExcept [.string, .file]] := by
    rw [typeSteps, declaredTypes, Entries.has, h.type]
    rfl
  have hfile : (fileSteps schema).any (Step.disables kind) = (.string == kind) := by
    rw [fileSteps, if_pos (describesBinary_iff.mp h)]
    exact Bool.or_false _
  rw [hall, KindRule.runAll_append]
  refine .bind (.trivial _) fun slots _ => ?_
  rw [KindRule.runAll]
  have htypes : Answers False (KindRule.type.steps (m := Except CompileError) (fun _ => .ok ()) convert slots schema)
      (· = typeSteps schema) := .pure rfl
  refine .bind htypes ?_
  rintro _ rfl
  rw [KindRule.runAll]
  have hfiles : Answers False (KindRule.file.steps (m := Except CompileError) (fun _ => .ok ()) convert
      (slots.run (typeSteps schema)) schema) (· = fileSteps schema) := .pure rfl
  refine .bind hfiles ?_
  rintro _ rfl
  refine KindRule.runAll_isDisabled ?_
  rw [Admissibility.isDisabled_run_eq, hfile, Admissibility.isDisabled_run_eq, htype]
  cases kind with
  | file => exact (hkind rfl).elim
  | string => exact Bool.or_true _
  | _ => simp [Step.disables]

end

/-! ## First phase -/

section

variable [Pattern.Engine] {schema : Entries}

/-- **Binary content is all or nothing**: files within limits, or no value at all. -/
theorem baseValidator_binary (h : DescribesBinary schema) : Answers False (baseValidator schema) fun base =>
    base = if admitsFiles schema then .file (fileLimits schema) else .never := by
  have hslots : Answers False (KindRule.runAll (fun _ => .ok ()) compile schema KindRule.all .initial) fun slots =>
      slots.validators = if admitsFiles schema then [(.file, .file (fileLimits schema))] else [] := by
    refine .of_meets fun slots hrun => ?_
    have hnone : ∀ kind, kind ≠ .file → slots.admitted? kind = none := fun kind hkind =>
      if_pos ((disabled_binary h hkind).meets slots hrun)
    have hfile := admitted?_file.meets slots hrun
    rw [Admissibility.validators_eq]
    cases hadmits : admitsFiles schema <;> simp [hadmits] at hfile <;> simp [Kind.all, hnone, hfile]
  refine .bind hslots fun slots hvalidators => .pure ?_
  rw [Admissibility.assemble, hvalidators]
  cases admitsFiles schema <;> rfl

omit [Pattern.Engine] in
theorem admitsFile_iff {f : File} : AdmitsFile schema f ↔ admitsFiles schema = true ∧ (fileLimits schema).Fit f := by
  have hconst : KindRule.const.sparesFiles schema = true ↔ Entries.get? schema "const" = none := by
    rw [KindRule.sparesFiles, Bool.not_eq_true', Entries.has_eq_false_iff]
  have henum : Entries.has schema "type" = true → (KindRule.enumeration.sparesFiles schema = true ↔
      ∀ values, Entries.get? schema "enum" = some (.list values) → values = []) := by
    intro htype
    unfold KindRule.sparesFiles
    cases hget : Entries.get? schema "enum" with
    | none => exact ⟨by rintro _ _ ⟨⟩, fun _ => rfl⟩
    | some w =>
      cases w with
      | list values => cases values <;> simp [Value.items?, htype]
      | _ => exact ⟨by rintro _ _ ⟨⟩, fun _ => rfl⟩
  have htype : DescribesBinary schema → Entries.has schema "type" = true ∧ KindRule.type.sparesFiles schema = true := by
    intro h
    rw [KindRule.sparesFiles, declaredTypes, Entries.has, h.type]
    exact ⟨rfl, rfl⟩
  rw [admitsFiles, Bool.and_eq_true, ← describesBinary_iff, List.all_cons, List.all_cons, List.all_cons, List.all_nil,
    Bool.and_true, Bool.and_eq_true, Bool.and_eq_true, hconst]
  constructor
  · intro h
    obtain ⟨hhas, hspared⟩ := htype h.toDescribesBinary
    exact ⟨⟨h.toDescribesBinary, h.const, (henum hhas).mpr h.enum, hspared⟩, h.least, h.most, h.mediaType⟩
  · rintro ⟨⟨hbinary, hnone, hempty, -⟩, hfit⟩
    have hvalues := (henum (htype hbinary).1).mp hempty
    exact ⟨hbinary, hnone, hvalues, hfit.least, hfit.most, hfit.mediaType⟩

/-- **The first phase refuses a file** that a schema does not admit. -/
theorem baseValidator_file (hconstraints : hasConstraints schema = true) {f : File} (hf : f.isFile = true)
    (hadmits : ¬ AdmitsFile schema f) : Answers False (baseValidator schema) (Refuses False (.file f)) := by
  have hkind : (Value.file f).kind = some .file := if_pos hf
  cases hfiles : admitsFiles schema with
  | true =>
    have hbinary : DescribesBinary schema := describesBinary_iff.mpr (Bool.and_eq_true_iff.mp hfiles).1
    refine (baseValidator_binary hbinary).mono fun base hbase path => .of_meets fun r hr => ?_
    rw [hbase, if_pos hfiles] at hr
    by_contra hok
    have hfit := (passes_file hf _).mp ⟨r, hr, Bool.not_eq_false _ ▸ hok⟩
    exact hadmits (admitsFile_iff.mpr ⟨hfiles, hfit⟩)
  | false =>
    have hslots : Answers False (KindRule.runAll (fun _ => .ok ()) compile schema KindRule.all .initial) fun slots =>
        slots.Keep (RefusesOthers False) ∧ slots.admitted? .file = none := by
      refine (slots_keep foreign_refused (.of_sub (fun _ _ => False.elim) fun _ _ _ _ => trivial) KindRule.all .initial).and
        fun slots hslots => ?_
      rw [admitted?_file.meets slots hslots, if_neg (by rw [hfiles]; decide)]
    refine .bind hslots ?_
    rintro slots ⟨hforeign, hnone⟩
    refine .pure fun path => refused_assemble hforeign hconstraints (fun o ho => ?_) path
    -- a tag that admits files is that of files, and files have no validator
    have hadmitted := mem_validators ho
    rw [hkind, tagAdmits_name]
    by_cases htuple : o.1 = .tuple
    · rw [if_pos htuple]
      rfl
    · rw [if_neg htuple]
      refine decide_eq_false fun hfile => ?_
      rw [hfile, hnone] at hadmitted
      cases hadmitted

/-- The first phase refuses what is no file, where binary content is described. -/
theorem baseValidator_notFile (h : DescribesBinary schema) {v : Value} (hv : v.kind ≠ some .file) :
    Answers False (baseValidator schema) (Refuses True v) := by
  refine (baseValidator_binary h).mono fun base hbase path => ?_
  rw [hbase]
  cases admitsFiles schema with
  | false => exact .ok rfl
  | true =>
    have htag : tagAdmits Kind.file.name v.kind = false :=
      Bool.eq_false_iff.mpr fun htag => hv (kind_of_tagAdmits (by decide) htag)
    have hrefused : RefusesOthers True .file (.file (fileLimits schema)) :=
      foreign_refused.file (fileLimits schema) (fun _ _ => trivial) fun _ _ => trivial
    exact hrefused.refuses htag path

/-! ## Second phase -/

variable {core : Validator}

omit [Pattern.Engine] in
theorem Refuses.not_passes {sure : Prop} {v : Value} {vd : Validator} (h : Refuses sure v vd) : ¬ vd.Passes v := by
  intro hpasses
  obtain ⟨r, hr, hok⟩ := passes_iff.mp hpasses
  rw [(h []).meets r hr] at hok
  cases hok

omit [Pattern.Engine] in
theorem DescribesBinary.requiresProto (h : DescribesBinary schema) : requiresProto schema = false := by
  rw [Schemata.requiresProto, Entries.has, h.type]
  exact Bool.false_and _

omit [Pattern.Engine] in
theorem DescribesBinary.hasConstraints (h : DescribesBinary schema) : hasConstraints schema = true := by
  have hkeyword : "type" ∉ annotationKeywords := by decide
  by_contra hnone
  have htype := get?_of_not_hasConstraints (Bool.not_eq_true _ ▸ hnone) hkeyword
  rw [h.type] at htype
  cases htype

/-- A file that is not admitted is refused before annotations. -/
theorem core_file (hcore : coreValidator schema = .ok core) (hproto : requiresProto schema = false)
    (hconstraints : hasConstraints schema = true) {f : File} (hf : f.isFile = true) (hadmits : ¬ AdmitsFile schema f) :
    Refuses False (.file f) core := by
  have hrefused : Answers False (coreValidator schema) (Refuses False (.file f)) :=
    .bind (baseValidator_file hconstraints hf hadmits) fun base hbase =>
      refuses_constraints hproto (fun _ _ _ _ _ => .trivial _) hbase
  exact hrefused.meets core hcore

/-- What is no file is refused before annotations, without a fault if there are no branches. -/
theorem core_notFile (hcore : coreValidator schema = .ok core) (h : DescribesBinary schema) {v : Value}
    (hv : v.kind ≠ some .file) : Refuses (Unbranched schema) v core := by
  have hrefused : Answers False (coreValidator schema) (Refuses (Unbranched schema) v) := by
    refine .bind (baseValidator_notFile h hv) fun base hbase => refuses_constraints h.requiresProto ?_ fun path => ?_
    · intro s hs c _ path
      refine ⟨fun _ _ => trivial, fun hnone => ?_⟩
      rw [hnone.branch_schemas] at hs
      cases hs
    · exact ⟨(hbase path).meets, fun _ => (hbase path).returns trivial⟩
  exact hrefused.meets core hcore

/-- Without branches and negations **nothing in the second phase is about files**, unless there is a constant. -/
theorem accepted_file {base : Validator} {f : File} (hproto : requiresProto schema = false)
    (hconst : Entries.get? schema "const" = none) (hbranches : Unbranched schema) (hnot : Entries.get? schema "not" = none)
    (h : ∀ path, base.check (.file f) path = .ok (.accept (.file f))) :
    Answers False (Refinement.runAll (fun _ => .ok ()) compile schema Refinement.constraints base) fun core =>
      ∀ path, core.check (.file f) path = .ok (.accept (.file f)) := by
  let accepted (vd : Validator) : Prop := ∀ path, vd.check (.file f) path = .ok (.accept (.file f))
  have hinside : ∀ role : Role, ∀ s ∈ role.schemas schema, ∀ c : Validator, compile s = .ok c → role ≠ .branch := by
    rintro role s hs _ _ rfl
    rw [hbranches.branch_schemas] at hs
    cases hs
  have hrefined : ∀ vd test message, accepted vd → test.holds (.file f) = .ok true → accepted (.refined vd test message) := by
    intro vd test message hvd htest path
    show (vd.check (.file f) path >>= _) = _
    rw [hvd path]
    show (test.holds (.file f) >>= _) = _
    rw [htest]
    rfl
  refine constraints_keep hinside (fun hpaired vd hvd => ?_) h
  cases hpaired with
  | protoRequired proto =>
    rw [protoRequired?_eq_none hproto] at proto
    cases proto
  | compositeConst const =>
    rw [hconst] at const
    cases const
  | not has =>
    rw [Entries.has, hnot] at has
    cases has
  | allOf each =>
    cases each with
    | nil => exact hvd
    | cons hfirst _ => exact (hfirst rfl).elim
  | someOf some each =>
    cases each with
    | nil => exact (some rfl).elim
    | cons hfirst _ => exact (hfirst rfl).elim
  | _ => exact hrefined vd _ _ hvd rfl

/-! ## Files -/

variable {vd : Validator}

/-- **Which files a schema accepts.** If it says anything, then only those that it admits, and without branches and
negations all of them, as they are. A schema of binary content accepts nothing else, but for the absent value where a
default stands in for it that is such a file. It does so without a fault if there are no branches, and otherwise if it
is well-formed and can be written, as the value can. -/
theorem files_admitted (hcompile : compile (.dict schema) = .ok vd) :
    (requiresProto schema = false → hasConstraints schema = true → ∀ f : File, f.isFile = true →
        (vd.Passes (.file f) → AdmitsFile schema f) ∧
          (Unbranched schema → Entries.get? schema "not" = none → AdmitsFile schema f →
            vd.validate (.file f) = .ok (.ok (.file f)))) ∧
      (DescribesBinary schema → ∀ v : Value, v.kind ≠ some .file →
        (∀ w, vd.validate v = .ok (.ok w) → v = .absent ∧ Entries.get? schema "default" = some w ∧
            ∃ f : File, w = .file f ∧ f.isFile = true ∧ AdmitsFile schema f ∧ vd.Passes w) ∧
          (Unbranched schema ∨ WellFormed (.dict schema) ∧ (Value.dict schema).isWritable = true ∧ v.isWritable = true →
            ∃ outcome, vd.validate v = .ok outcome)) := by
  obtain ⟨core, hcore, hannotated⟩ := compile_annotated hcompile
  have hpresent : ∀ {v : Value}, v ≠ .absent → (vd.Passes v ↔ core.Passes v) := fun hv => by
    rw [Passes, Passes, accepts, accepts, hannotated.check_present hv]
  have hfile : ∀ f : File, Value.file f ≠ .absent := fun _ => by simp
  have hadmitted : requiresProto schema = false → hasConstraints schema = true → ∀ f : File, f.isFile = true →
      core.Passes (.file f) → AdmitsFile schema f := by
    intro hproto hconstraints f hf hpasses
    by_contra hadmits
    exact (core_file hcore hproto hconstraints hf hadmits).not_passes hpasses
  constructor
  · intro hproto hconstraints f hf
    refine ⟨fun hpasses => hadmitted hproto hconstraints f hf ((hpresent (hfile f)).mp hpasses), fun hbranches hnot hadmits => ?_⟩
    obtain ⟨base, hbase, hrefined⟩ := exists_of_bind_eq_ok hcore
    obtain ⟨hfiles, hfit⟩ := admitsFile_iff.mp hadmits
    obtain rfl : base = .file (fileLimits schema) :=
      ((baseValidator_binary hadmits.toDescribesBinary).meets base hbase).trans (if_pos hfiles)
    have haccepted := (accepted_file hproto hadmits.const hbranches hnot fun path => accept_file hf hfit).meets core hrefined
    rw [validate, hannotated.check_present (hfile f), haccepted]
    rfl
  · intro hbinary v hv
    have hrefused := core_notFile hcore hbinary hv
    constructor
    · intro w hw
      have hpasses : vd.Passes v := passes_iff_validate.mpr ⟨w, hw⟩
      obtain rfl : v = .absent := by
        by_contra habsent
        exact hrefused.not_passes ((hpresent habsent).mp hpasses)
      rcases hannotated.check_absent with ⟨hcheck, _⟩ | ⟨value, hgiven, haccepted, hcheck⟩
      · refine (hrefused.not_passes ?_).elim
        rwa [Passes, accepts, hcheck] at hpasses
      · rw [validate, hcheck] at hw
        obtain rfl : value = w := Except.ok.inj (Except.ok.inj hw)
        -- the default passes before annotations, so it is a file
        have hkind : value.kind = some .file := by
          by_contra hother
          exact (core_notFile hcore hbinary hother).not_passes haccepted
        obtain ⟨f, rfl, hf⟩ := Value.eq_file_of_kind hkind
        exact ⟨rfl, hgiven, f, rfl, hf, hadmitted hbinary.requiresProto hbinary.hasConstraints f hf haccepted,
          (hpresent (hfile f)).mpr haccepted⟩
    · intro hsure
      have hanswers : ∃ r, vd.check v [] = .ok r := by
        rcases hsure with hbranches | ⟨hschema, hwritable, hvalue⟩
        · obtain ⟨r, hr⟩ := (hrefused []).returns hbranches
          by_cases habsent : v = .absent
          · subst habsent
            rcases hannotated.check_absent with ⟨hcheck, _⟩ | ⟨value, _, _, hcheck⟩
            · exact ⟨r, (hcheck []).trans hr⟩
            · exact ⟨_, hcheck []⟩
          · exact ⟨r, (hannotated.check_present habsent []).trans hr⟩
        · have hregular : Throughout (IsRegular True False) vd :=
            compile_regular hcompile hschema.shapes (fun _ => hwritable) False.elim
          exact (answers_regular hregular v [] hvalue).returns trivial
      obtain ⟨r, hr⟩ := hanswers
      exact ⟨r.outcome, by rw [validate, hr]; rfl⟩

end

/-- Binary content. -/
def binaryContent : Entries := [(.string "type", .string "string"), (.string "format", .string "binary"),
  (.string "contentEncoding", .string "binary")]

theorem describesBinary_adding {keyword : String} (hkeyword : keyword ∉ ["type", "format", "contentEncoding"]) (value : Value) :
    DescribesBinary (binaryContent.adding keyword value) := by
  have hget : ∀ other ∈ ["type", "format", "contentEncoding"],
      Entries.get? (binaryContent.adding keyword value) other = Entries.get? binaryContent other := by
    intro other hother
    refine Entries.get?_adding ?_ _ _
    rintro rfl
    exact hkeyword hother
  exact ⟨hget _ (by decide), hget _ (by decide), hget _ (by decide)⟩

attribute [local instance] Pattern.engine

/-- An upload with a media type that is spelled in another way. -/
theorem files_admitted_upload :
    let schema := binaryContent.adding "contentMediaType" (.list [.string "image/PNG"])
    let f := File.upload 0 [] ⟨some (.text "Image/png; q=1"), none, some 3, false⟩
    requiresProto schema = false ∧ hasConstraints schema = true ∧ f.isFile = true ∧ Unbranched schema ∧
      Entries.get? schema "not" = none ∧ AdmitsFile schema f ∧
        ∃ vd, compile (.dict schema) = .ok vd ∧ vd.validate (.file f) = .ok (.ok (.file f)) ∧
          ∀ v : Value, v.kind ≠ some .file → v ≠ .absent → ∃ issues, vd.validate v = .ok (.error issues) := by
  intro schema f
  have hbinary : DescribesBinary schema := describesBinary_adding (by decide) _
  have hbranches : Unbranched schema :=
    List.forall_mem_cons.mpr ⟨rfl, List.forall_mem_cons.mpr ⟨rfl, List.forall_mem_singleton.mpr rfl⟩⟩
  have hmedia : f.mediaType? = some "image/png" := by with_unfolding_all rfl
  have hlower : (mediaTypesOf schema).map Unicode.lower = ["image/png"] := by with_unfolding_all rfl
  have hadmits : AdmitsFile schema f :=
    ⟨hbinary, rfl, nofun, nofun, nofun, fun _ => ⟨_, hlower ▸ List.mem_singleton_self _, hmedia⟩⟩
  have hcompile : compile (.dict schema) = .ok (.file ⟨{}, ["image/PNG"]⟩) := by with_unfolding_all rfl
  obtain ⟨hfiles, hothers⟩ := files_admitted hcompile
  have haccepted := (hfiles rfl rfl f rfl).2 hbranches rfl hadmits
  refine ⟨rfl, rfl, rfl, hbranches, rfl, hadmits, _, hcompile, haccepted, fun v hv habsent => ?_⟩
  obtain ⟨hrefused, hanswers⟩ := hothers hbinary v hv
  obtain ⟨outcome, houtcome⟩ := hanswers (.inl hbranches)
  cases outcome with
  | error issues => exact ⟨issues, houtcome⟩
  | ok w => exact (habsent (hrefused w houtcome).1).elim

/-- **What is no file and yet not refused**: the absent value, where a default stands in for it that is a file, and a list,
where a branch puts a limit on the number of items that is no number. -/
theorem files_unanswered :
    let file := Value.file (.bytes .fixed [7])
    let defaulting := binaryContent.adding "default" file
    let branching := binaryContent.adding "allOf"
      (.list [.dict [(.string "type", .string "array"), (.string "minItems", .string "a")]])
    DescribesBinary defaulting ∧ DescribesBinary branching ∧
      (∃ vd, compile (.dict defaulting) = .ok vd ∧ vd.validate .absent = .ok (.ok file)) ∧
        ∃ vd, compile (.dict branching) = .ok vd ∧ vd.validate (.list []) = .error .unsupported := by
  intro file defaulting branching
  have hdefaulting : compile (.dict defaulting) = .ok (.defaulted (.file {}) file) := by with_unfolding_all rfl
  have hbranching : compile (.dict branching) = .ok (.both (.file {}) (.array .any ⟨some (.string "a"), none⟩)) := by
    with_unfolding_all rfl
  exact ⟨describesBinary_adding (by decide) _, describesBinary_adding (by decide) _, ⟨_, hdefaulting, rfl⟩, _, hbranching, rfl⟩

end Schemata
