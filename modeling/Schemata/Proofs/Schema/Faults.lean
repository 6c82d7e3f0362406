import Schemata.CommandLine.Run
import Schemata.Metaschema.Check
import Schemata.Pattern.Reader
import Schemata.Proofs.Report.Independence
import Schemata.Proofs.Schema.Demands
import Schemata.Proofs.Schema.Failure
import Schemata.Proofs.Schema.Remarks
import Schemata.Yaml.Value

/-!
# `Schemata.Proofs.Schema.Faults` — compilation reports what is wrong with a schema

A schema of JSON may have any value under any keyword. Most readings take what has the shape that they look for and
leave the rest, and what is wrong with a pattern or with a sub-schema is reported. Only two readings rely on their
operands: the size of a tuple is compared with limits, and a default is tried on the validator made so far. Besides, the
engine of patterns may end with a fault of its own. Where all limits can be compared with numbers, and the engine reads
every pattern or calls it malformed, compilation never ends in a fault.

## Contents
- **Patterns.** `PatternsAnswered`, on which the engine has an answer.
- **Faultless computations.** `Faultless`, with a rule for every way of building a computation.
- **Sound validators.** `sound_coherent` and `sound_metBy`.
- **Phases.** `steps_faultless` and `apply?_faultless`, whatever the keywords hold, and both phases.
- **Compilation.** `compile_reports`, and `compile_faults_on_limit`, where a limit is a text.
-/

namespace Schemata

open Validator

/-! ## Patterns -/

/-- The engine reads every pattern in a mapping of keywords, of texts and of members, or calls it malformed. -/
structure PatternsAnswered [Pattern.Engine] (schema : Entries) : Prop where
  pattern : ∀ s f, Entries.get? schema "pattern" = some (.string s) → Pattern.Engine.read s ≠ .error (.fault f)
  names : ∀ s f, .string s ∈ (patternEntries schema).map Prod.fst → Pattern.Engine.read s ≠ .error (.fault f)

/-! ## Faultless computations -/

/-- The computation does not end in a fault; it may end in an error of the schema. -/
def Faultless {α : Type} (x : Except CompileError α) : Prop := ∀ f, x ≠ .error (.fault f)

namespace Faultless

variable {α β : Type}

theorem ok (a : α) : Faultless (.ok a) := nofun

theorem pure (a : α) : Faultless (Pure.pure a) := ok a

/-- What never fails. -/
theorem of_fails {x : Except CompileError α} (h : Fails (fun _ => False) x) : Faultless x :=
  fun _ hf => h.cause _ hf

theorem bind {x : Except CompileError α} {f : α → Except CompileError β} (hx : Faultless x)
    (hf : ∀ a, x = .ok a → Faultless (f a)) : Faultless (x >>= f) := by
  cases hcase : x with
  | error e =>
    rintro fault hfault
    exact hx fault (hcase.trans (Except.error.inj hfault ▸ rfl))
  | ok a => exact hf a hcase

theorem mapM {f : α → Except CompileError β} {as : List α} (h : ∀ a ∈ as, Faultless (f a)) : Faultless (as.mapM f) := by
  induction as with
  | nil => exact pure _
  | cons a as ih =>
    obtain ⟨hfirst, hrest⟩ := List.forall_mem_cons.mp h
    rw [List.mapM_cons]
    exact bind hfirst fun b _ => bind (ih hrest) fun bs _ => pure _

theorem orError {x : Except Fault α} (h : ∃ a, x = .ok a) : Faultless (Schemata.orError x : Except CompileError α) :=
  of_fails (Fails.orError h)

end Faultless

/-! ## Sound validators -/

theorem Demands.sound_coherent : Demands.sound.Coherent where
  closed := fun _ _ h => h.validators_eq
  sized := fun _ relation _ hkind hlimit => Test.suits_size hkind relation hlimit.ordered
  integral := .integral
  zero := ⟨Value.isOrdered_int 0, Value.isWritable_zero⟩
  noNames := List.forall_mem_nil _

section

variable {schema : Entries} (hjson : (Value.dict schema).IsJson) (hschema : (Value.dict schema).isWritable = true)
  (hoperands : HasOperands schema)

include hschema hoperands

/-- The limit under a keyword, if it is not null. -/
theorem isLimit_given {keyword : String} (hkeyword : (keyword, KeywordShape.count) ∈ keywordShapes) {limit : Value}
    (hgiven : Entries.given? schema keyword = some limit) : IsLimit limit where
  ordered := hoperands.limit keyword hkeyword limit hgiven
  writable := isWritable_get? hschema (get?_of_given? hgiven)

include hjson

theorem Demands.sound_metBy [Pattern.Engine] : Demands.sound.MetBy schema where
  literal := fun _ hw => isWritable_of_mem_literals hschema hw
  condition := fun _ _ _ _ hrule htest => condition_suits hoperands (fun _ => hschema) hrule htest
  anyCondition := fun _ _ htest => htest.isUniversal hoperands
  limit := fun _ hkeyword _ hgiven => isLimit_given hschema hoperands hkeyword hgiven
  names := by
    intro name hname
    obtain ⟨s, rfl⟩ := (distinctTexts_fieldNames hjson).texts name hname
    rfl
  default := fun _ hget => isWritable_get? hschema hget

end

/-! ## Phases -/

section

variable {schema : Entries} {convert : Value → Except CompileError Validator}

/-- A pattern that is no text, or that the engine calls malformed, is an error of the schema. -/
theorem faultless_patternSteps [Pattern.Engine] (hpatterns : PatternsAnswered schema) (slots : Admissibility) :
    Faultless (patternSteps (m := Except CompileError) slots schema) := by
  unfold patternSteps
  split
  · exact .pure _
  next value hget =>
    split
    · exact .pure _
    · split
      next e hpattern =>
        rintro f hf
        obtain rfl := Except.error.inj hf
        obtain ⟨s, rfl, hread⟩ := compilePattern_fault_iff.mp hpattern
        exact hpatterns.pattern s f hget hread
      · exact .pure _

section

variable (hsub : ∀ s ∈ subSchemas schema, Faultless (convert s))

include hsub

/-- The mapping under a keyword. -/
theorem faultless_mapping (shape : KeywordShape) {keyword : String} (hkeyword : (keyword, shape) ∈ keywordShapes)
    (hself : ∀ entries, Value.dict entries ∈ shape.subSchemas (.dict entries)) {entries : Entries}
    (hget : Entries.get? schema keyword = some (.dict entries)) : Faultless (convert (.dict entries)) :=
  hsub _ (mem_subSchemas shape hget hkeyword (hself entries))

/-- Tuples are the one structure whose size is compared with limits while it is read. -/
theorem faultless_tupleSteps (hschema : (Value.dict schema).isWritable = true) (hoperands : HasOperands schema)
    (slots : Admissibility) : Faultless (tupleSteps (m := Except CompileError) (fun _ => .ok ()) convert slots schema) := by
  have hrest : Faultless (restValidator convert schema) := by
    unfold restValidator
    split
    · exact .pure _
    next entries hget =>
      exact .bind (faultless_mapping hsub .schema (by decide) (fun _ => List.mem_singleton.mpr rfl) hget) fun c _ => .pure _
    · exact .pure _
  have hbounds : (givenBounds schema "minItems" "maxItems").Each IsLimit :=
    ⟨fun _ h => isLimit_given hschema hoperands (by decide) h, fun _ h => isLimit_given hschema hoperands (by decide) h⟩
  unfold tupleSteps
  split
  next items hget =>
    split
    · exact .pure _
    have hitems : Faultless (items.mapM convert) :=
      .mapM fun s hs => hsub s (mem_subSchemas .schemaOrSchemas hget (by decide) hs)
    refine .bind hitems fun positional _ => .bind hrest fun rest _ => ?_
    split
    · refine .bind (.orError (isImpossible_answers hbounds _)) fun impossible _ => ?_
      cases impossible with
      | true =>
        exact .bind (.orError (plainOrNone_answers hbounds.least)) fun least _ =>
          .bind (.orError (plainOrNone_answers hbounds.most)) fun most _ => .bind (.ok _) fun _ _ => .pure _
      | false => exact .pure _
    · exact .pure _
  · exact .pure _

theorem faultless_itemsSteps (slots : Admissibility) : Faultless (itemsSteps convert slots schema) := by
  unfold itemsSteps
  split
  · exact .pure _
  dsimp only
  split
  · exact .pure _
  · exact .pure _
  · split <;> exact .pure _
  next entries hget =>
    split
    · exact .pure _
    · have hentries := faultless_mapping hsub .schemaOrSchemas (by decide) (fun _ => List.mem_singleton.mpr rfl) hget
      exact .bind hentries fun c _ => .pure _
  · exact .pure _

theorem faultless_propertiesSteps (slots : Admissibility) : Faultless (propertiesSteps convert slots schema) := by
  have hfields : ∀ (required : List String) (properties : Entries), (∀ e ∈ properties, Faultless (convert e.2)) →
      Faultless (propertyFields convert required properties) := by
    intro required properties h
    induction properties with
    | nil => exact .pure _
    | cons e es ih =>
      obtain ⟨hfirst, hrest⟩ := List.forall_mem_cons.mp h
      exact .bind hfirst fun c _ => .bind (ih hrest) fun fields _ => .pure _
  have hpolicy : Faultless (additionalPolicy convert schema) := by
    unfold additionalPolicy
    split
    · exact .pure _
    · split
      · exact .pure _
      next entries hget =>
        exact .bind (faultless_mapping hsub .schema (by decide) (fun _ => List.mem_singleton.mpr rfl) hget) fun c _ => .pure _
      · exact .pure _
  unfold propertiesSteps
  split
  · exact .pure _
  · split
    · exact .pure _
    · refine .bind (hfields _ _ fun e he => ?_) fun fields _ => .bind hpolicy fun additional _ => .pure _
      exact hsub e.2 (mem_subSchemas_of_entries "properties" (by decide) he)

/-- **No rule ends in a fault**, whatever the keywords hold besides limits. -/
theorem steps_faultless [Pattern.Engine] (hschema : (Value.dict schema).isWritable = true)
    (hoperands : HasOperands schema) (hpatterns : PatternsAnswered schema) (slots : Admissibility) (rule : KindRule) :
    Faultless (rule.steps (m := Except CompileError) (fun _ => .ok ()) convert slots schema) := by
  cases rule with
  | const => exact .of_fails (fails_constSteps hschema)
  | minLength | maxLength => exact .of_fails (fails_lengthSteps hschema slots _ _ _)
  | pattern => exact faultless_patternSteps hpatterns slots
  | minimum | maximum => exact .of_fails (fails_rangeSteps hschema slots _ _ _ _ _ _)
  | exclusiveMinimum | exclusiveMaximum => exact .of_fails (fails_exclusiveSteps hschema slots _ _ _)
  | multipleOf => exact .of_fails (fails_multipleSteps hschema slots)
  | tuple => exact faultless_tupleSteps hsub hschema hoperands slots
  | items => exact faultless_itemsSteps hsub slots
  | properties => exact faultless_propertiesSteps hsub slots
  | _ => exact .pure _

theorem KindRule.runAll_faultless [Pattern.Engine] (hschema : (Value.dict schema).isWritable = true)
    (hoperands : HasOperands schema) (hpatterns : PatternsAnswered schema) (rules : List KindRule) (slots : Admissibility) :
    Faultless (KindRule.runAll (m := Except CompileError) (fun _ => .ok ()) convert schema rules slots) := by
  induction rules generalizing slots with
  | nil => exact .pure _
  | cons rule rules ih => exact .bind (steps_faultless hsub hschema hoperands hpatterns slots rule) fun steps _ => ih _

/-! ### Refinements -/

theorem faultless_branches {keyword : String} (hkeyword : (keyword, KeywordShape.schemas) ∈ keywordShapes) :
    Faultless (branches convert schema keyword) := by
  unfold branches
  split
  next items hitems => exact .mapM fun s hs => hsub s (mem_subSchemas_of_items hkeyword hitems hs)
  · exact .pure _

theorem faultless_leftOver (shape : KeywordShape) {keyword : String} (hkeyword : (keyword, shape) ∈ keywordShapes)
    (hself : ∀ entries, Value.dict entries ∈ shape.subSchemas (.dict entries)) :
    Faultless (leftOver convert schema keyword) := by
  unfold leftOver
  split
  · exact .pure _
  next entries hget => exact .bind (faultless_mapping hsub shape hkeyword hself hget) fun c _ => .pure _
  · exact .pure _

theorem faultless_prefixItems (vd : Validator) : Faultless (prefixItems? convert vd schema) := by
  unfold prefixItems?
  cases hitems : (Entries.get? schema "prefixItems").bind Value.items? with
  | none => exact .pure _
  | some items =>
    have hpositions : Faultless (items.mapM convert) :=
      .mapM fun s hs => hsub s (mem_subSchemas_of_items (by decide) hitems hs)
    have hextra := faultless_leftOver hsub .schemaOrSchemas (by decide : ("items", _) ∈ keywordShapes)
      fun _ => List.mem_singleton.mpr rfl
    exact .bind hpositions fun positional _ => .bind hextra fun extra _ => .pure _

theorem faultless_patternProperties [Pattern.Engine] (hpatterns : PatternsAnswered schema) (vd : Validator) :
    Faultless (patternProperties? (fun _ => .ok ()) convert vd schema) := by
  have hrules : ∀ entries : Entries, (∀ e ∈ entries, Faultless (convert e.2)) →
      (∀ s f, .string s ∈ entries.map Prod.fst → Pattern.Engine.read s ≠ .error (.fault f)) →
      Faultless (patternRules (m := Except CompileError) (fun _ => .ok ()) convert entries) := by
    intro entries h hnames
    induction entries with
    | nil => exact .pure _
    | cons e es ih =>
      obtain ⟨hfirst, hrest⟩ := List.forall_mem_cons.mp h
      have hothers := ih hrest fun s f hs => hnames s f (List.mem_cons_of_mem _ hs)
      rw [patternRules]
      split
      next f hpattern =>
        obtain ⟨s, hs, hread⟩ := compilePattern_fault_iff.mp hpattern
        exact absurd hread (hnames s f (hs ▸ List.mem_cons_self))
      -- an entry with a bad pattern is skipped, and its sub-schema is not compiled
      · exact .bind (.ok _) fun _ _ => hothers
      · exact .bind hfirst fun c _ => .bind hothers fun rules _ => .pure _
  unfold patternProperties?
  cases hentries : (Entries.get? schema "patternProperties").bind Value.entries? with
  | none => exact .pure _
  | some entries =>
    have heach : ∀ e ∈ entries, Faultless (convert e.2) := fun e he =>
      hsub e.2 (mem_subSchemas_of_entries "patternProperties" (by decide) (by rw [hentries]; exact he))
    have hothers := faultless_leftOver hsub .schema (by decide : ("additionalProperties", _) ∈ keywordShapes)
      fun _ => List.mem_singleton.mpr rfl
    have hnames := hpatterns.names
    rw [patternEntries, hentries] at hnames
    exact .bind (hrules entries heach hnames) fun rules _ => .bind hothers fun others _ => .pure _

omit hsub in
/-- A default is tried on a sound validator, which answers about it. -/
theorem faultless_default (hschema : (Value.dict schema).isWritable = true) {vd : Validator}
    (hvd : Demands.sound.Hold vd) : Faultless (default? (m := Except CompileError) (fun _ => .ok ()) vd schema) := by
  unfold default?
  cases hget : Entries.get? schema "default" with
  | none => exact .pure _
  | some value =>
    have hvalue := isWritable_get? hschema hget
    have haccepts : ∃ b, vd.accepts value = .ok b := (accepts_answers (answers_sound hvd value [] hvalue)).returns trivial
    refine .bind (.orError haccepts) fun accepted _ => ?_
    split
    · exact .pure _
    · exact .bind (.of_fails (.quoted hvalue)) fun text _ => .bind (.ok _) fun _ _ => .pure _

/-- **No refinement of a sound validator ends in a fault.** -/
theorem apply?_faultless [Pattern.Engine] (hschema : (Value.dict schema).isWritable = true)
    (hpatterns : PatternsAnswered schema) {vd : Validator} (hvd : Demands.sound.Hold vd) (refinement : Refinement) :
    Faultless ( refinement.apply? (m := Except CompileError) (fun _ => .ok ()) convert vd schema) := by
  cases refinement with
  | allOf => exact .bind (faultless_branches hsub (by decide)) fun all _ => .pure _
  | anyOf | oneOf => exact .bind (faultless_branches hsub (by decide)) fun options _ => .pure _
  | prefixItems => exact faultless_prefixItems hsub vd
  | contains =>
    show Faultless (contains? convert vd schema)
    unfold contains?
    split
    · exact .pure _
    next item hget =>
      exact .bind (hsub item (mem_subSchemas .schema hget (by decide) (List.mem_singleton.mpr rfl))) fun c _ => .pure _
  | patternProperties => exact faultless_patternProperties hsub hpatterns vd
  | not =>
    show Faultless (not? convert vd schema)
    unfold not?
    split
    · exact .pure _
    next negated hget =>
      exact .bind (hsub negated (mem_subSchemas .schema hget (by decide) (List.mem_singleton.mpr rfl))) fun c _ => .pure _
  | default => exact faultless_default hschema hvd
  | _ => exact .pure _

end

section

variable [Pattern.Engine] (hjson : (Value.dict schema).IsJson) (hschema : (Value.dict schema).isWritable = true)
  (hoperands : HasOperands schema) (hpatterns : PatternsAnswered schema)
  (hsub : ∀ s ∈ subSchemas schema, Faultless (convert s))
  (hsound : ∀ s ∈ subSchemas schema, ∀ c, convert s = .ok c → Demands.sound.Hold c)

include hjson hschema hoperands hpatterns hsub hsound

/-- Refinements leave a validator sound, so that a default can be tried on it in the end. -/
theorem Refinement.runAll_faultless (refinements : List Refinement) {vd : Validator} (hvd : Demands.sound.Hold vd) :
    Faultless (Refinement.runAll (fun _ => .ok ()) convert schema refinements vd) := by
  induction refinements generalizing vd with
  | nil => exact .pure _
  | cons refinement rest ih =>
    have hnode := (Demands.sound_metBy hjson hschema hoperands).keepsNode Demands.sound_coherent
    rw [Refinement.runAll]
    refine .bind (apply?_faultless hsub hschema hpatterns hvd refinement) fun w hw => ih ?_
    cases w with
    | none => exact hvd
    | some c => exact (keeps_refinement hnode.refinements hsound hvd refinement).meets _ hw c rfl

/-- **A mapping of keywords is compiled without a fault** if its sub-schemas are. -/
theorem compileNode_faultless : Faultless (compileNode (fun _ => .ok ()) convert schema) := by
  have hnode := (Demands.sound_metBy hjson hschema hoperands).keepsNode Demands.sound_coherent
  refine .bind (KindRule.runAll_faultless hsub hschema hoperands hpatterns KindRule.all .initial) fun slots hrun => ?_
  have hassembled : Demands.sound.Hold (slots.assemble schema) := (hnode.assembled hsound).meets slots hrun
  exact Refinement.runAll_faultless hjson hschema hoperands hpatterns hsub hsound Refinement.all hassembled

end

end

/-! ## Compilation -/

/-- **The validator of a schema with operands is sound.** -/
theorem compile_sound [Pattern.Engine] {schema : Value} {vd : Validator} (h : compile schema = .ok vd)
    (hjson : schema.IsJson) (hschema : schema.isWritable = true) (hoperands : Everywhere HasOperands schema) :
    Demands.sound.Hold vd := by
  refine compile_meets Demands.sound_coherent h ?_
  refine @everywhere_of (fun s => s.IsJson ∧ s.isWritable = true ∧ Everywhere HasOperands s) _ ?_ ?_ schema
    ⟨hjson, hschema, hoperands⟩
  · rintro entries ⟨hjson, hschema, hoperands⟩
    exact Demands.sound_metBy hjson hschema hoperands.here
  · rintro entries ⟨hjson, hschema, hoperands⟩ s hs
    exact ⟨Value.goesDown_isJson.subSchema hjson hs, isWritable_of_mem_subSchemas hschema hs, hoperands.inside hs⟩

theorem compile_faultless [Pattern.Engine] {schema : Value} (hjson : schema.IsJson) (hschema : schema.isWritable = true)
    (hoperands : Everywhere HasOperands schema) (hpatterns : Everywhere PatternsAnswered schema) :
    Faultless (compile schema) := by
  induction hoperands with
  | @other v noEntries =>
    cases v with
    | bool b => exact .ok _
    | dict entries => cases noEntries
    | _ => exact nofun
  | @mapping entries hnode hinside ih =>
    have hsubJson : ∀ s ∈ subSchemas entries, s.IsJson := fun s hs => Value.goesDown_isJson.subSchema hjson hs
    have hsubWritable : ∀ s ∈ subSchemas entries, s.isWritable = true := fun s hs => isWritable_of_mem_subSchemas hschema hs
    rw [compile_dict]
    exact compileNode_faultless hjson hschema hnode hpatterns.here
      (fun s hs => ih s hs (hsubJson s hs) (hsubWritable s hs) (hpatterns.inside hs))
      fun s hs c hc => compile_sound hc (hsubJson s hs) (hsubWritable s hs) (hinside s hs)

/-- A schema that is not compiled stops all checking. -/
theorem Store.checkDocuments_error [Pattern.Engine] [Yaml.Engine] [Metaschema.Engine] {path : String}
    {check : Option Bool} {s : Store} {schema : Value} {e : CompileError}
    (hload : ((loadSchema path check).run.run s).1 = .ok schema) (hcompile : compile schema = .error e)
    (documents : List String) :
    ((checkDocuments path documents check).run.run s).1 = .error (.compile e) := by
  have hstop : ∀ t, ((compileSchema schema).run.run t).1 = .error (.compile e) := by
    intro t
    obtain ⟨records, hrecord⟩ := run_forM_record (ε := CheckError) (compileLogged schema).2 t
    unfold compileSchema
    dsimp only
    rw [run_bind, hrecord, compileLogged_eq, hcompile]
    rfl
  unfold checkDocuments
  rw [run_bind, run_checked, hload]
  dsimp only [Except.mapError]
  rw [run_bind]
  have hstopped := hstop ((loadSchema path check).run.run s).2
  rcases hrun : (compileSchema schema).run.run ((loadSchema path check).run.run s).2 with ⟨outcome, t⟩
  rw [hrun] at hstopped
  subst hstopped
  rfl

/-- **Compilation reports what is wrong with a schema.** A schema of JSON whose integers can be written, with any values
under any keywords but limits that can be compared with numbers and patterns that the engine reads or calls malformed, is
compiled or has a bad pattern or a part that is no schema; and if the latter is in the file that the program is given, it
ends with exit code two. -/
theorem compile_reports [Pattern.Engine] [Yaml.Engine] [Metaschema.Engine] {schema : Value} (hjson : schema.IsJson)
    (hschema : schema.isWritable = true) (hoperands : Everywhere HasOperands schema)
    (hpatterns : Everywhere PatternsAnswered schema) :
    ((∃ vd, compile schema = .ok vd) ∨ (∃ pattern cause, compile schema = .error (.badPattern pattern cause)) ∨
      ∃ typeName, compile schema = .error (.notASchema typeName)) ∧
    ∀ (request : CommandLine.Request) (files : Files) (settings : Settings),
      ((Store.loadSchema request.schema request.checkSchema).run.run (.ofFiles files settings)).1 = .ok schema →
      (∃ e, compile schema = .error e) → (CommandLine.perform request files settings).ending = .code 2 := by
  have hfaultless := compile_faultless hjson hschema hoperands hpatterns
  constructor
  · cases hcompile : compile schema with
    | ok vd => exact .inl ⟨vd, rfl⟩
    | error e =>
      cases e with
      | badPattern pattern cause => exact .inr (.inl ⟨pattern, cause, rfl⟩)
      | notASchema typeName => exact .inr (.inr ⟨typeName, rfl⟩)
      | fault f => exact absurd hcompile (hfaultless f)
  · rintro request files settings hload ⟨e, hcompile⟩
    have hchecks := Store.checkDocuments_error hload hcompile request.documents
    obtain ⟨message, hmessage⟩ : ∃ message, (CheckError.compile e).message? = some message := by
      cases e with
      | badPattern pattern cause => exact ⟨_, rfl⟩
      | notASchema typeName => exact ⟨_, rfl⟩
      | fault f => exact absurd hcompile (hfaultless f)
    unfold CommandLine.perform
    rcases hrun : (Store.checkDocuments request.schema request.documents request.checkSchema).run.run
      (.ofFiles files settings) with ⟨outcome, store⟩
    rw [hrun] at hchecks
    subst hchecks
    dsimp only
    rw [hmessage]

attribute [local instance] Pattern.engine Yaml.engine Metaschema.engine

/-- A schema file with a `pattern` that is no text is loaded. -/
theorem load_pattern :
    (match ((Store.loadSchema "s.json" none).run.run
        (.ofFiles [("s.json", .file "\x7b\"minLength\": true, \"pattern\": []\x7d".toUTF8.toList)] {})).1 with
      | .ok (.dict [(.string k, .bool true), (.string l, .list [])]) => k == "minLength" && l == "pattern"
      | _ => false) = true := by decide +kernel

/-- A pattern that is no text, beside a limit that is a truth value. -/
theorem compile_reports_pattern :
    let schema := Value.dict [(.string "minLength", .bool true), (.string "pattern", .list [])]
    let files : Files := [("s.json", .file "\x7b\"minLength\": true, \"pattern\": []\x7d".toUTF8.toList)]
    let request : CommandLine.Request := ⟨"s.json", ["a.json"], .human, none⟩
    schema.IsJson ∧ schema.isWritable = true ∧ Everywhere HasOperands schema ∧ Everywhere PatternsAnswered schema ∧
      ((Store.loadSchema request.schema request.checkSchema).run.run (.ofFiles files {})).1 = .ok schema ∧
      (∃ pattern cause, compile schema = .error (.badPattern pattern cause)) ∧
      (CommandLine.perform request files {}).ending = .code 2 := by
  intro schema files request
  have hjson : schema.IsJson := .dict ⟨by simp, by simp⟩ <| List.forall_mem_cons.mpr
    ⟨.leaf rfl rfl rfl, List.forall_mem_singleton.mpr (.list (List.forall_mem_nil _))⟩
  have hoperands : Everywhere HasOperands schema := by
    refine .mapping ⟨fun keyword hkeyword limit hgiven => ?_, fun keyword hkeyword hnull => ?_, ?_⟩ (List.forall_mem_nil _)
    · have hmem := Entries.mem_of_get? (get?_of_given? hgiven)
      simp only [List.mem_cons, Prod.mk.injEq, Value.string.injEq, List.not_mem_nil, or_false] at hmem
      obtain ⟨-, rfl⟩ | ⟨rfl, -⟩ := hmem
      · exact ⟨_, rfl⟩
      · exact absurd hkeyword (by decide)
    · have hmem := Entries.mem_of_get? hnull
      simp at hmem
    · rintro names ⟨⟩
  have hpatterns : Everywhere PatternsAnswered schema := by
    refine .mapping ⟨fun s f hget => ?_, nofun⟩ (List.forall_mem_nil _)
    cases hget
  have hload : ((Store.loadSchema request.schema request.checkSchema).run.run (.ofFiles files {})).1 = .ok schema := by
    have hread := load_pattern
    split at hread
    next k l heq =>
      obtain ⟨hk, hl⟩ := Bool.and_eq_true_iff.mp hread
      rw [heq, eq_of_beq hk, eq_of_beq hl]
    next => cases hread
  have hcompile : compile schema = .error (.badPattern (.list []) (.notAKey "list")) := by with_unfolding_all rfl
  obtain ⟨-, hends⟩ := compile_reports hjson rfl hoperands hpatterns
  exact ⟨hjson, rfl, hoperands, hpatterns, hload, ⟨_, _, hcompile⟩, hends request files {} hload ⟨_, hcompile⟩⟩

/-- **A limit that is a text** ends compilation in a fault where the size of a tuple is compared with it. -/
theorem compile_faults_on_limit :
    let schema := Value.dict [(.string "type", .string "array"), (.string "items", .list []), (.string "minItems", .string "a")]
    schema.IsJson ∧ schema.isWritable = true ∧ compile schema = .error (.fault .unsupported) := by
  intro schema
  refine ⟨?_, rfl, by with_unfolding_all rfl⟩
  exact .dict ⟨by simp, by simp⟩ <| List.forall_mem_cons.mpr ⟨.leaf rfl rfl rfl, List.forall_mem_cons.mpr
    ⟨.list (List.forall_mem_nil _), List.forall_mem_singleton.mpr (.leaf rfl rfl rfl)⟩⟩

end Schemata
