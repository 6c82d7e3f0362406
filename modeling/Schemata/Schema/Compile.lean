import Schemata.Schema.Refinement

/-!
# `Schemata.Schema.Compile` — from schemas to validators

A schema is a truth value or a mapping of keywords. A mapping is compiled in two phases: the rules of the
first phase fill the slots of the kinds, the slots are joined into one validator, and the refinements of
the second phase wrap it. Sub-schemas are compiled by the rules on the way.

## Contents
- **Compilation.** `compileNode`, `compileWithin`, and `compileWith` for any way of taking remarks.
- **Forms.** `compile`, without remarks, and `compileLogged`, which keeps those made before an error.
- **Shapes.** `shape`, the properties of an object compiled one by one.
- **Traces.** `trace`, the compilation step by step.
-/

namespace Schemata

/-! ## Compilation -/

variable [Pattern.Engine]

section

variable {m : Type → Type} [Monad m] [MonadExceptOf CompileError m]

/-- Compiles a mapping of keywords, given how sub-schemas are compiled. -/
def compileNode (remark : Remark → m Unit) (convert : Value → m Validator) (schema : Entries) :
    m Validator := do
  let slots ← KindRule.runAll remark convert schema KindRule.all .initial
  Refinement.runAll remark convert schema Refinement.all (slots.assemble schema)

/-- Compiles a schema that is nested less deep than the given number; deeper ones do not occur below a
schema of that depth. -/
def compileWithin (remark : Remark → m Unit) : Nat → Value → m Validator
  | _, .bool b => pure (if b then .any else .never)
  | 0, _ => pure .never
  | depth + 1, .dict schema => compileNode remark (compileWithin remark depth) schema
  | _ + 1, schema => throw (.notASchema schema.typeName)

/-- Compiles a schema. -/
def compileWith (remark : Remark → m Unit) (schema : Value) : m Validator :=
  compileWithin remark (schema.depth + 1) schema

end

/-! ## Forms -/

/-- Compiles a schema. -/
def compile (schema : Value) : Except CompileError Validator :=
  compileWith (m := Except CompileError) (fun _ => .ok ()) schema

/-- A computation that makes remarks, which survive an error. -/
abbrev Remarking := ExceptT CompileError (StateM (List Remark))

/-- Compiles a schema and keeps the remarks in order. -/
def compileLogged (schema : Value) : Except CompileError Validator × List Remark :=
  let step : Remarking Validator :=
    compileWith (m := Remarking) (fun r => modify fun remarks => remarks ++ [r]) schema
  step.run.run []

/-! ## Shapes -/

/-- Compiles the entries of a mapping one by one; null entries are left out. -/
def shapeEntries : Entries → Except CompileError (List (Value × Validator))
  | [] => .ok []
  | (name, schema) :: rest => do
    match schema with
    | .null => shapeEntries rest
    | schema =>
      let validator ← compile schema
      return (name, validator) :: (← shapeEntries rest)

/-- Compiles the properties of an object schema one by one, without regard to `required`. What counts as
nothing under `properties` means no properties. -/
def shape (schema : Value) : Except CompileError (List (Value × Validator)) :=
  match schema with
  | .dict entries =>
    match Entries.get? entries "properties" with
    | none => .ok []
    | some (.dict properties) => shapeEntries properties
    | some v => if v.truthy then .error (.fault .missingPart) else .ok []
  | _ => .error (.fault .missingPart)

/-! ## Traces -/

/-- A step of a compilation that changed something. -/
inductive TraceStep
  | kinds (rule : KindRule) (slots : List (Kind × Slot))
  | base (validator : Validator)
  | refined (refinement : Refinement) (validator : Validator)
  | whole (validator : Validator)

/-- Applies rules one by one, noting the slots that each fills anew. -/
def traceKinds (schema : Entries) :
    List KindRule → Admissibility → List TraceStep → List TraceStep × Except CompileError Admissibility
  | [], slots, done => (done, .ok slots)
  | rule :: rules, slots, done =>
    match rule.steps (m := Except CompileError) (fun _ => .ok ()) compile slots schema with
    | .error e => (done, .error e)
    | .ok steps =>
      let replaced := Step.allReplaced slots steps
      let after := slots.run steps
      let shown := (Kind.all.filter replaced.contains).map fun kind => (kind, after kind)
      traceKinds schema rules after (if shown.isEmpty then done else done ++ [.kinds rule shown])

/-- Applies refinements one by one, noting those that change the validator. -/
def traceRefinements (schema : Entries) :
    List Refinement → Validator → List TraceStep → List TraceStep × Except CompileError Validator
  | [], v, done => (done, .ok v)
  | refinement :: rest, v, done =>
    match refinement.apply? (m := Except CompileError) (fun _ => .ok ()) compile v schema with
    | .error e => (done, .error e)
    | .ok none => traceRefinements schema rest v done
    | .ok (some w) => traceRefinements schema rest w (done ++ [.refined refinement w])

/-- The steps of a compilation up to its end or its error. -/
def trace (schema : Value) : List TraceStep × Except CompileError Validator :=
  match schema with
  | .dict entries =>
    match traceKinds entries KindRule.all .initial [] with
    | (done, .error e) => (done, .error e)
    | (done, .ok slots) =>
      let base := slots.assemble entries
      traceRefinements entries Refinement.all base (done ++ [.base base])
  | schema =>
    match compile schema with
    | .ok v => ([.whole v], .ok v)
    | .error e => ([], .error e)

end Schemata
