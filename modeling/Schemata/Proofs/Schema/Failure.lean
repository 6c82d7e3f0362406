import Schemata.Pattern.Reader
import Schemata.Proofs.Schema.Admission
import Schemata.Proofs.Schema.Regular
import Schemata.Proofs.Schema.Unfolding

/-!
# `Schemata.Proofs.Schema.Failure` — exactly when compilation fails

A well-formed schema whose integers can be written is compiled unless the engine of patterns refuses a text that
compilation asks about: one under `pattern`, in a mapping of keywords that compilation reaches and that still admits
texts, or one in `patternProperties`, where a malformed one does no harm. What compilation reaches depends on the kinds
that are admitted: the keywords of arrays and objects are not read where these are disabled.

## Contents
- **Failing.** `Fails`, with a rule for every way of building a computation.
- **Refusals.** `Pattern.Refusal.toError`, `RefusesPattern` and `StopsAtName`.
- **Reach.** `reachedSchemas`, `Reaches` and `FailsOnPattern`.
- **Phases.** `KindRule.runAll_fails` and `Refinement.runAll_fails`.
- **Compilation.** `compile_fails_iff`, and `compile_stops_at_options`, where the engine ends with a fault.
-/

namespace Schemata

open Validator

/-! ## Failing -/

/-- `Fails bad x`: the computation fails if there is a bad error and only then, and always with one of those. -/
structure Fails {α : Type} (bad : CompileError → Prop) (x : Except CompileError α) : Prop where
  cause : ∀ e, x = .error e → bad e
  fails : ∀ e, bad e → ∃ e', x = .error e'

namespace Fails

variable {α β : Type} {bad other : CompileError → Prop}

theorem of_ok {x : Except CompileError α} (h : ∃ a, x = .ok a) : Fails (fun _ => False) x := by
  obtain ⟨a, rfl⟩ := h
  exact ⟨nofun, fun _ => False.elim⟩

theorem ok (a : α) : Fails (fun _ => False) (.ok a) := of_ok ⟨a, rfl⟩

theorem pure (a : α) : Fails (fun _ => False) (Pure.pure a : Except CompileError α) := ok a

theorem iff {x : Except CompileError α} (h : Fails bad x) (heq : ∀ e, bad e ↔ other e) : Fails other x :=
  ⟨fun e he => (heq e).mp (h.cause e he), fun e hother => h.fails e ((heq e).mpr hother)⟩

/-- **A step and what follows it** fail if either does. -/
theorem bind {x : Except CompileError α} {f : α → Except CompileError β} (hx : Fails bad x)
    (hf : ∀ a, x = .ok a → Fails other (f a)) : Fails (fun e => bad e ∨ other e) (x >>= f) := by
  cases hcase : x with
  | error e =>
    exact ⟨fun e' he' => .inl (Except.error.inj he' ▸ hx.cause e hcase), fun _ _ => ⟨e, rfl⟩⟩
  | ok a =>
    have hnot : ∀ e, ¬ bad e := fun e hbad => by
      obtain ⟨e', he'⟩ := hx.fails e hbad
      rw [hcase] at he'
      cases he'
    have ha := hf a hcase
    exact ⟨fun e he => .inr (ha.cause e he), fun e h => ha.fails e (h.resolve_left (hnot e))⟩

/-- A step that answers, and what follows it. -/
theorem after {x : Except CompileError α} {f : α → Except CompileError β} (hx : Fails (fun _ => False) x)
    (hf : ∀ a, x = .ok a → Fails bad (f a)) : Fails bad (x >>= f) :=
  (hx.bind hf).iff (by simp)

/-- A step that is followed by one that answers. -/
theorem before {x : Except CompileError α} {f : α → Except CompileError β} (hx : Fails bad x)
    (hf : ∀ a, x = .ok a → Fails (fun _ => False) (f a)) : Fails bad (x >>= f) :=
  (hx.bind hf).iff (by simp)

theorem mapM {f : α → Except CompileError β} {bad : α → CompileError → Prop} {as : List α}
    (h : ∀ a ∈ as, Fails (bad a) (f a)) : Fails (fun e => ∃ a ∈ as, bad a e) (as.mapM f) := by
  induction as with
  | nil => exact (pure _).iff (by simp)
  | cons a as ih =>
    obtain ⟨hfirst, hrest⟩ := List.forall_mem_cons.mp h
    rw [List.mapM_cons]
    exact (bind hfirst fun b _ => before (ih hrest) fun bs _ => pure _).iff (by simp)

theorem orError {x : Except Fault α} (h : ∃ a, x = .ok a) :
    Fails (fun _ => False) (Schemata.orError x : Except CompileError α) := by
  obtain ⟨a, rfl⟩ := h
  exact ok a

theorem quoted {value : Value} (h : value.isWritable = true) :
    Fails (fun _ => False) (Schemata.orError value.quoted? : Except CompileError String) :=
  orError ((Decides.answers_quoted fun _ : True => h).returns trivial)

theorem plain {value : Value} (h : value.isWritable = true) :
    Fails (fun _ => False) (Schemata.orError value.plain? : Except CompileError String) :=
  orError ((Decides.answers_plain fun _ : True => h).returns trivial)

end Fails

/-! ## Refusals -/

section

variable [Pattern.Engine]

/-- What compilation makes of a refusal to read a text. -/
def Pattern.Refusal.toError (s : String) : Pattern.Refusal → CompileError
  | .malformed => .badPattern (.string s) .malformed
  | .fault f => .fault f

theorem compilePattern_string (s : String) :
    compilePattern (.string s) = (Pattern.Engine.read s).mapError (Pattern.Refusal.toError s) := by
  rw [compilePattern]
  split <;> simp [*, Except.mapError, Pattern.Refusal.toError]

theorem compilePattern_fault_iff {value : Value} {f : Fault} : compilePattern value = .error (.fault f) ↔
    ∃ s, value = .string s ∧ Pattern.Engine.read s = .error (.fault f) := by
  unfold compilePattern
  split
  next s =>
    cases hread : Pattern.Engine.read s with
    | ok pattern => simp [hread]
    | error refusal => cases refusal <;> simp [hread]
  case h_6 htext _ _ _ _ => exact ⟨nofun, fun ⟨s, hs, _⟩ => (htext s hs).elim⟩
  all_goals simp

/-- The engine refuses the text under `pattern`, with this error. -/
def RefusesPattern (schema : Entries) (e : CompileError) : Prop :=
  ∃ s refusal, Entries.get? schema "pattern" = some (.string s) ∧ Pattern.Engine.read s = .error refusal ∧
    e = Pattern.Refusal.toError s refusal

/-- The engine ends with a fault, which is this error, over a text that names members by a pattern. A text that it calls
malformed is left out instead. -/
def StopsAtName (names : Entries) (e : CompileError) : Prop :=
  ∃ s f, Value.string s ∈ names.map Prod.fst ∧ Pattern.Engine.read s = .error (.fault f) ∧ e = .fault f

theorem stopsAtName_cons (entry : Value × Value) (names : Entries) (e : CompileError) : StopsAtName (entry :: names) e ↔
    (∃ f, compilePattern entry.1 = .error (.fault f) ∧ e = .fault f) ∨ StopsAtName names e := by
  simp only [StopsAtName, compilePattern_fault_iff, List.map_cons, List.mem_cons]
  grind

/-! ## Reach -/

/-- The mapping under a keyword, if there is one. -/
def mappingUnder (schema : Entries) (keyword : String) : List Value :=
  match Entries.get? schema keyword with
  | some (.dict entries) => [.dict entries]
  | _ => []

/-- The items of the list under a keyword, if there is one. -/
def itemsUnder (schema : Entries) (keyword : String) : List Value :=
  ((Entries.get? schema keyword).bind Value.items?).getD []

/-- The sub-schemas of a list of positional items, and of those beyond. -/
def positionSchemas (schema : Entries) : List Value :=
  match Entries.get? schema "items" with
  | some (.list items) => items ++ mappingUnder schema "additionalItems"
  | _ => []

/-- The sub-schema of all items. -/
def elementSchemas (schema : Entries) : List Value :=
  if Entries.has schema "prefixItems" then [] else mappingUnder schema "items"

/-- The sub-schemas of declared members, and of all others. -/
def memberSchemas (schema : Entries) : List Value :=
  (declaredMembers schema).map Prod.snd ++
    if Entries.has schema "patternProperties" then [] else mappingUnder schema "additionalProperties"

/-- The entries under `patternProperties`. -/
def patternEntries (schema : Entries) : Entries :=
  ((Entries.get? schema "patternProperties").bind Value.entries?).getD []

/-- The sub-schemas under patterns that are read. -/
def patternSchemas (entries : Entries) : List Value :=
  (entries.filter fun e => (compilePattern e.1).toBool).map Prod.snd

/-- The sub-schemas that a refinement compiles, whatever kinds are admitted. -/
def Refinement.schemas (schema : Entries) : Refinement → List Value
  | .allOf => itemsUnder schema "allOf"
  | .anyOf => itemsUnder schema "anyOf"
  | .oneOf => itemsUnder schema "oneOf"
  | .prefixItems =>
    match (Entries.get? schema "prefixItems").bind Value.items? with
    | some items => items ++ mappingUnder schema "items"
    | none => []
  | .contains => (Entries.get? schema "contains").toList
  | .patternProperties =>
    match (Entries.get? schema "patternProperties").bind Value.entries? with
    | some entries => patternSchemas entries ++ mappingUnder schema "additionalProperties"
    | none => []
  | .not => (Entries.get? schema "not").toList
  | _ => []

/-- The sub-schemas that compilation reaches from a mapping of keywords. -/
def reachedSchemas (schema : Entries) : List Value :=
  Refinement.all.flatMap (Refinement.schemas schema) ++
    (if admitsKind schema .array then positionSchemas schema ++ elementSchemas schema else []) ++
    (if admitsKind schema .object then memberSchemas schema else [])

/-- The mappings of keywords that compilation reaches from a schema. -/
inductive Reaches : Value → Entries → Prop
  | here {schema : Entries} : Reaches (.dict schema) schema
  | through {schema node : Entries} {s : Value} (hs : s ∈ reachedSchemas schema) (h : Reaches s node) :
      Reaches (.dict schema) node

/-- A mapping of keywords admits texts and has a pattern that is refused, or a pattern that names members ends with a
fault. -/
def FailsOnPattern (schema : Entries) (e : CompileError) : Prop :=
  (admitsKind schema .string = true ∧ RefusesPattern schema e) ∨ StopsAtName (patternEntries schema) e

end

/-! ## First phase -/

section

variable {schema : Entries} {bad : Value → CompileError → Prop} {convert : Value → Except CompileError Validator}

/-- When a rule fails, given the kinds that are disabled when it is read. -/
def KindRule.Trips [Pattern.Engine] (schema : Entries) (bad : Value → CompileError → Prop) (blocked : Kind → Bool) :
    KindRule → CompileError → Prop
  | .pattern, e => blocked .string = false ∧ RefusesPattern schema e
  | .tuple, e => blocked .array = false ∧ ∃ s ∈ positionSchemas schema, bad s e
  | .items, e => blocked .array = false ∧ ∃ s ∈ elementSchemas schema, bad s e
  | .properties, e => blocked .object = false ∧ ∃ s ∈ memberSchemas schema, bad s e
  | _, _ => False

/-- When some of several rules fails, each with the kinds that the rules before it bar. -/
def KindRule.AnyTrips [Pattern.Engine] (schema : Entries) (bad : Value → CompileError → Prop) :
    List KindRule → (Kind → Bool) → CompileError → Prop
  | [], _, _ => False
  | rule :: rules, blocked, e =>
    rule.Trips schema bad blocked e ∨ AnyTrips schema bad rules (fun kind => blocked kind || rule.bars schema kind) e

theorem fails_patternSteps [Pattern.Engine] (hshapes : HasShapes schema) (slots : Admissibility) :
    Fails (fun e => (slots .string).isDisabled = false ∧ RefusesPattern schema e)
      (patternSteps (m := Except CompileError) slots schema) := by
  unfold patternSteps
  cases hget : Entries.get? schema "pattern" with
  | none => exact (Fails.pure _).iff (by simp [RefusesPattern, hget])
  | some value =>
    obtain ⟨s, rfl⟩ := text_of_isString (hshapes.admits .text hget (by decide))
    dsimp only
    cases (slots .string).isDisabled with
    | true => exact (Fails.pure _).iff (by simp)
    | false =>
      rw [compilePattern_string]
      cases hread : Pattern.Engine.read s with
      | error refusal =>
        exact ⟨fun e he => ⟨rfl, s, refusal, hget, hread, (Except.error.inj he).symm⟩, fun _ _ => ⟨_, rfl⟩⟩
      | ok pattern => exact (Fails.pure _).iff (by simp [RefusesPattern, hget, hread])

section

variable (hschema : (Value.dict schema).isWritable = true)
include hschema

theorem fails_constSteps : Fails (fun _ => False) (constSteps (m := Except CompileError) (fun _ => .ok ()) schema) := by
  unfold constSteps
  cases hget : Entries.get? schema "const" with
  | none => exact .pure _
  | some value =>
    dsimp only
    cases value.literalKind with
    | none =>
      exact .after (.quoted (isWritable_get? hschema hget)) fun text _ => .after (.ok _) fun _ _ => .pure _
    | some kind => exact .pure _

theorem fails_lengthSteps (slots : Admissibility) (keyword : String) (relation : Relation) (words : String) :
    Fails (fun _ => False) (lengthSteps (m := Except CompileError) slots schema keyword relation words) := by
  unfold lengthSteps
  cases hget : Entries.get? schema keyword with
  | none => exact .pure _
  | some limit =>
    dsimp only
    split
    · exact .pure _
    · exact .after (.plain (isWritable_get? hschema hget)) fun text _ => .pure _

omit hschema in
theorem fails_boundSteps (slots : Admissibility) {limit : Value} (hlimit : limit.isWritable = true) (test : Test)
    (words : String) : Fails (fun _ => False) (boundSteps (m := Except CompileError) slots limit test words) := by
  unfold boundSteps
  split
  · exact .pure _
  · exact .after (.plain hlimit) fun text _ => .pure _

theorem fails_rangeSteps (slots : Admissibility) (keyword exclusive : String) (inclusive strict : Relation)
    (inclusiveWords strictWords : String) :
    Fails (fun _ => False) (rangeSteps (m := Except CompileError) slots schema keyword exclusive inclusive strict
      inclusiveWords strictWords) := by
  unfold rangeSteps
  cases hget : Entries.get? schema keyword with
  | none => exact .pure _
  | some limit =>
    have hlimit := isWritable_get? hschema hget
    dsimp only
    split
    · exact .pure _
    split
    · exact fails_boundSteps slots hlimit _ _
    · exact fails_boundSteps slots hlimit _ _

theorem fails_exclusiveSteps (slots : Admissibility) (keyword : String) (relation : Relation) (words : String) :
    Fails (fun _ => False) (exclusiveSteps (m := Except CompileError) slots schema keyword relation words) := by
  unfold exclusiveSteps
  cases hget : Entries.get? schema keyword with
  | none => exact .pure _
  | some limit =>
    dsimp only
    split
    · exact fails_boundSteps slots (isWritable_get? hschema hget) _ _
    · exact .pure _

theorem fails_multipleSteps (slots : Admissibility) :
    Fails (fun _ => False) (multipleSteps (m := Except CompileError) slots schema) := by
  unfold multipleSteps
  cases hget : Entries.get? schema "multipleOf" with
  | none => exact .pure _
  | some limit =>
    dsimp only
    split
    · exact fails_boundSteps slots (isWritable_get? hschema hget) _ _
    · exact .pure _

end

/-! ### Rules with sub-schemas -/

theorem isImpossible_answers {bounds : Bounds} (h : bounds.Each IsLimit) (size : Nat) :
    ∃ b, isImpossible size bounds = .ok b := by
  have hsize := Value.isOrdered_int size
  obtain ⟨least, most⟩ := bounds
  have hmost : ∃ b, isImpossible size ⟨none, most⟩ = .ok b := by
    cases most with
    | none => exact ⟨false, rfl⟩
    | some most => exact (h.most most rfl).ordered.related hsize .less
  cases least with
  | none => exact hmost
  | some least =>
    obtain ⟨b, hb⟩ := (h.least least rfl).ordered.related hsize .greater
    show ∃ b, (Value.related .greater least (.int size) >>= _) = .ok b
    rw [hb]
    cases b with
    | true => exact ⟨true, rfl⟩
    | false => exact hmost

theorem plainOrNone_answers {limit : Option Value} (h : ∀ value, limit = some value → IsLimit value) :
    ∃ text, plainOrNone limit = .ok text := by
  cases limit with
  | none => exact ⟨_, rfl⟩
  | some value => exact (Decides.answers_plain fun _ : True => (h value rfl).writable).returns trivial

section

variable (hsub : ∀ s ∈ subSchemas schema, Fails (bad s) (convert s))
include hsub

omit hsub in
theorem mappingUnder_eq_nil {keyword : String}
    (h : ∀ entries, Entries.get? schema keyword = some (.dict entries) → False) : mappingUnder schema keyword = [] := by
  unfold mappingUnder
  split
  next entries hget => exact (h entries hget).elim
  next => rfl

/-- The mapping under a keyword is compiled where there is one. -/
theorem fails_mappingUnder (shape : KeywordShape) {keyword : String} (hkeyword : (keyword, shape) ∈ keywordShapes)
    (hself : ∀ entries, Value.dict entries ∈ shape.subSchemas (.dict entries)) {entries : Entries}
    (hget : Entries.get? schema keyword = some (.dict entries)) :
    Fails (fun e => ∃ s ∈ mappingUnder schema keyword, bad s e) (convert (.dict entries)) :=
  (hsub _ (mem_subSchemas shape hget hkeyword (hself entries))).iff (by simp [mappingUnder, hget])

theorem fails_restValidator :
    Fails (fun e => ∃ s ∈ mappingUnder schema "additionalItems", bad s e) (restValidator convert schema) := by
  unfold restValidator
  split
  next hget => exact (Fails.pure _).iff (by simp [mappingUnder, hget])
  next entries hget =>
    exact .before (fails_mappingUnder hsub .schema (by decide) (fun _ => List.mem_singleton.mpr rfl) hget) fun c _ => .pure _
  next hother => exact (Fails.pure _).iff (by simp [mappingUnder_eq_nil hother])

theorem fails_tupleSteps (hshapes : HasShapes schema) (hschema : (Value.dict schema).isWritable = true)
    (slots : Admissibility) :
    Fails (fun e => (slots .array).isDisabled = false ∧ ∃ s ∈ positionSchemas schema, bad s e)
      (tupleSteps (m := Except CompileError) (fun _ => .ok ()) convert slots schema) := by
  unfold tupleSteps
  split
  next items hget =>
    have hitems : Fails (fun e => ∃ s ∈ items, bad s e) (items.mapM convert) :=
      .mapM fun s hs => hsub s (mem_subSchemas .schemaOrSchemas hget (by decide) hs)
    have hbounds := (givenBounds_areCounts hshapes (by decide : ("minItems", KeywordShape.count) ∈ keywordShapes)
      (by decide : ("maxItems", KeywordShape.count) ∈ keywordShapes) fun _ : True => hschema).mono fun _ => IsCount.isLimit
    split
    next hdisabled => exact (Fails.pure _).iff (by simp [hdisabled])
    next henabled =>
      refine (Fails.bind hitems fun positional _ => .before (fails_restValidator hsub) fun rest _ => ?_).iff (by
        simp [positionSchemas, hget, henabled, or_and_right, exists_or])
      split
      · refine .after (.orError (isImpossible_answers hbounds _)) fun impossible _ => ?_
        cases impossible with
        | false => exact .ok _
        | true =>
          exact .after (.orError (plainOrNone_answers hbounds.least)) fun least _ =>
            .after (.orError (plainOrNone_answers hbounds.most)) fun most _ => .after (.ok _) fun _ _ => .ok _
      · exact .ok _
  next hother =>
    refine (Fails.pure _).iff ?_
    have hnone : positionSchemas schema = [] := by
      unfold positionSchemas
      split
      next items hget => exact (hother items hget).elim
      next => rfl
    simp [hnone]

theorem fails_itemsSteps (slots : Admissibility) :
    Fails (fun e => (slots .array).isDisabled = false ∧ ∃ s ∈ elementSchemas schema, bad s e)
      (itemsSteps convert slots schema) := by
  have hnone : (∀ entries, Entries.get? schema "items" = some (.dict entries) → False) → elementSchemas schema = [] := by
    intro hother
    unfold elementSchemas
    rw [mappingUnder_eq_nil hother]
    split <;> rfl
  unfold itemsSteps
  split
  next hdisabled => exact (Fails.pure _).iff (by simp [hdisabled])
  next henabled =>
    dsimp only
    split
    next hget => exact (Fails.pure _).iff (by simp [hnone (by simp [hget])])
    next hget => exact (Fails.pure _).iff (by simp [hnone (by simp [hget])])
    next hget => split <;> exact (Fails.pure _).iff (by simp [hnone (by simp [hget])])
    next entries hget =>
      split
      next hpositions => exact (Fails.pure _).iff (by simp [elementSchemas, hpositions])
      next hpositions =>
        have hentries := fails_mappingUnder hsub .schemaOrSchemas (by decide) (fun _ => List.mem_singleton.mpr rfl) hget
        exact (Fails.before hentries fun c _ => .pure _).iff (by simp [elementSchemas, hpositions, henabled])
    next value _ _ hother hget =>
      exact (Fails.pure _).iff (by simp [hnone fun entries h => hother entries (Option.some.inj (hget.symm.trans h))])

theorem fails_additionalPolicy :
    Fails (fun e => ∃ s ∈ if Entries.has schema "patternProperties" then [] else
        mappingUnder schema "additionalProperties", bad s e) (additionalPolicy convert schema) := by
  unfold additionalPolicy
  split
  · exact (Fails.pure _).iff (by simp)
  · split
    next hget => exact (Fails.pure _).iff (by simp [mappingUnder, hget])
    next entries hget =>
      exact .before (fails_mappingUnder hsub .schema (by decide) (fun _ => List.mem_singleton.mpr rfl) hget) fun c _ => .pure _
    next hother => exact (Fails.pure _).iff (by simp [mappingUnder_eq_nil hother])

omit hsub in
theorem fails_propertyFields (required : List String) {properties : Entries}
    (h : ∀ e ∈ properties, Fails (bad e.2) (convert e.2)) :
    Fails (fun e => ∃ s ∈ properties.map Prod.snd, bad s e) (propertyFields convert required properties) := by
  induction properties with
  | nil => exact (Fails.pure _).iff (by simp)
  | cons e es ih =>
    obtain ⟨hfirst, hrest⟩ := List.forall_mem_cons.mp h
    rw [propertyFields]
    exact (Fails.bind hfirst fun c _ => .before (ih hrest) fun fields _ => .pure _).iff (by simp)

theorem fails_propertiesSteps (slots : Admissibility) :
    Fails (fun e => (slots .object).isDisabled = false ∧ ∃ s ∈ memberSchemas schema, bad s e)
      (propertiesSteps convert slots schema) := by
  have hproperties : ∀ e ∈ declaredMembers schema, Fails (bad e.2) (convert e.2) := fun e he =>
    hsub e.2 (mem_subSchemas_of_entries "properties" (by decide) he)
  unfold propertiesSteps
  split
  next hdisabled => exact (Fails.pure _).iff (by simp [hdisabled])
  next henabled =>
    split
    next hunread =>
      have hmembers : memberSchemas schema = [] := by
        simp only [Entries.hasAny, List.any_cons, List.any_nil, Bool.or_false, Bool.not_eq_true', Bool.or_eq_false_iff,
          Entries.has_eq_false_iff] at hunread
        simp [memberSchemas, declaredMembers, mappingUnder, hunread]
      exact (Fails.pure _).iff (by simp [hmembers])
    next =>
      refine (Fails.bind (fails_propertyFields _ hproperties) fun fields _ =>
        .before (fails_additionalPolicy hsub) fun additional _ => .pure _).iff fun e => ?_
      rw [Bool.not_eq_true] at henabled
      simp only [henabled, true_and, memberSchemas, List.mem_append, or_and_right, exists_or, declaredMembers]

/-- **A rule fails** where it meets a malformed pattern or a sub-schema that fails. -/
theorem steps_fails [Pattern.Engine] (hshapes : HasShapes schema) (hschema : (Value.dict schema).isWritable = true)
    {slots : Admissibility} {blocked : Kind → Bool}
    (hblocked : ∀ kind : Kind, kind.isTracked = true → (slots kind).isDisabled = blocked kind) (rule : KindRule) :
    Fails (rule.Trips schema bad blocked) (rule.steps (m := Except CompileError) (fun _ => .ok ()) convert slots schema) := by
  cases rule with
  | pattern => exact (fails_patternSteps hshapes slots).iff fun e => by rw [hblocked _ rfl]; rfl
  | tuple => exact (fails_tupleSteps hsub hshapes hschema slots).iff fun e => by rw [hblocked _ rfl]; rfl
  | items => exact (fails_itemsSteps hsub slots).iff fun e => by rw [hblocked _ rfl]; rfl
  | properties => exact (fails_propertiesSteps hsub slots).iff fun e => by rw [hblocked _ rfl]; rfl
  | const => exact fails_constSteps hschema
  | minLength | maxLength => exact fails_lengthSteps hschema slots _ _ _
  | minimum | maximum => exact fails_rangeSteps hschema slots _ _ _ _ _ _
  | exclusiveMinimum | exclusiveMaximum => exact fails_exclusiveSteps hschema slots _ _ _
  | multipleOf => exact fails_multipleSteps hschema slots
  | _ => exact .pure _

theorem KindRule.runAll_fails [Pattern.Engine] (hshapes : HasShapes schema)
    (hschema : (Value.dict schema).isWritable = true) (rules : List KindRule) {slots : Admissibility}
    {blocked : Kind → Bool} (hblocked : ∀ kind : Kind, kind.isTracked = true → (slots kind).isDisabled = blocked kind) :
    Fails (KindRule.AnyTrips schema bad rules blocked)
      (KindRule.runAll (m := Except CompileError) (fun _ => .ok ()) convert schema rules slots) := by
  induction rules generalizing slots blocked with
  | nil => exact .pure _
  | cons rule rules ih =>
    refine .bind (steps_fails hsub hshapes hschema hblocked rule) fun steps hsteps => ih fun kind hkind => ?_
    rw [(steps_disable hkind rule).meets steps hsteps, hblocked kind hkind]

end

/-- **The first phase fails** over a refused pattern where texts are admitted, and over the sub-schemas of arrays and
objects where these are. -/
theorem KindRule.anyTrips_all [Pattern.Engine] {e : CompileError} :
    KindRule.AnyTrips schema bad KindRule.all (fun _ => false) e ↔
    (admitsKind schema .string = true ∧ RefusesPattern schema e) ∨
      (admitsKind schema .array = true ∧ ∃ s ∈ positionSchemas schema ++ elementSchemas schema, bad s e) ∨
      (admitsKind schema .object = true ∧ ∃ s ∈ memberSchemas schema, bad s e) := by
  have hadmits : ∀ kind : Kind, (!constAdmits schema kind || !enumAdmits schema kind || !typeAdmits schema kind ||
      (kind == .string && isBinary schema)) = !admitsKind schema kind := by
    intro kind
    unfold admitsKind
    cases typeAdmits schema kind <;> cases constAdmits schema kind <;> cases enumAdmits schema kind <;> simp
  have helements : (∃ s ∈ elementSchemas schema, bad s e) → KindRule.tuple.bars schema .array = false := by
    rintro ⟨s, hs, _⟩
    unfold elementSchemas mappingUnder at hs
    unfold KindRule.bars
    cases hget : Entries.get? schema "items" with
    | none => rfl
    | some value =>
      cases value with
      | list items => simp [hget] at hs
      | _ => rfl
  simp only [KindRule.AnyTrips, KindRule.all, KindRule.Trips, KindRule.bars, Bool.false_or, Bool.or_false, false_or, or_false,
    hadmits, Bool.not_eq_false', List.mem_append, or_and_right, exists_or, and_or_left, or_assoc]
  refine or_congr .rfl (or_congr .rfl (or_congr (and_congr_left fun hsome => ?_) (and_congr_left fun _ => ?_)))
  · have hpositions : (Kind.array == Kind.array &&
        (Entries.get? schema "items").any fun items => items.items?.isSome) = false := helements hsome
    rw [hpositions, Bool.or_false, Bool.not_eq_false']
  · rw [show (Kind.object == Kind.array) = false from rfl, Bool.false_and, Bool.or_false, Bool.not_eq_false']

/-! ## Second phase -/

section

variable [Pattern.Engine] (hsub : ∀ s ∈ subSchemas schema, Fails (bad s) (convert s))
include hsub

omit [Pattern.Engine] in
theorem fails_branches {keyword : String} (hkeyword : (keyword, KeywordShape.schemas) ∈ keywordShapes) :
    Fails (fun e => ∃ s ∈ itemsUnder schema keyword, bad s e) (branches convert schema keyword) := by
  unfold branches itemsUnder
  split
  next items hitems =>
    rw [hitems]
    exact .mapM fun s hs => hsub s (mem_subSchemas_of_items hkeyword hitems hs)
  next hnone => exact (Fails.pure _).iff (by simp [hnone])

omit [Pattern.Engine] in
theorem fails_leftOver (shape : KeywordShape) {keyword : String} (hkeyword : (keyword, shape) ∈ keywordShapes)
    (hself : ∀ entries, Value.dict entries ∈ shape.subSchemas (.dict entries)) :
    Fails (fun e => ∃ s ∈ mappingUnder schema keyword, bad s e) (leftOver convert schema keyword) := by
  unfold leftOver
  split
  next hget => exact (Fails.pure _).iff (by simp [mappingUnder, hget])
  next entries hget => exact .before (fails_mappingUnder hsub shape hkeyword hself hget) fun c _ => .pure _
  next hother => exact (Fails.pure _).iff (by simp [mappingUnder_eq_nil hother])

omit hsub in
theorem fails_patternRules {entries : Entries} (h : ∀ e ∈ entries, Fails (bad e.2) (convert e.2)) :
    Fails (fun e => StopsAtName entries e ∨ ∃ s ∈ patternSchemas entries, bad s e)
      (patternRules (m := Except CompileError) (fun _ => .ok ()) convert entries) := by
  induction entries with
  | nil => exact (Fails.pure _).iff (by simp [patternSchemas, StopsAtName])
  | cons entry es ih =>
    obtain ⟨hfirst, hrest⟩ := List.forall_mem_cons.mp h
    rw [patternRules]
    have hstops := stopsAtName_cons entry es
    cases hpattern : compilePattern entry.1 with
    | error cause =>
      cases cause with
      | fault f =>
        have hhere : StopsAtName (entry :: es) (.fault f) := (hstops _).mpr (.inl ⟨f, hpattern, rfl⟩)
        exact ⟨fun e he => .inl (Except.error.inj he ▸ hhere), fun _ _ => ⟨_, rfl⟩⟩
      | _ => exact (Fails.after (.ok _) fun _ _ => ih hrest).iff (by simp [patternSchemas, hstops, hpattern, Except.toBool])
    | ok pattern =>
      refine (Fails.bind hfirst fun c _ => .before (ih hrest) fun rules _ => .pure _).iff fun e => ?_
      simp only [patternSchemas, hstops, hpattern, Except.toBool, List.filter_cons, if_true, List.map_cons,
        List.exists_mem_cons_iff]
      grind

theorem fails_prefixItems (vd : Validator) :
    Fails (fun e => ∃ s ∈ Refinement.prefixItems.schemas schema, bad s e) (prefixItems? convert vd schema) := by
  rw [Refinement.schemas]
  unfold prefixItems?
  cases hitems : (Entries.get? schema "prefixItems").bind Value.items? with
  | none => exact (Fails.pure _).iff (by simp)
  | some items =>
    have hpositions : Fails (fun e => ∃ s ∈ items, bad s e) (items.mapM convert) :=
      .mapM fun s hs => hsub s (mem_subSchemas_of_items (by decide) hitems hs)
    have hextra := fails_leftOver hsub .schemaOrSchemas (by decide : ("items", _) ∈ keywordShapes)
      fun _ => List.mem_singleton.mpr rfl
    refine (Fails.bind hpositions fun positional _ => .before hextra fun extra _ => .pure _).iff fun e => ?_
    simp only [List.mem_append, or_and_right, exists_or]

theorem fails_contains (vd : Validator) :
    Fails (fun e => ∃ s ∈ Refinement.contains.schemas schema, bad s e) (contains? convert vd schema) := by
  rw [Refinement.schemas]
  unfold contains?
  cases hget : Entries.get? schema "contains" with
  | none => exact (Fails.pure _).iff (by simp)
  | some item =>
    have hitem := hsub item (mem_subSchemas .schema hget (by decide) (List.mem_singleton.mpr rfl))
    exact (Fails.before hitem fun c _ => .pure _).iff (by simp)

theorem fails_patternProperties (vd : Validator) :
    Fails (fun e => StopsAtName (patternEntries schema) e ∨ ∃ s ∈ Refinement.patternProperties.schemas schema, bad s e)
      (patternProperties? (fun _ => .ok ()) convert vd schema) := by
  rw [Refinement.schemas]
  unfold patternProperties?
  cases hentries : (Entries.get? schema "patternProperties").bind Value.entries? with
  | none => exact (Fails.pure _).iff (by simp [patternEntries, hentries, StopsAtName])
  | some entries =>
    have heach : ∀ e ∈ entries, Fails (bad e.2) (convert e.2) := fun e he =>
      hsub e.2 (mem_subSchemas_of_entries "patternProperties" (by decide) (by rw [hentries]; exact he))
    have hothers := fails_leftOver hsub .schema (by decide : ("additionalProperties", _) ∈ keywordShapes)
      fun _ => List.mem_singleton.mpr rfl
    refine (Fails.bind (fails_patternRules heach) fun rules _ => .before hothers fun others _ => .pure _).iff fun e => ?_
    simp only [patternEntries, hentries, Option.getD_some, List.mem_append, or_and_right, exists_or, or_assoc]

theorem fails_not (vd : Validator) :
    Fails (fun e => ∃ s ∈ Refinement.not.schemas schema, bad s e) (not? convert vd schema) := by
  rw [Refinement.schemas]
  unfold not?
  cases hget : Entries.get? schema "not" with
  | none => exact (Fails.pure _).iff (by simp)
  | some negated =>
    have hnegated := hsub negated (mem_subSchemas .schema hget (by decide) (List.mem_singleton.mpr rfl))
    exact (Fails.before hnegated fun c _ => .pure _).iff (by simp)

omit hsub [Pattern.Engine] in
/-- A default is tried while the schema is compiled, and the validator answers about it. -/
theorem fails_default (hschema : (Value.dict schema).isWritable = true) {vd : Validator}
    (hvd : Throughout (IsRegular True False) vd) :
    Fails (fun _ => False) (default? (m := Except CompileError) (fun _ => .ok ()) vd schema) := by
  unfold default?
  cases hget : Entries.get? schema "default" with
  | none => exact .pure _
  | some value =>
    have hvalue := isWritable_get? hschema hget
    have haccepts : ∃ b, vd.accepts value = .ok b :=
      (accepts_answers (answers_regular hvd value [] hvalue)).returns trivial
    refine .after (.orError haccepts) fun accepted _ => ?_
    cases accepted with
    | true => exact .pure _
    | false =>
      exact .after (.quoted hvalue) fun text _ => .after (.ok _) fun _ _ => .pure _

/-- **A refinement fails** over the sub-schemas that it compiles, and over patterns that name members. -/
theorem apply?_fails (hschema : (Value.dict schema).isWritable = true) {vd : Validator}
    (hvd : Throughout (IsRegular True False) vd) (refinement : Refinement) :
    Fails (fun e => (refinement = .patternProperties ∧ StopsAtName (patternEntries schema) e) ∨
        ∃ s ∈ refinement.schemas schema, bad s e)
      ( refinement.apply? (m := Except CompileError) (fun _ => .ok ()) convert vd schema) := by
  have hother (hne : refinement ≠ .patternProperties) {x : Except CompileError (Option Validator)}
      (h : Fails (fun e => ∃ s ∈ refinement.schemas schema, bad s e) x) :
      Fails (fun e => (refinement = .patternProperties ∧ StopsAtName (patternEntries schema) e) ∨
        ∃ s ∈ refinement.schemas schema, bad s e) x :=
    h.iff fun e => by simp only [hne, false_and, false_or]
  cases refinement with
  | allOf => exact hother nofun (.before (fails_branches hsub (by decide)) fun all _ => .pure _)
  | anyOf | oneOf => exact hother nofun (.before (fails_branches hsub (by decide)) fun options _ => .pure _)
  | prefixItems => exact hother nofun (fails_prefixItems hsub vd)
  | contains => exact hother nofun (fails_contains hsub vd)
  | patternProperties => exact (fails_patternProperties hsub vd).iff fun e => by simp only [true_and]
  | not => exact hother nofun (fails_not hsub vd)
  | default => exact hother nofun ((fails_default hschema hvd).iff (by simp [Refinement.schemas]))
  | _ => exact hother nofun ((Fails.pure _).iff (by simp [Refinement.schemas]))

/-- **The second phase fails** over the sub-schemas of its refinements, whatever kinds are admitted, and over patterns that
name members. -/
theorem Refinement.runAll_fails (hshapes : HasShapes schema) (hschema : (Value.dict schema).isWritable = true)
    (hregular : ∀ s ∈ subSchemas schema, ∀ c, convert s = .ok c → Throughout (IsRegular True False) c)
    (refinements : List Refinement) {vd : Validator} (hvd : Throughout (IsRegular True False) vd) :
    Fails (fun e => (.patternProperties ∈ refinements ∧ StopsAtName (patternEntries schema) e) ∨
        ∃ s ∈ refinements.flatMap (Refinement.schemas schema), bad s e)
      (Refinement.runAll (fun _ => .ok ()) convert schema refinements vd) := by
  induction refinements generalizing vd with
  | nil => exact (Fails.pure _).iff (by simp)
  | cons refinement rest ih =>
    have hnode := (Demands.regular_metBy hshapes (fun _ : True => hschema) False.elim).keepsNode Demands.regular_coherent
    rw [Refinement.runAll]
    refine (Fails.bind (apply?_fails hsub hschema hvd refinement) fun w hw => ih ?_).iff fun e => ?_
    · cases w with
      | none => exact hvd
      | some c => exact (keeps_refinement hnode.refinements hregular hvd refinement).meets _ hw c rfl
    · simp only [List.flatMap_cons, List.mem_append, List.mem_cons, or_and_right, exists_or,
        eq_comm (a := refinement) (b := .patternProperties)]
      grind

/-! ## Compilation -/

/-- **A mapping of keywords fails** over a pattern in it that is refused, or over a sub-schema that it reaches. -/
theorem compileNode_fails (hshapes : HasShapes schema) (hschema : (Value.dict schema).isWritable = true)
    (hregular : ∀ s ∈ subSchemas schema, ∀ c, convert s = .ok c → Throughout (IsRegular True False) c) :
    Fails (fun e => FailsOnPattern schema e ∨ ∃ s ∈ reachedSchemas schema, bad s e)
      (compileNode (fun _ => .ok ()) convert schema) := by
  have hnode := (Demands.regular_metBy hshapes (fun _ : True => hschema) False.elim).keepsNode Demands.regular_coherent
  have hinitial : ∀ kind : Kind, kind.isTracked = true → (Admissibility.initial kind).isDisabled = (fun _ => false) kind := by
    intro kind hkind
    cases kind <;> rfl
  have hfirst := KindRule.runAll_fails hsub hshapes hschema KindRule.all hinitial
  have hsecond : ∀ slots, KindRule.runAll (fun _ => .ok ()) convert schema KindRule.all .initial = .ok slots →
      Fails (fun e => (.patternProperties ∈ Refinement.all ∧ StopsAtName (patternEntries schema) e) ∨
          ∃ s ∈ Refinement.all.flatMap (Refinement.schemas schema), bad s e)
        (Refinement.runAll (fun _ => .ok ()) convert schema Refinement.all (slots.assemble schema)) := by
    intro slots hrun
    have hassembled : Throughout (IsRegular True False) (slots.assemble schema) := (hnode.assembled hregular).meets slots hrun
    exact Refinement.runAll_fails hsub hshapes hschema hregular Refinement.all hassembled
  refine (Fails.bind hfirst hsecond).iff fun e => ?_
  have hmem : Refinement.patternProperties ∈ Refinement.all := by decide
  rw [KindRule.anyTrips_all]
  unfold reachedSchemas FailsOnPattern
  simp only [hmem, true_and]
  cases admitsKind schema .array <;> cases admitsKind schema .object <;>
    simp only [List.mem_append, if_true, if_false, Bool.false_eq_true, true_and, false_and, List.not_mem_nil, or_and_right,
      exists_or, or_false, false_or, or_assoc, or_comm, or_left_comm]

end

end

theorem not_reaches_bool [Pattern.Engine] {b : Bool} {node : Entries} : ¬ Reaches (.bool b) node := nofun

theorem reaches_dict [Pattern.Engine] {schema node : Entries} :
    Reaches (.dict schema) node ↔ node = schema ∨ ∃ s ∈ reachedSchemas schema, Reaches s node := by
  constructor
  · rintro (_ | ⟨hs, h⟩)
    · exact .inl rfl
    · exact .inr ⟨_, hs, h⟩
  · rintro (rfl | ⟨s, hs, h⟩)
    · exact .here
    · exact .through hs h

theorem compile_fails [Pattern.Engine] {schema : Value} (hschema : WellFormed schema)
    (hwritable : schema.isWritable = true) :
    Fails (fun e => ∃ node, Reaches schema node ∧ FailsOnPattern node e) (compile schema) := by
  obtain ⟨hisSchema, hshapes⟩ := hschema
  induction hshapes with
  | other noEntries =>
    rename_i schema
    cases schema with
    | bool b => exact (Fails.ok _).iff (by simp [not_reaches_bool])
    | dict entries => cases noEntries
    | _ => cases hisSchema
  | mapping hnode hinside ih =>
    rename_i schema
    have hformed : ∀ s ∈ subSchemas schema, WellFormed s := fun s hs => WellFormed.inside ⟨hisSchema, .mapping hnode hinside⟩ hs
    have hsub : ∀ s ∈ subSchemas schema, Fails (fun e => ∃ node, Reaches s node ∧ FailsOnPattern node e) (compile s) :=
      fun s hs => ih s hs (isWritable_of_mem_subSchemas hwritable hs) (hformed s hs).isSchema
    have hregular : ∀ s ∈ subSchemas schema, ∀ c, compile s = .ok c → Throughout (IsRegular True False) c :=
      fun s hs c hc => compile_regular hc (hinside s hs) (fun _ => isWritable_of_mem_subSchemas hwritable hs) False.elim
    rw [compile_dict]
    refine (compileNode_fails hsub hnode hwritable hregular).iff fun e => ?_
    simp only [reaches_dict, or_and_right, exists_or, exists_eq_left]
    grind

/-- **Exactly when compilation fails.** A well-formed schema whose integers can be written is not compiled if and only
if compilation reaches a mapping of keywords in which the engine refuses a pattern: one of texts where these are admitted,
whether malformed or not, or one of members with which the engine ends in a fault. The error is always that of such a
pattern, never constraints that exclude each other. -/
theorem compile_fails_iff [Pattern.Engine] {schema : Value} (hschema : WellFormed schema)
    (hwritable : schema.isWritable = true) :
    ((∃ e, compile schema = .error e) ↔ ∃ node e, Reaches schema node ∧ FailsOnPattern node e) ∧
      ∀ e, compile schema = .error e → ∃ node, Reaches schema node ∧ FailsOnPattern node e := by
  have h := compile_fails hschema hwritable
  refine ⟨⟨fun ⟨e, he⟩ => ?_, fun ⟨node, e, hreaches, hrefuses⟩ => h.fails e ⟨node, hreaches, hrefuses⟩⟩, h.cause⟩
  obtain ⟨node, hreaches, hrefuses⟩ := h.cause e he
  exact ⟨node, e, hreaches, hrefuses⟩

attribute [local instance] Pattern.engine

/-- A malformed pattern beside texts inside `allOf`. -/
theorem compile_fails_iff_allOf :
    let node : Entries := [(.string "type", .list [.string "null", .string "string"]), (.string "pattern", .string "(")]
    let schema := Value.dict [(.string "type", .string "integer"), (.string "allOf", .list [.dict node])]
    WellFormed schema ∧ schema.isWritable = true ∧ (∃ e, compile schema = .error e) ∧
      ∀ e, compile schema = .error e → ∃ node, Reaches schema node ∧ FailsOnPattern node e := by
  intro node schema
  have hnode : Everywhere HasShapes (.dict node) := .mapping (hasShapes_iff.mpr rfl) (List.forall_mem_nil _)
  have hschema : WellFormed schema := ⟨rfl, .mapping (hasShapes_iff.mpr rfl) (List.forall_mem_singleton.mpr hnode)⟩
  have hrefuses : FailsOnPattern node (.badPattern (.string "(") .malformed) :=
    .inl ⟨rfl, "(", .malformed, rfl, by with_unfolding_all rfl, rfl⟩
  have hreaches : Reaches schema node := .through (List.mem_cons_self : Value.dict node ∈ _) .here
  obtain ⟨hfails, hcause⟩ := compile_fails_iff hschema rfl
  exact ⟨hschema, rfl, hfails.mpr ⟨node, _, hreaches, hrefuses⟩, hcause⟩

/-- **Options that contradict each other**: the engine ends with a fault, which is not reported as a bad pattern. -/
theorem compile_stops_at_options :
    let schema := Value.dict [(.string "type", .string "string"), (.string "pattern", .string "(?au)a")]
    WellFormed schema ∧ schema.isWritable = true ∧ compile schema = .error (.fault .noValue) := by
  intro schema
  let entries : Entries := [(.string "type", .string "string"), (.string "pattern", .string "(?au)a")]
  have hschema : WellFormed schema := ⟨rfl, .mapping (hasShapes_iff.mpr rfl) (List.forall_mem_nil _)⟩
  have hscan : Pattern.rescan (Pattern.Options.letters.length + 3) "(?au)a".toList [] = .error (.fault .noValue) := by
    decide +kernel
  have hread : Pattern.read "(?au)a" = .error (.fault .noValue) := by rw [Pattern.read, hscan, Except.map]
  have hstops : FailsOnPattern entries (.fault .noValue) := .inl ⟨rfl, _, _, rfl, hread, rfl⟩
  obtain ⟨e, he⟩ := (compile_fails hschema rfl).fails _ ⟨entries, .here, hstops⟩
  obtain ⟨node, hreaches, hfails⟩ := (compile_fails hschema rfl).cause e he
  obtain rfl : node = entries := (reaches_dict.mp hreaches).resolve_right fun ⟨_, hs, _⟩ => List.not_mem_nil hs
  obtain ⟨-, s, refusal, hget, hrefused, rfl⟩ | ⟨_, _, hs, _⟩ := hfails
  · obtain rfl : "(?au)a" = s := Value.string.inj (Option.some.inj hget)
    obtain rfl : .fault .noValue = refusal := Except.error.inj (hread.symm.trans hrefused)
    exact ⟨hschema, rfl, he⟩
  · exact (List.not_mem_nil hs).elim

end Schemata
