import Schemata.Proofs.Schema.SubSchema
import Schemata.Proofs.Validator.Messages

/-!
# `Schemata.Proofs.Schema.Conditions` — keywords that put a condition on one kind

Many rules of the first phase do the same thing: they read one keyword, and refine the validator of one kind with a
condition unless that kind is disabled. Such a rule is known by the kind and by the condition that it reads.

## Contents
- **Conditions.** One function for every way of reading a keyword, and `KindRule.condition?`, which names the condition
  of each rule.
- **Suitability.** `HasOperands`, and `condition_suits`: the conditions suit the kinds. None has a validator in it.
- **Steps.** `Refines`, and `steps_refine`: the steps of these rules.
-/

namespace Schemata

/-! ## Conditions -/

/-- The condition of a bound on the length of texts. -/
def lengthTest (keyword : String) (relation : Relation) (schema : Entries) : Option Test :=
  (Entries.get? schema keyword).map (.characters relation)

/-- The condition of `pattern`; no text contains a match of what is no pattern. -/
def patternTest [Pattern.Engine] (schema : Entries) : Option Test :=
  (Entries.get? schema "pattern").map fun value => .found ((compilePattern value).toOption.getD default)

/-- The condition of `minimum` or `maximum`. -/
def rangeTest (keyword exclusive : String) (inclusive strict : Relation) (schema : Entries) : Option Test :=
  ((Entries.get? schema keyword).filter isBound).map
    (.compares (if isSetTrue schema exclusive then strict else inclusive))

/-- The condition of an exclusive bound of its own. -/
def exclusiveTest (keyword : String) (relation : Relation) (schema : Entries) : Option Test :=
  ((Entries.get? schema keyword).filter isBound).map (.compares relation)

/-- The condition of `multipleOf`. -/
def multipleTest (schema : Entries) : Option Test :=
  ((Entries.get? schema "multipleOf").filter isBound).map .multipleOf

/-- The kind on which a rule puts a condition, and the condition that it reads in a schema. -/
def KindRule.condition? [Pattern.Engine] : KindRule → Option (Kind × (Entries → Option Test))
  | .minLength => some (.string, lengthTest "minLength" .atLeast)
  | .maxLength => some (.string, lengthTest "maxLength" .atMost)
  | .pattern => some (.string, patternTest)
  | .minimum => some (.number, rangeTest "minimum" "exclusiveMinimum" .atLeast .greater)
  | .maximum => some (.number, rangeTest "maximum" "exclusiveMaximum" .atMost .less)
  | .exclusiveMinimum => some (.number, exclusiveTest "exclusiveMinimum" .greater)
  | .exclusiveMaximum => some (.number, exclusiveTest "exclusiveMaximum" .less)
  | .multipleOf => some (.number, multipleTest)
  | _ => none

/-! ## Suitability -/

/-- A mapping of keywords with operands for which validation is defined: limits can be compared with numbers, and
required names that are looked up are keys. Null is no limit, but some keywords are read without regard to that. -/
structure HasOperands (schema : Entries) : Prop where
  limit : ∀ keyword, (keyword, KeywordShape.count) ∈ keywordShapes → ∀ limit,
    Entries.given? schema keyword = some limit → limit.IsOrdered
  notNull : ∀ keyword ∈ ["minLength", "maxLength", "minContains"], Entries.get? schema keyword ≠ some .null
  required : ∀ names, Entries.get? schema "required" = some (.list names) →
    names.any (Value.isText "__proto__") = true → Entries.has schema "type" = false → ∀ name ∈ names, isKey name = true

theorem get?_of_given? {schema : Entries} {keyword : String} {v : Value} (h : Entries.given? schema keyword = some v) :
    Entries.get? schema keyword = some v := by
  unfold Entries.given? at h
  split at h
  · cases h
  · exact h

/-- What is read without regard to null. -/
theorem HasOperands.ordered {schema : Entries} (h : HasOperands schema) {keyword : String}
    (hkeyword : keyword ∈ ["minLength", "maxLength", "minContains"]) {limit : Value}
    (hget : Entries.get? schema keyword = some limit) : limit.IsOrdered := by
  have hshape : ∀ keyword ∈ ["minLength", "maxLength", "minContains"], (keyword, KeywordShape.count) ∈ keywordShapes := by
    decide
  refine h.limit keyword (hshape keyword hkeyword) limit ?_
  unfold Entries.given?
  split
  next hnull => exact absurd hnull (h.notNull keyword hkeyword)
  next => exact hget

theorem text_of_isString {name : Value} (h : name.isString = true) : ∃ s, name = .string s := by
  cases name with
  | string s => exact ⟨s, rfl⟩
  | _ => cases h

/-- The least number of items that `contains` asks for. -/
theorem HasOperands.minContains {schema : Entries} (h : HasOperands schema) :
    ((Entries.get? schema "minContains").getD (.int 1)).IsOrdered := by
  cases hget : Entries.get? schema "minContains" with
  | none => exact Value.isOrdered_int 1
  | some limit => exact h.ordered (by decide) hget

/-- Values that have their shapes are operands. -/
theorem HasShapes.operands {schema : Entries} (h : HasShapes schema) : HasOperands schema where
  limit := by
    intro keyword hkeyword limit hgiven
    obtain ⟨n, rfl⟩ := h.count (get?_of_given? hgiven) hkeyword
    exact Value.isOrdered_int n
  notNull := by
    intro keyword hkeyword hnull
    have hshape : ∀ keyword ∈ ["minLength", "maxLength", "minContains"], (keyword, KeywordShape.count) ∈ keywordShapes := by
      decide
    obtain ⟨n, hn⟩ := h.count hnull (hshape keyword hkeyword)
    cases hn
  required := by
    intro names hget _ _ name hname
    obtain ⟨s, rfl⟩ := text_of_isString (List.all_eq_true.mp (h.admits .texts hget (by decide)) name hname)
    rfl

theorem kind_of_isBound {w : Value} (h : isBound w = true) : w.kind = some .number := by
  cases w <;> first | rfl | cases h

/-- **The conditions of the first phase suit the kinds** on which they are put. -/
theorem condition_suits [Pattern.Engine] {sure : Prop} {schema : Entries} (hoperands : HasOperands schema)
    (hschema : sure → (Value.dict schema).isWritable = true) {rule : KindRule} {kind : Kind}
    {test? : Entries → Option Test} {test : Test} (hrule : rule.condition? = some (kind, test?))
    (htest : test? schema = some test) : test.Suits sure kind := by
  have hlength : ∀ {keyword relation}, keyword ∈ ["minLength", "maxLength", "minContains"] →
      lengthTest keyword relation schema = some test → test.Suits sure .string := by
    intro keyword relation hkeyword h
    obtain ⟨limit, hget, rfl⟩ := Option.map_eq_some_iff.mp h
    exact .characters relation (hoperands.ordered hkeyword hget)
  cases rule with
  | minLength | maxLength =>
    cases hrule
    exact hlength (by decide) htest
  | pattern =>
    cases hrule
    obtain ⟨value, _, rfl⟩ := Option.map_eq_some_iff.mp htest
    exact .found _
  | minimum | maximum | exclusiveMinimum | exclusiveMaximum =>
    cases hrule
    obtain ⟨limit, hlimit, rfl⟩ := Option.map_eq_some_iff.mp htest
    exact .compares _ (kind_of_isBound (Option.filter_eq_some_iff.mp hlimit).2)
  | multipleOf =>
    cases hrule
    obtain ⟨divisor, hdivisor, rfl⟩ := Option.map_eq_some_iff.mp htest
    obtain ⟨hget, hbound⟩ := Option.filter_eq_some_iff.mp hdivisor
    exact .multipleOf (kind_of_isBound hbound) fun hsure => isWritable_get? (hschema hsure) hget
  | _ => cases hrule

/-- The conditions of the first phase have no validators in them. -/
theorem condition_closed [Pattern.Engine] {schema : Entries} {rule : KindRule} {kind : Kind}
    {test? : Entries → Option Test} {test : Test} (hrule : rule.condition? = some (kind, test?))
    (htest : test? schema = some test) : test.validators = [] := by
  cases rule with
  | minLength | maxLength | pattern | minimum | maximum | exclusiveMinimum | exclusiveMaximum | multipleOf =>
    cases hrule
    obtain ⟨_, _, rfl⟩ := Option.map_eq_some_iff.mp htest
    rfl
  | _ => cases hrule

/-! ## Steps -/

/-- Steps that put a condition on a kind if there is one and the kind is not disabled. -/
def Refines (slots : Admissibility) (kind : Kind) (test? : Option Test) (steps : List Step) : Prop :=
  match test? with
  | none => steps = []
  | some test => ((slots kind).isDisabled = true ∧ steps = []) ∨
      ∃ message, test.ToldAs message ∧ steps = [.update kind fun vd => .refined vd test message]

/-- What is written of a value in a message is its plain form. -/
theorem answers_plain (v : Value) : Answers False (orError (m := Except CompileError) v.plain?) (· = v.plain) := by
  unfold orError
  split
  next text htext => exact .ok (Value.eq_plain htext)
  · exact .error not_false

section

variable (slots : Admissibility) (schema : Entries)

theorem lengthSteps_refine (keyword : String) (relation : Relation) {words : String} (hwords : Unbroken words) :
    Answers False (lengthSteps (m := Except CompileError) slots schema keyword relation words)
      (Refines slots .string (lengthTest keyword relation schema)) := by
  unfold lengthSteps lengthTest
  cases Entries.get? schema keyword with
  | none => exact .pure rfl
  | some limit =>
    dsimp only
    split
    next hdisabled => exact .pure (.inl ⟨hdisabled, rfl⟩)
    next =>
      refine .bind (answers_plain limit) ?_
      rintro _ rfl
      refine .pure (.inr ⟨_, .limit rfl (unbroken_append.mpr ⟨unbroken_append.mpr ⟨?_, hwords⟩, ?_⟩) ?_, rfl⟩) <;> decide

theorem patternSteps_refine [Pattern.Engine] :
    Answers False (patternSteps (m := Except CompileError) slots schema)
      (Refines slots .string (patternTest schema)) := by
  unfold patternSteps patternTest
  cases Entries.get? schema "pattern" with
  | none => exact .pure rfl
  | some value =>
    dsimp only
    split
    next hdisabled => exact .pure (.inl ⟨hdisabled, rfl⟩)
    next =>
      rw [Option.map_some]
      cases compilePattern value with
      | error e => exact .error not_false
      | ok pattern =>
        refine .pure (.inr ⟨_, .unbroken ?_, rfl⟩)
        exact unbroken_append.mpr ⟨by decide, value.unbroken_quoted⟩

theorem boundSteps_refine {limit : Value} (hlimit : isBound limit = true) (test : Test) {words : String}
    (hwords : Unbroken words) :
    Answers False (boundSteps (m := Except CompileError) slots limit test words)
      (Refines slots .number (some test)) := by
  unfold boundSteps
  split
  next hdisabled => exact .pure (.inl ⟨hdisabled, rfl⟩)
  next =>
    refine .bind (answers_plain limit) ?_
    rintro _ rfl
    have htext : Unbroken limit.plain := Value.unbroken_plain fun s hs => by rw [hs] at hlimit; cases hlimit
    exact .pure (.inr ⟨_, .unbroken (by simp [hwords, htext]; decide), rfl⟩)

theorem rangeSteps_refine (keyword exclusive : String) (inclusive strict : Relation)
    {inclusiveWords strictWords : String} (hinclusive : Unbroken inclusiveWords) (hstrict : Unbroken strictWords) :
    Answers False (rangeSteps (m := Except CompileError) slots schema keyword exclusive inclusive strict
      inclusiveWords strictWords) (Refines slots .number (rangeTest keyword exclusive inclusive strict schema)) := by
  unfold rangeSteps rangeTest
  cases Entries.get? schema keyword with
  | none => exact .pure rfl
  | some limit =>
    cases hbound : isBound limit with
    | false => simpa [Option.filter, hbound] using .pure rfl
    | true =>
      simp only [Option.filter_some, hbound, Bool.not_true, Bool.false_eq_true, if_false, if_true, Option.map_some]
      split
      · exact boundSteps_refine slots hbound _ hstrict
      · exact boundSteps_refine slots hbound _ hinclusive

theorem exclusiveSteps_refine (keyword : String) (relation : Relation) {words : String} (hwords : Unbroken words) :
    Answers False (exclusiveSteps (m := Except CompileError) slots schema keyword relation words)
      (Refines slots .number (exclusiveTest keyword relation schema)) := by
  unfold exclusiveSteps exclusiveTest
  cases Entries.get? schema keyword with
  | none => exact .pure rfl
  | some limit =>
    cases hbound : isBound limit with
    | false => simpa [Option.filter, hbound] using .pure rfl
    | true =>
      simp only [Option.filter_some, hbound, if_true, Option.map_some]
      exact boundSteps_refine slots hbound _ hwords

theorem multipleSteps_refine :
    Answers False (multipleSteps (m := Except CompileError) slots schema)
      (Refines slots .number (multipleTest schema)) := by
  unfold multipleSteps multipleTest
  cases Entries.get? schema "multipleOf" with
  | none => exact .pure rfl
  | some limit =>
    cases hbound : isBound limit with
    | false => simpa [Option.filter, hbound] using .pure rfl
    | true =>
      simp only [Option.filter_some, hbound, if_true, Option.map_some]
      exact boundSteps_refine slots hbound _ (by decide)

/-- **A keyword that puts a condition on a kind** refines the validator of that kind and does nothing else. -/
theorem steps_refine [Pattern.Engine] (remark : Remark → Except CompileError Unit)
    (convert : Value → Except CompileError Validator) {rule : KindRule} {kind : Kind} {test? : Entries → Option Test}
    (h : rule.condition? = some (kind, test?)) :
    Answers False (rule.steps remark convert slots schema) (Refines slots kind (test? schema)) := by
  cases rule with
  | minLength => cases h; exact lengthSteps_refine slots schema _ _ (by decide)
  | maxLength => cases h; exact lengthSteps_refine slots schema _ _ (by decide)
  | pattern => cases h; exact patternSteps_refine ..
  | minimum => cases h; exact rangeSteps_refine slots schema _ _ _ _ (by decide) (by decide)
  | maximum => cases h; exact rangeSteps_refine slots schema _ _ _ _ (by decide) (by decide)
  | exclusiveMinimum => cases h; exact exclusiveSteps_refine slots schema _ _ (by decide)
  | exclusiveMaximum => cases h; exact exclusiveSteps_refine slots schema _ _ (by decide)
  | multipleOf => cases h; exact multipleSteps_refine ..
  | _ => cases h

end

end Schemata
