import Schemata.Proofs.Schema.Readings

/-!
# `Schemata.Proofs.Schema.Scalars` — the first phase on scalars

For a text, a number, a truth value or null there is one slot, and every rule adds its clause to what the slot says:
literals and types narrow it, and other keywords put conditions on it. What the slot says in the end is the
conjunction of the clauses.

## Contents
- **Clauses.** `KindRule.clause`, and what the clauses of texts and of numbers amount to.
- **Slots of scalars.** What conditions, literals and types do to a slot.
- **Rules.** `says_rule`, one rule at a time.
- **What the clauses amount to.** `says_scalar`, with all keywords of scalars.
-/

namespace Schemata

open Value

/-! ## Clauses -/

/-- Whether a condition, if there is one, is answered with yes. -/
def testSatisfied (test? : Option Test) (v : Value) : Bool :=
  match test? with
  | some test => isTrue (test.holds v)
  | none => true

/-- What a rule of the first phase says about a scalar. -/
def KindRule.clause [Pattern.Engine] (schema : Entries) (v : Value) (rule : KindRule) : Bool :=
  match rule with
  | .const => constSatisfied schema v
  | .enumeration => enumSatisfied schema v
  | .type => !Entries.has schema "type" || (declaredTypes schema).any (typeFits v)
  | .file => !(isBinary schema && v.kind == some .string)
  | rule =>
    match rule.condition? with
    | some (kind, test?) => v.kind != some kind || testSatisfied (test? schema) v
    | none => true

section

variable {sure : Prop} {schema : Entries} {v : Value}

theorem answers_isTrue {x : Except Fault Bool} (h : sure → ∃ b, x = .ok b) : Answers sure x fun b => b = isTrue x := by
  refine ⟨fun b hb => ?_, h⟩
  rw [hb]
  rfl

theorem isBound_of_isFiniteNumber {w : Value} (h : w.isFiniteNumber = true) : isBound w = true := by
  cases w <;> first | rfl | cases h

/-- The conditions of the first phase are answered on values of their kind. -/
theorem condition_answers [Pattern.Engine] (hshapes : HasShapes schema)
    (hschema : sure → (Value.dict schema).isWritable = true) (hv : sure → v.isWritable = true) {rule : KindRule}
    {kind : Kind} {test? : Entries → Option Test} {test : Test} (hrule : rule.condition? = some (kind, test?))
    (htest : test? schema = some test) (hkind : v.kind = some kind) :
    Answers sure (test.holds v) (· = isTrue (test.holds v)) :=
  answers_isTrue ((condition_suits hshapes.operands hschema hrule htest).answers hkind hv).returns

/-! ## Slots of scalars -/

variable {slots : Admissibility} {kind : Kind} {b : Bool}

/-- A scalar of JSON, with its kind. -/
structure Value.IsScalarOf (v : Value) (kind : Kind) : Prop where
  scalar : v.isJsonScalar = true
  kind : v.kind = some kind

namespace Value.IsScalarOf

theorem hasDefault (h : v.IsScalarOf kind) : (defaultValidator? kind).isSome = true := by
  obtain ⟨hscalar, hkind⟩ := h
  cases v <;> first | (obtain rfl := Option.some.inj hkind; rfl) | cases hscalar

theorem not_composite (h : v.IsScalarOf kind) : isComposite kind = false := by
  obtain ⟨hscalar, hkind⟩ := h
  cases v <;> first | (obtain rfl := Option.some.inj hkind; rfl) | cases hscalar

theorem ne_absent (h : v.IsScalarOf kind) : v ≠ .absent := by
  rintro rfl
  cases h.scalar

theorem mergeOutputs_self (h : v.IsScalarOf kind) : mergeOutputs v v = v := by
  have hscalar := h.scalar
  cases v <;> first | rfl | cases hscalar

/-- The default validator of a kind accepts its scalars. -/
theorem check_default (h : v.IsScalarOf kind) {vd : Validator} (hvd : defaultValidator? kind = some vd)
    (path : Pointer) : vd.check v path = .ok (.accept v) := by
  obtain ⟨hscalar, hkind⟩ := h
  cases v with
  | float x =>
    obtain rfl := Option.some.inj hkind
    obtain rfl := Option.some.inj hvd
    have hfinite : x.isFinite = true := hscalar
    show Except.ok (if x.isFinite then Report.accept (.float x) else _) = _
    rw [if_pos hfinite]
  | null | bool _ | int _ | string _ =>
    obtain rfl := Option.some.inj hkind
    obtain rfl := Option.some.inj hvd
    rfl
  | _ => cases hscalar

end Value.IsScalarOf

/-- The literals of a kind accept what equals one of them. -/
theorem decides_literalValidator (hv : v ≠ .absent) (hkind : v.kind = some kind) {members : List Value}
    (hne : members ≠ []) (h : ∀ w ∈ members, w.literalKind = some kind ∧ (sure → w.isWritable = true)) :
    Decides sure (literalValidator kind members) v (members.any fun member => v.equal member) := by
  unfold literalValidator
  split
  -- null has a validator of its own, one literal has one, and several have one together
  · obtain rfl := eq_null_of_kind hkind
    obtain ⟨member, members, rfl⟩ := List.exists_cons_of_ne_nil hne
    obtain rfl := eq_null_of_kind (kind_of_literalKind (h member List.mem_cons_self).1)
    have hany : ((Value.null :: members).any fun member => Value.null.equal member) = true := by
      simp [Value.equal, Value.alike, alikeScalars]
    exact hany ▸ .accept fun path => rfl
  next value _ =>
    rw [List.any_cons, List.any_nil, Bool.or_false]
    exact .literal hv (h value List.mem_cons_self).2
  · exact .enumeration hv fun member hmember => (h member hmember).2

/-- Among the literals, those of the kind of the value decide. -/
theorem any_membersOf (hkind : v.kind = some kind) (hdefault : (defaultValidator? kind).isSome = true)
    (values : List Value) :
    ((membersOf kind values).any fun member => v.equal member) = values.any fun member => v.equal member := by
  unfold membersOf
  rw [List.any_filter]
  refine List.any_congr rfl fun member => ?_
  cases hequal : v.equal member with
  | false => rw [Bool.and_false]
  | true =>
    have hmember : member.kind = some kind := (kind_eq_of_equal hequal).symm.trans hkind
    have hliteral : member.literalKind = some kind := by
      unfold literalKind
      rw [hmember]
      cases kind with
      | file => cases hdefault
      | _ => rfl
    simp [hliteral]

/-- **A keyword that puts a condition on a kind** adds what the condition answers. -/
theorem Says.refines (hdefault : (defaultValidator? kind).isSome = true) (h : Says sure slots v kind b)
    {test? : Option Test} {steps : List Step} (hsteps : Refines slots kind test? steps)
    (htest : ∀ test, test? = some test → Answers sure (test.holds v) (· = isTrue (test.holds v))) :
    Says sure (slots.run steps) v kind (b && testSatisfied test? v) := by
  cases test? with
  | none =>
    rw [show steps = [] from hsteps, testSatisfied, Bool.and_true]
    exact h
  | some test =>
    rw [testSatisfied]
    rcases hsteps with ⟨hdisabled, rfl⟩ | ⟨message, _, rfl⟩
    · have hnone : slots.admitted? kind = none := if_pos hdisabled
      have hfalse : b = false := by
        rw [Says, hnone] at h
        exact h
      rw [hfalse] at h ⊢
      rw [Bool.false_and]
      exact h
    · rw [Says, Admissibility.admitted?_run hdefault, List.foldl_cons, List.foldl_nil, Step.act, if_pos rfl]
      exact Speaks.map h fun vd _ hvd => hvd.refined (fun _ => htest test rfl) message

/-- What the slot of a scalar says once the members of its kind have been put into it. -/
theorem says_scalarEnumStep (hv : v.IsScalarOf kind) {values : List Value}
    (hmembers : ∀ w ∈ membersOf kind values, w.literalKind = some kind ∧ (sure → w.isWritable = true))
    (h : Says sure slots v kind b) :
    Speaks sure ((scalarEnumStep slots values kind).act kind (slots.admitted? kind)) v
      (b && (membersOf kind values).any fun member => v.equal member) := by
  have hcurrent : ∀ vd, slots.admitted? kind = some vd → slots.current? kind = some vd := by
    intro vd hvd
    rw [Admissibility.admitted?] at hvd
    split at hvd
    · cases hvd
    · exact hvd
  rw [scalarEnumStep]
  cases hlist : membersOf kind values with
  | nil =>
    rw [List.any_nil, Bool.and_false]
    dsimp only
    rw [Step.act, if_pos rfl]
    rfl
  | cons member members =>
    have hliteral :=
      decides_literalValidator hv.ne_absent hv.kind (List.cons_ne_nil member members) (hlist ▸ hmembers)
    dsimp only
    cases hslot : (slots kind).validator? with
    | none =>
      -- an open slot speaks through the default validator, which accepts every scalar of its kind
      dsimp only
      rw [Step.act, if_pos rfl]
      refine Speaks.map h fun vd hvd hb => ?_
      have hdefault : defaultValidator? kind = some vd := by
        have hvd := hcurrent vd hvd
        rwa [Admissibility.current?, hslot] at hvd
      obtain rfl : b = true := hb.eq_true (hv.check_default hdefault [])
      exact hliteral
    | some existing =>
      -- what `const` has put there stays, beside the members
      dsimp only
      rw [Step.act, if_pos rfl]
      refine Speaks.map h fun vd hvd hb => ?_
      have hexisting : existing = vd := by
        have hvd := hcurrent vd hvd
        rw [Admissibility.current?, hslot] at hvd
        exact Option.some.inj hvd
      exact (hexisting ▸ hb).both (fun _ => hv.mergeOutputs_self) hliteral

/-- What `enum` says about a scalar. -/
theorem says_enum (hv : v.IsScalarOf kind) (hliterals : ∀ w ∈ literals schema, sure → w.isWritable = true)
    (h : Says sure slots v kind b) :
    Says sure (slots.run (enumSteps slots schema)) v kind (b && enumSatisfied schema v) := by
  unfold enumSatisfied
  match hget : (Entries.get? schema "enum").bind Value.items? with
  | none =>
    rw [enumSteps_none hget, Bool.and_true]
    exact h
  | some [] =>
    -- beside `type` an empty `enum` is ignored; alone it leaves no kind
    rw [enumSteps_empty hget]
    dsimp only
    cases Entries.has schema "type" with
    | true =>
      rw [Bool.and_true]
      exact h
    | false =>
      unfold Says
      rw [Bool.and_false, if_neg (by simp), Admissibility.admitted?_run hv.hasDefault]
      rfl
  | some (value :: values) =>
    have hmembers : ∀ w ∈ membersOf kind (value :: values),
        w.literalKind = some kind ∧ (sure → w.isWritable = true) := by
      intro w hw
      obtain ⟨hmem, hliteral⟩ := List.mem_filter.mp hw
      exact ⟨by simpa using hliteral, hliterals w (List.mem_append_right _ (by rw [hget]; exact hmem))⟩
    dsimp only
    rw [← any_membersOf hv.kind hv.hasDefault, Says, admitted?_enum hv.hasDefault hget, hv.not_composite,
      if_neg (by simp)]
    exact says_scalarEnumStep hv hmembers h

theorem contains_number (names : List String) :
    (names.flatMap typeKinds).contains .number = (names.contains "number" || names.contains "integer") := by
  have hname : ∀ name, Kind.number ∈ typeKinds name ↔ name = "number" ∨ name = "integer" := by
    intro name
    unfold typeKinds
    split
    case h_8 hstring hnumber hinteger _ _ _ _ => simpa using ⟨hnumber, hinteger⟩
    all_goals decide
  rw [Bool.eq_iff_iff]
  simp only [List.contains_iff_mem, List.mem_flatMap, Bool.or_eq_true, hname]
  constructor
  · rintro ⟨name, hmem, rfl | rfl⟩
    · exact .inl hmem
    · exact .inr hmem
  · rintro (hmem | hmem)
    · exact ⟨_, hmem, .inl rfl⟩
    · exact ⟨_, hmem, .inr rfl⟩

theorem any_typeFits_number (hkind : v.kind = some .number) (names : List String) :
    names.any (typeFits v) = (names.contains "number" || names.contains "integer" && isTrue (isIntegral v)) := by
  have hname : ∀ name,
      typeFits v name = true ↔ name = "number" ∨ name = "integer" ∧ isTrue (isIntegral v) = true := by
    intro name
    unfold typeFits
    rw [hkind]
    by_cases hinteger : name = "integer"
    · simp [hinteger]
    · simpa [hinteger, Kind.name] using eq_comm
  rw [Bool.eq_iff_iff]
  simp only [List.any_eq_true, hname, List.contains_iff_mem, Bool.or_eq_true, Bool.and_eq_true]
  constructor
  · rintro ⟨name, hmem, rfl | ⟨rfl, hintegral⟩⟩
    · exact .inl hmem
    · exact .inr ⟨hmem, hintegral⟩
  · rintro (hmem | ⟨hmem, hintegral⟩)
    · exact ⟨_, hmem, .inl rfl⟩
    · exact ⟨_, hmem, .inr ⟨rfl, hintegral⟩⟩

theorem integral_answers (hkind : v.kind = some .number) :
    Answers sure (Test.integral.holds v) (· = isTrue (isIntegral v)) := by
  rw [Test.holds_integral]
  refine answers_isTrue fun _ => ?_
  rcases number_of_kind hkind with ⟨n, rfl⟩ | ⟨x, rfl⟩
  · exact ⟨_, rfl⟩
  · exact ⟨_, rfl⟩

/-- What `type` says about a scalar. -/
theorem says_type (hv : v.IsScalarOf kind) (h : Says sure slots v kind b) :
    Says sure (slots.run (typeSteps schema)) v kind
      (b && (!Entries.has schema "type" || (declaredTypes schema).any (typeFits v))) := by
  -- numbers are kept by two names, of which `integer` alone adds a condition
  by_cases hnumber : kind = .number
  · subst hnumber
    cases htype : Entries.has schema "type" with
    | false =>
      have hsteps : typeSteps schema = [] := by rw [typeSteps, htype]; rfl
      rw [hsteps, Bool.not_false, Bool.true_or, Bool.and_true]
      exact h
    | true =>
      rw [Bool.not_true, Bool.false_or, any_typeFits_number hv.kind, Says, Admissibility.admitted?_run hv.hasDefault,
        typeSteps, if_pos htype]
      dsimp only
      rw [List.foldl_cons, Step.act, contains_number]
      cases (declaredTypes schema).contains "number" with
      | true =>
        rw [Bool.not_true, Bool.and_false, Bool.true_or, Bool.true_or, Bool.and_true]
        exact h
      | false =>
        rw [Bool.not_false, Bool.and_true, Bool.false_or, Bool.false_or]
        cases (declaredTypes schema).contains "integer" with
        | false => exact Bool.and_false b
        | true =>
          rw [Bool.true_and]
          exact Speaks.map h fun vd _ hvd => hvd.refined (fun _ => integral_answers hv.kind) _
  · rw [Says, admitted?_type hv.hasDefault hv.kind hnumber]
    cases hclause : !Entries.has schema "type" || (declaredTypes schema).any (typeFits v) with
    | true =>
      rw [Bool.and_true]
      exact h
    | false => exact Bool.and_false b

/-- What `const` says about a scalar. -/
theorem says_const (hv : v.IsScalarOf kind) (hliterals : ∀ w ∈ literals schema, sure → w.isWritable = true) :
    Answers False (constSteps (m := Except CompileError) (fun _ => .ok ()) schema) fun steps =>
      Says sure (Admissibility.initial.run steps) v kind (constSatisfied schema v) := by
  refine (admitted?_const hv.hasDefault).mono fun steps hsteps => ?_
  rw [Says, hsteps, constSatisfied]
  cases hget : Entries.get? schema "const" with
  | none =>
    obtain ⟨vd, hvd⟩ := Option.isSome_iff_exists.mp hv.hasDefault
    dsimp only
    rw [hvd]
    exact .accept (hv.check_default hvd)
  | some value =>
    dsimp only
    rw [hv.not_composite]
    by_cases hliteral : value.literalKind = some kind
    · have hvalue : ∀ w ∈ [value], w.literalKind = some kind ∧ (sure → w.isWritable = true) := by
        refine List.forall_mem_singleton.mpr ⟨hliteral, hliterals value (List.mem_append_left _ ?_)⟩
        rw [hget]
        exact List.mem_singleton.mpr rfl
      have hdecides := decides_literalValidator hv.ne_absent hv.kind (List.cons_ne_nil _ _) hvalue
      rw [List.any_cons, List.any_nil, Bool.or_false] at hdecides
      rw [hliteral, if_pos (by simp)]
      exact hdecides
    · have hdiffers : v.equal value = false := by
        have hany := any_membersOf hv.kind hv.hasDefault [value]
        rw [membersOf, List.filter_cons_of_neg (by simpa using hliteral)] at hany
        simpa using hany.symm
      rw [hdiffers, if_neg (by simpa using hliteral)]
      rfl

/-- What the description of binary content says about a scalar. -/
theorem says_file (hv : v.IsScalarOf kind) (h : Says sure slots v kind b) :
    Says sure (slots.run (fileSteps schema)) v kind (b && !(isBinary schema && v.kind == some .string)) := by
  rw [Says, Admissibility.admitted?_run hv.hasDefault, hv.kind]
  unfold fileSteps
  have hfile : Kind.file ≠ kind := by
    rintro rfl
    cases hv.hasDefault
  cases isBinary schema with
  | false =>
    rw [Bool.false_and, Bool.not_false, Bool.and_true]
    exact h
  | true =>
    rw [if_pos rfl, List.foldl_cons, List.foldl_cons, List.foldl_nil, Step.act, if_neg hfile, Step.act, Bool.true_and]
    by_cases hstring : kind = .string
    · subst hstring
      exact Bool.and_false b
    · have hne : (some kind == some Kind.string) = false := by simpa using hstring
      rw [if_neg (Ne.symm hstring), hne, Bool.not_false, Bool.and_true]
      exact h

/-! ## Rules -/

variable {convert : Value → Except CompileError Validator} (hshapes : HasShapes schema)
  (hschema : sure → (Value.dict schema).isWritable = true) (hwritable : sure → v.isWritable = true)
include hshapes hschema hwritable

theorem says_condition [Pattern.Engine] (hv : v.IsScalarOf kind) (h : Says sure slots v kind b) {rule : KindRule}
    {on : Kind} {test? : Entries → Option Test} (hrule : rule.condition? = some (on, test?)) (hkinds : rule.kinds = [on]) :
    Answers False (rule.steps (fun _ => .ok ()) convert slots schema) fun steps =>
      Says sure (slots.run steps) v kind (b && (v.kind != some on || testSatisfied (test? schema) v)) := by
  rw [hv.kind]
  by_cases hon : kind = on
  · subst hon
    have hnot : (some kind != some kind) = false := by simp
    rw [hnot, Bool.false_or]
    refine (steps_refine slots schema _ convert hrule).mono fun steps hsteps => ?_
    exact h.refines hv.hasDefault hsteps fun test htest =>
      condition_answers hshapes hschema hwritable hrule htest hv.kind
  · have hne : (some kind != some on) = true := by simpa using hon
    rw [hne, Bool.true_or, Bool.and_true]
    refine (steps_other rule (by simpa [hkinds] using hon)).mono fun steps hsteps => ?_
    exact h.of_eq (Admissibility.admitted?_congr hsteps)

/-- **Every rule adds its clause** to what the slot of a scalar says. -/
theorem says_rule [Pattern.Engine] (hv : v.IsScalarOf kind)
    (hliterals : ∀ w ∈ literals schema, sure → w.isWritable = true) (h : Says sure slots v kind b) {rule : KindRule}
    (hrule : rule ≠ .const) :
    Answers False (rule.steps (fun _ => .ok ()) convert slots schema) fun steps =>
      Says sure (slots.run steps) v kind (b && rule.clause schema v) := by
  have hcondition : ∀ {rule : KindRule} {on : Kind} {test? : Entries → Option Test},
      rule.condition? = some (on, test?) → rule.kinds = [on] →
      Answers False (rule.steps (fun _ => .ok ()) convert slots schema) fun steps =>
        Says sure (slots.run steps) v kind (b && (v.kind != some on || testSatisfied (test? schema) v)) :=
    fun hrule hkinds => says_condition hshapes hschema hwritable hv h hrule hkinds
  have hother : ∀ rule : KindRule, kind ∉ rule.kinds → rule.clause schema v = true →
      Answers False (rule.steps (fun _ => .ok ()) convert slots schema) fun steps =>
        Says sure (slots.run steps) v kind (b && rule.clause schema v) := by
    intro rule hkinds hclause
    rw [hclause, Bool.and_true]
    exact (steps_other rule hkinds).mono fun steps hsteps => h.of_eq (Admissibility.admitted?_congr hsteps)
  have hcomposite := hv.not_composite
  have hdefault := hv.hasDefault
  have hobject : kind ≠ .object := by rintro rfl; cases hcomposite
  have harray : kind ≠ .array := by rintro rfl; cases hcomposite
  have htuple : kind ≠ .tuple := by rintro rfl; cases hdefault
  -- conditions, literals and types speak of scalars; the rules of arrays and objects leave their slots alone
  cases rule with
  | const => exact (hrule rfl).elim
  | enumeration => exact .pure (says_enum hv hliterals h)
  | type => exact .pure (says_type hv h)
  | file => exact .pure (says_file hv h)
  | impliedString =>
    refine .pure ?_
    rw [show KindRule.clause schema v .impliedString = true from rfl, Bool.and_true]
    exact h.of_eq (admitted?_implied hv.hasDefault _ _)
  | minLength | maxLength | pattern | minimum | maximum | exclusiveMinimum | exclusiveMaximum | multipleOf =>
    exact hcondition rfl rfl
  | impliedArray | minItems | maxItems | items => exact hother _ (by simpa [KindRule.kinds] using harray) rfl
  | tuple => exact hother _ (by simpa [KindRule.kinds] using ⟨htuple, harray⟩) rfl
  | impliedObject | properties | maxProperties | minProperties =>
    exact hother _ (by simpa [KindRule.kinds] using hobject) rfl

/-! ## What the clauses amount to -/

omit hshapes hschema hwritable in
/-- The clauses of `type` and of binary content are what `type` says. -/
theorem typeSatisfied_eq [Pattern.Engine] (schema : Entries) (v : Value) :
    (KindRule.clause schema v .type && KindRule.clause schema v .file) = typeSatisfied schema v := by
  unfold typeSatisfied
  show ((!Entries.has schema "type" || (declaredTypes schema).any (typeFits v)) &&
    !(isBinary schema && v.kind == some .string)) = _
  cases hbinary : isBinary schema with
  | false => simp
  | true =>
    have htype : Entries.get? schema "type" = some (.string "string") := by
      unfold isBinary at hbinary
      rw [Bool.and_eq_true, Bool.and_eq_true, Option.any_eq_true] at hbinary
      obtain ⟨⟨⟨w, hget, hw⟩, _⟩, _⟩ := hbinary
      rw [hget, isText_iff.mp hw]
    have hdeclared : declaredTypes schema = ["string"] := by rw [declaredTypes, htype]
    have hfits : typeFits v "string" = (v.kind == some .string) := by
      unfold typeFits
      cases v.kind with
      | none => rfl
      | some k => cases k <;> rfl
    rw [hdeclared, List.any_cons, List.any_nil, hfits, Entries.has, htype]
    cases v.kind == some .string <;> rfl

omit hschema hwritable in
theorem testSatisfied_length {keyword : String} (hkeyword : (keyword, KeywordShape.count) ∈ keywordShapes)
    (relation : Relation) (s : String) :
    testSatisfied (lengthTest keyword relation schema) (.string s) =
      countSatisfied schema keyword fun limit => relation.ofInts (Unicode.clusterCount s) limit := by
  unfold lengthTest countSatisfied
  cases hget : Entries.get? schema keyword with
  | none => rfl
  | some limit =>
    obtain ⟨n, rfl⟩ := hshapes.count hget hkeyword
    show isTrue ((Test.characters relation (.int n)).holds (.string s)) = _
    rw [Test.holds_characters, related_int]
    rfl

omit hschema hwritable in
theorem testSatisfied_pattern [Pattern.Engine] (s : String) :
    testSatisfied (patternTest schema) (.string s) = patternSatisfied schema s := by
  unfold patternTest patternSatisfied
  cases hget : Entries.get? schema "pattern" with
  | none => rfl
  | some value =>
    have htext := hshapes.admits .text hget (by decide)
    cases value with
    | string p =>
      dsimp only [Option.map_some, compilePattern]
      rw [testSatisfied, Test.holds_found, containsMatch]
      cases Pattern.Engine.read p with
      | error refusal => cases refusal <;> rfl
      | ok pattern => rfl
    | _ => cases htext

omit hschema hwritable in
/-- The clauses of texts are what their keywords say. -/
theorem stringSatisfied_eq [Pattern.Engine] (v : Value) :
    (KindRule.clause schema v .minLength && KindRule.clause schema v .maxLength && KindRule.clause schema v .pattern)
      = stringSatisfied schema v := by
  have hother : v.kind ≠ some .string → ∀ {test? : Entries → Option Test},
      (v.kind != some .string || testSatisfied (test? schema) v) = true := by
    intro hkind test?
    simp [hkind]
  cases v with
  | string s =>
    show (testSatisfied (lengthTest "minLength" .atLeast schema) (.string s) &&
      testSatisfied (lengthTest "maxLength" .atMost schema) (.string s) &&
      testSatisfied (patternTest schema) (.string s)) = _
    rw [testSatisfied_length hshapes (by decide), testSatisfied_length hshapes (by decide),
      testSatisfied_pattern hshapes]
    rfl
  | file f =>
    simp only [KindRule.clause, KindRule.condition?, hother (kind_file_ne (by decide) f)]
    rfl
  | _ => rfl

omit hschema hwritable in
theorem testSatisfied_range {keyword : String} (hkeyword : (keyword, KeywordShape.number) ∈ keywordShapes)
    (exclusive : String) (inclusive strict : Relation) :
    testSatisfied (rangeTest keyword exclusive inclusive strict schema) v =
      rangeSatisfied schema keyword exclusive inclusive strict v := by
  unfold rangeTest rangeSatisfied
  cases hget : Entries.get? schema keyword with
  | none => rfl
  | some limit =>
    have hbound := isBound_of_isFiniteNumber (hshapes.admits .number hget hkeyword)
    rw [Option.filter_some, if_pos hbound, Option.map_some, testSatisfied, Test.holds_compares]

omit hshapes hschema hwritable in
theorem testSatisfied_exclusive (keyword : String) (relation : Relation) :
    testSatisfied (exclusiveTest keyword relation schema) v = exclusiveSatisfied schema keyword relation v := by
  unfold exclusiveTest exclusiveSatisfied
  cases Entries.get? schema keyword with
  | none => rfl
  | some limit =>
    rw [Option.filter_some]
    dsimp only
    cases isBound limit with
    | false => rfl
    | true =>
      rw [if_pos rfl, Option.map_some, testSatisfied, Test.holds_compares, Bool.not_true, Bool.false_or]

omit hschema hwritable in
theorem testSatisfied_multiple : testSatisfied (multipleTest schema) v = multipleSatisfied schema v := by
  unfold multipleTest multipleSatisfied
  cases hget : Entries.get? schema "multipleOf" with
  | none => rfl
  | some divisor =>
    have hbound := isBound_of_isFiniteNumber (hshapes.admits .number hget (by decide))
    rw [Option.filter_some, if_pos hbound, Option.map_some, testSatisfied, Test.holds_multipleOf]

omit hschema hwritable in
/-- The clauses of numbers are what their keywords say. -/
theorem numberSatisfied_eq [Pattern.Engine] (v : Value) :
    (KindRule.clause schema v .minimum && KindRule.clause schema v .maximum &&
      KindRule.clause schema v .exclusiveMinimum && KindRule.clause schema v .exclusiveMaximum &&
      KindRule.clause schema v .multipleOf) = numberSatisfied schema v := by
  unfold numberSatisfied
  simp only [KindRule.clause, KindRule.condition?, testSatisfied_exclusive, testSatisfied_multiple hshapes,
    testSatisfied_range hshapes (show ("minimum", _) ∈ keywordShapes by decide),
    testSatisfied_range hshapes (show ("maximum", _) ∈ keywordShapes by decide)]
  cases v.kind != some .number <;> rfl

/-- **The slot of a scalar says what the keywords of scalars say.** -/
theorem says_scalar [Pattern.Engine] (hv : v.IsScalarOf kind) :
    Answers False (KindRule.runAll (fun _ => .ok ()) convert schema KindRule.all .initial) fun slots =>
      Says sure slots v kind (typeSatisfied schema v && constSatisfied schema v && enumSatisfied schema v &&
        stringSatisfied schema v && numberSatisfied schema v) := by
  have hliterals : ∀ w ∈ literals schema, sure → w.isWritable = true := fun w hw hsure =>
    isWritable_of_mem_literals (hschema hsure) hw
  -- of the rules after `const`, ten say nothing about scalars; the others are the keywords in another order
  have hclauses : (constSatisfied schema v && KindRule.all.tail.all (KindRule.clause schema v)) =
      (typeSatisfied schema v && constSatisfied schema v && enumSatisfied schema v && stringSatisfied schema v &&
        numberSatisfied schema v) := by
    have hsilent : ∀ rule ∈ [KindRule.impliedString, .impliedArray, .impliedObject, .tuple, .minItems, .maxItems,
        .items, .properties, .maxProperties, .minProperties], KindRule.clause schema v rule = true := by
      simp [KindRule.clause, KindRule.condition?]
    simp only [List.forall_mem_cons] at hsilent
    obtain ⟨himpliedString, himpliedArray, himpliedObject, htuple, hminItems, hmaxItems, hitems, hproperties,
      hmaxProperties, hminProperties, _⟩ := hsilent
    rw [← typeSatisfied_eq, ← stringSatisfied_eq hshapes, ← numberSatisfied_eq hshapes]
    simp only [KindRule.all, List.tail_cons, List.all_cons, List.all_nil, himpliedString, himpliedArray,
      himpliedObject, htuple, hminItems, hmaxItems, hitems, hproperties, hmaxProperties, hminProperties,
      Bool.true_and, Bool.and_true]
    rw [show KindRule.clause schema v .enumeration = enumSatisfied schema v from rfl]
    ac_rfl
  rw [show KindRule.all = .const :: KindRule.all.tail from rfl, KindRule.runAll, ← hclauses]
  refine .bind (says_const hv hliterals) fun steps hsteps => ?_
  have hrules : ∀ rule ∈ KindRule.all.tail, ∀ slots b, Says sure slots v kind b →
      Answers False (rule.steps (fun _ => .ok ()) convert slots schema) fun steps =>
        Says sure (slots.run steps) v kind (b && KindRule.clause schema v rule) := by
    intro rule hrule slots b h
    have hconst : rule ≠ .const := by
      rintro rfl
      revert hrule
      decide
    exact says_rule hshapes hschema hwritable hv hliterals h hconst
  exact KindRule.runAll_and (fun slots b => Says sure slots v kind b) (KindRule.clause schema v) hrules hsteps

end

end Schemata
