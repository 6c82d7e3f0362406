import Schemata.Proofs.Schema.Readings

/-!
# `Schemata.Proofs.Schema.Composites` — the first phase before structures are read

Up to the keywords of arrays and objects themselves, the rules only decide whether lists and mappings are admitted at
all: literals and types keep the kind or disable it, and what is kept is the default validator. Tuples follow arrays.

## Contents
- **Sub-schemas.** `Faithful`, what compilation makes of a schema, and what is known about sub-schemas.
- **Phases.** `KindRule.opening` and the rules after it.
- **Opening.** `KindRule.keeps`, `admitted?_opening` for one rule, `Opened`, and `opened_opening`.
- **Numbers of elements.** The bounds that keywords name.
-/

namespace Schemata

/-! ## Sub-schemas -/

/-- What the validator of a schema decides: JSON values are accepted as the schema says, and about the absent value
there is some decision. -/
structure Faithful [Pattern.Engine] (sure : Prop) (schema : Value) (vd : Validator) : Prop where
  decides : ∀ w : Value, w.IsJson → (sure → w.isWritable = true) → Decides sure vd w (satisfied schema w)
  absent : ∃ b, Decides sure vd .absent b

/-! ## Phases -/

namespace KindRule

/-- The rules that come after `const` and before those of arrays and objects. -/
def opening : List KindRule := [.enumeration, .type, .file, .impliedString, .impliedArray, .impliedObject, .minLength,
  .maxLength, .pattern, .minimum, .maximum, .exclusiveMinimum, .exclusiveMaximum, .multipleOf]

/-- The rules of arrays. -/
def ofArrays : List KindRule := [.tuple, .minItems, .maxItems, .items]

/-- The rules of objects. -/
def ofObjects : List KindRule := [.properties, .maxProperties, .minProperties]

theorem all_eq : all = .const :: (opening ++ (ofArrays ++ ofObjects)) := rfl

end KindRule

/-! ## Opening -/

/-- Whether a rule before those of arrays and objects keeps the kind of a list or of a mapping. -/
def KindRule.keeps (schema : Entries) (v : Value) (rule : KindRule) : Bool :=
  match rule with
  | .const =>
    match Entries.get? schema "const" with
    | none => true
    | some value => value.literalKind == v.kind
  | .enumeration =>
    match (Entries.get? schema "enum").bind Value.items? with
    | none => true
    | some [] => Entries.has schema "type"
    | some values => values.any fun value => value.literalKind == v.kind
  | .type => !Entries.has schema "type" || (declaredTypes schema).any (typeFits v)
  | _ => true

/-- Whether literals and types admit the kind of a list or of a mapping. -/
def kindKept (schema : Entries) (v : Value) : Bool :=
  KindRule.const.keeps schema v && KindRule.enumeration.keeps schema v && KindRule.type.keeps schema v

theorem kindKept_eq (schema : Entries) (v : Value) :
    kindKept schema v = (KindRule.const.keeps schema v && KindRule.opening.all (KindRule.keeps schema v)) := by
  simp [KindRule.opening, kindKept, KindRule.keeps, Bool.and_assoc]

/-- A kind about which nothing is known but whether it is admitted. -/
def Opened (slots : Admissibility) (kind : Kind) (admitted : Bool) : Prop :=
  slots.admitted? kind = if admitted then defaultValidator? kind else none

section

variable [Pattern.Engine] {slots : Admissibility} {schema : Entries} {v : Value} {kind : Kind} {b : Bool}

omit [Pattern.Engine] in
theorem Opened.and (h : Opened slots kind b) {slots' : Admissibility} {c : Bool}
    (heq : slots'.admitted? kind = if c then slots.admitted? kind else none) : Opened slots' kind (b && c) := by
  unfold Opened at h ⊢
  rw [heq, h]
  cases b <;> cases c <;> rfl

variable (hdefault : (defaultValidator? kind).isSome = true) (hkind : v.kind = some kind)
  (hcomposite : isComposite kind = true)
include hdefault hkind hcomposite

omit [Pattern.Engine] in
/-- What `const` leaves of a kind of lists or mappings. -/
theorem opened_const :
    Answers False (constSteps (m := Except CompileError) (fun _ => .ok ()) schema) fun steps =>
      Opened (Admissibility.initial.run steps) kind (KindRule.const.keeps schema v) := by
  refine (admitted?_const hdefault).mono fun steps hsteps => ?_
  rw [Opened, hsteps, hcomposite]
  simp only [KindRule.keeps, hkind, if_true]
  cases Entries.get? schema "const" <;> rfl

/-- **The rules before those of arrays and objects** keep what is said of a kind of lists or mappings, or disable it. -/
theorem admitted?_opening {convert : Value → Except CompileError Validator} {rule : KindRule}
    (hrule : rule ∈ KindRule.opening) :
    Answers False (rule.steps (fun _ => .ok ()) convert slots schema) fun steps =>
      (slots.run steps).admitted? kind = if rule.keeps schema v then slots.admitted? kind else none := by
  have hother : ∀ rule : KindRule, kind ∉ rule.kinds → rule.keeps schema v = true →
      Answers False (rule.steps (fun _ => .ok ()) convert slots schema) fun steps =>
        (slots.run steps).admitted? kind = if rule.keeps schema v then slots.admitted? kind else none := by
    intro rule hkinds hkeeps
    rw [hkeeps, if_pos rfl]
    exact (steps_other rule hkinds).mono fun steps hsteps => Admissibility.admitted?_congr hsteps
  have hstring : kind ≠ .string := by rintro rfl; cases hcomposite
  have hnumber : kind ≠ .number := by rintro rfl; cases hcomposite
  have hfile : kind ≠ .file := by rintro rfl; cases hcomposite
  -- literals and types read the kind; every other rule is about other kinds or fills a slot with its default
  cases rule with
  | enumeration =>
    refine .pure ?_
    unfold KindRule.keeps
    match hget : (Entries.get? schema "enum").bind Value.items? with
    | none =>
      rw [enumSteps_none hget]
      rfl
    | some [] =>
      rw [enumSteps_empty hget]
      dsimp only
      cases Entries.has schema "type" with
      | true => rfl
      | false => exact (Admissibility.admitted?_run hdefault _).trans rfl
    | some (value :: values) =>
      dsimp only
      rw [admitted?_enum hdefault hget, if_pos hcomposite, isEmpty_membersOf, hkind]
      by_cases hany : ((value :: values).any fun value => value.literalKind == some kind) = true
      · rw [if_pos hany, if_neg (by rw [hany]; decide)]
      · rw [if_neg hany, if_pos (by rw [Bool.eq_false_iff.mpr hany]; decide)]
  | type => exact .pure (admitted?_type hdefault hkind hnumber)
  | impliedString => exact .pure (admitted?_implied hdefault _ _)
  | impliedArray => exact .pure (admitted?_impliedArray hdefault)
  | impliedObject => exact .pure (admitted?_implied hdefault _ _)
  | file => exact hother _ (by simpa [KindRule.kinds] using ⟨hfile, hstring⟩) rfl
  | minLength | maxLength | pattern => exact hother _ (by simpa [KindRule.kinds] using hstring) rfl
  | minimum | maximum | exclusiveMinimum | exclusiveMaximum | multipleOf =>
    exact hother _ (by simpa [KindRule.kinds] using hnumber) rfl
  | _ => simp [KindRule.opening] at hrule

/-- So of a kind about which nothing else is known, nothing else is known afterwards. -/
theorem opened_rule (h : Opened slots kind b) {convert : Value → Except CompileError Validator} {rule : KindRule}
    (hrule : rule ∈ KindRule.opening) :
    Answers False (rule.steps (fun _ => .ok ()) convert slots schema) fun steps =>
      Opened (slots.run steps) kind (b && rule.keeps schema v) :=
  (admitted?_opening hdefault hkind hcomposite hrule).mono fun _ hsteps => h.and hsteps

/-- What is left of a kind of lists or mappings after these rules. -/
theorem opened_opening {convert : Value → Except CompileError Validator} :
    Answers False (KindRule.runAll (fun _ => .ok ()) convert schema (.const :: KindRule.opening) .initial) fun slots =>
      Opened slots kind (kindKept schema v) := by
  rw [KindRule.runAll]
  refine .bind (opened_const hdefault hkind hcomposite) fun steps hsteps => ?_
  rw [kindKept_eq]
  exact KindRule.runAll_and (fun slots b => Opened slots kind b) (KindRule.keeps schema v)
    (fun rule hrule slots b h => opened_rule hdefault hkind hcomposite h hrule) hsteps

end

/-! ## Numbers of elements -/

section

variable {sure : Prop} {schema : Entries} (hshapes : HasShapes schema) {keyword : String}
  (hkeyword : (keyword, KeywordShape.count) ∈ keywordShapes)
include hshapes hkeyword

theorem given?_eq : Entries.given? schema keyword = Entries.get? schema keyword := by
  unfold Entries.given?
  split
  next hget =>
    obtain ⟨n, hn⟩ := hshapes.count hget hkeyword
    cases hn
  next => rfl

theorem limitHolds_given (holds : Int → Bool) :
    limitHolds (Entries.given? schema keyword) holds = countSatisfied schema keyword holds := by
  rw [given?_eq hshapes hkeyword]
  rfl

theorem exists_int_of_given {limit : Value} (hlimit : Entries.given? schema keyword = some limit) :
    ∃ n, limit = .int n := by
  rw [given?_eq hshapes hkeyword] at hlimit
  exact hshapes.count hlimit hkeyword

theorem isCount_given (hschema : sure → (Value.dict schema).isWritable = true) {limit : Value}
    (hlimit : Entries.given? schema keyword = some limit) : IsCount sure limit where
  isInt := exists_int_of_given hshapes hkeyword hlimit
  writable := fun hsure => by
    rw [given?_eq hshapes hkeyword] at hlimit
    exact isWritable_get? (hschema hsure) hlimit

end

/-- The bounds that two keywords name. -/
def givenBounds (schema : Entries) (least most : String) : Bounds :=
  ⟨Entries.given? schema least, Entries.given? schema most⟩

section

variable {sure : Prop} {schema : Entries} (hshapes : HasShapes schema) {least most : String}
  (hleast : (least, KeywordShape.count) ∈ keywordShapes) (hmost : (most, KeywordShape.count) ∈ keywordShapes)
include hshapes hleast hmost

theorem givenBounds_areCounts (hschema : sure → (Value.dict schema).isWritable = true) :
    (givenBounds schema least most).AreCounts sure where
  least := fun _ h => isCount_given hshapes hleast hschema h
  most := fun _ h => isCount_given hshapes hmost hschema h

theorem givenBounds_allow (count : Nat) :
    (givenBounds schema least most).allow count = countWithin schema least most count := by
  unfold Bounds.allow givenBounds countWithin
  dsimp only
  rw [limitHolds_given hshapes hleast, limitHolds_given hshapes hmost]

end

end Schemata
