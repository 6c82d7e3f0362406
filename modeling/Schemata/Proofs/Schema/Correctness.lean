import Schemata.Pattern.Reader
import Schemata.Proofs.Schema.Arrays
import Schemata.Proofs.Schema.Refinements
import Schemata.Proofs.Schema.Scalars
import Schemata.Proofs.Value.Extension

/-!
# `Schemata.Proofs.Schema.Correctness` — validators accept what schemas say

The first phase decides every value as `firstPhase` says, and the clauses of the refinements turn that into what
the keywords say (`refined_eq_nodeSatisfied`). By induction over the compilation, the validator of a schema accepts
the values that satisfy it.

## Contents
- **First phase.** `firstPhase`, and the joined validator that decides it.
- **Both phases.** What is read of a keyword in the two phases is what the keyword says.
- **Mappings.** `faithful_node`, for one mapping of keywords.
- **Schemas.** `compile_correct`, and a limit that cannot be written.
-/

namespace Schemata

open Value

/-! ## First phase -/

/-- What the first phase says about a value. -/
def firstPhase [Pattern.Engine] (schema : Entries) (v : Value) : Bool :=
  match v with
  | .list items =>
    kindKept schema v && (countWithin schema "minItems" "maxItems" items.length && itemsRead schema items)
  | .dict members =>
    kindKept schema v && (countWithin schema "minProperties" "maxProperties" members.length &&
      (members.all fun e => memberRead schema e.1.plain e.2) && (requiredNames schema).all (Entries.has members))
  | v => typeSatisfied schema v && constSatisfied schema v && enumSatisfied schema v && stringSatisfied schema v &&
    numberSatisfied schema v

/-- A schema without constraints has no keyword but annotations. -/
theorem get?_of_not_hasConstraints {schema : Entries} (h : hasConstraints schema = false) {keyword : String}
    (hkeyword : keyword ∉ annotationKeywords) : Entries.get? schema keyword = none := by
  rw [← Entries.has_eq_false_iff, Bool.eq_false_iff]
  intro hhas
  obtain ⟨w, hget⟩ := Option.isSome_iff_exists.mp hhas
  have hentry := List.any_eq_false.mp h _ (Entries.mem_of_get? hget)
  refine hentry ?_
  rw [Bool.not_eq_true', List.any_eq_false]
  intro annotation hannotation htext
  rw [isText_string, beq_iff_eq] at htext
  exact hkeyword (htext ▸ hannotation)

/-- Where there are no constraints the first phase says yes. -/
theorem firstPhase_of_not_hasConstraints [Pattern.Engine] {schema : Entries} (h : hasConstraints schema = false)
    (v : Value) :
    firstPhase schema v = true := by
  have hnone : ∀ keyword, keyword ∉ annotationKeywords → Entries.get? schema keyword = none :=
    fun keyword => get?_of_not_hasConstraints h
  have hcount : ∀ keyword holds, keyword ∉ annotationKeywords → countSatisfied schema keyword holds = true :=
    fun keyword holds hkeyword => by rw [countSatisfied, hnone keyword hkeyword]
  have hkept : kindKept schema v = true := by
    simp (disch := decide) [kindKept, KindRule.keeps, Entries.has, hnone]
  have hproperties : mappedSchemas schema "properties" = [] := by rw [mappedSchemas, hnone _ (by decide)]; rfl
  have hmembers : ∀ key w, memberRead schema key w = true := by
    intro key w
    rw [memberRead, hproperties, undeclaredRead, additionalSatisfied, hnone _ (by decide), Bool.or_true]
    exact Bool.or_true _
  unfold firstPhase
  cases v with
  | list items =>
    dsimp only
    rw [hkept]
    simp (disch := decide) [countWithin, hcount, itemsRead, itemsSatisfied, hnone]
  | dict members =>
    dsimp only
    rw [hkept]
    simp (disch := decide) [countWithin, hcount, hmembers, requiredNames, hnone]
  | _ =>
    simp (disch := decide) [typeSatisfied, isBinary, Entries.has, constSatisfied, enumSatisfied, stringSatisfied,
      countWithin, hcount, patternSatisfied, numberSatisfied, rangeSatisfied, exclusiveSatisfied, multipleSatisfied, hnone]

section

variable {sure : Prop} {slots : Admissibility} {v : Value} {b : Bool}

/-- A validator that decides, unless everything is accepted because nothing has been said. -/
theorem decides_of_unconstrained {schema : Entries} {vd : Validator} (hb : hasConstraints schema = false → b = true)
    (h : (vd = .any ∧ hasConstraints schema = false) ∨ Decides sure vd v b) : Decides sure vd v b := by
  rcases h with ⟨rfl, hnone⟩ | hdecides
  · rw [hb hnone]
    exact .accept fun path => rfl
  · exact hdecides

/-- Kinds but those of lists have their own tags. -/
theorem tagAdmits_own {kind : Kind} (harray : kind ≠ .array) (htuple : kind ≠ .tuple) (other : Kind) :
    tagAdmits other.name (some kind) = decide (other = kind) := by
  cases kind with
  | array => exact (harray rfl).elim
  | tuple => exact (htuple rfl).elim
  | _ => cases other <;> rfl

/-- Where one kind alone may speak, the joined validator decides what it says. -/
theorem decides_assemble_of_kind {kind : Kind} (hslots : slots.Keep (RefusesOthers sure)) (hkind : v.kind = some kind)
    (harray : kind ≠ .array) (htuple : kind ≠ .tuple) (h : Says sure slots v kind b) (schema : Entries) :
    (slots.assemble schema = .any ∧ hasConstraints schema = false) ∨ Decides sure (slots.assemble schema) v b := by
  have hown : ∀ other : Kind, tagAdmits other.name v.kind = decide (other = kind) :=
    hkind ▸ tagAdmits_own harray htuple
  have hany : Kind.all.any (fun other => decide (other = kind) && b) = b := by
    cases kind <;> cases b <;> rfl
  rw [← hany]
  refine decides_assemble (fun other => ?_) (fun other hother => ?_) schema
  · by_cases heq : other = kind
    · subst heq
      rwa [decide_eq_true rfl, Bool.true_and]
    · rw [decide_eq_false heq]
      exact says_other hslots ((hown other).trans (decide_eq_false heq))
  · rw [← hown, hother, Bool.false_and]

/-- For lists two kinds speak. -/
theorem decides_assemble_of_list {items : List Value} {ofArray ofTuple : Bool} (hslots : slots.Keep (RefusesOthers sure))
    (harray : Says sure slots (.list items) .array ofArray) (htuple : Says sure slots (.list items) .tuple ofTuple)
    (schema : Entries) : (slots.assemble schema = .any ∧ hasConstraints schema = false) ∨
      Decides sure (slots.assemble schema) (.list items) (ofArray || ofTuple) := by
  let said : Kind → Bool
    | .array => ofArray
    | .tuple => ofTuple
    | _ => false
  have hany : Kind.all.any said = (ofArray || ofTuple) := by
    cases ofArray <;> cases ofTuple <;> rfl
  rw [← hany]
  refine decides_assemble (fun other => ?_) (fun other hother => ?_) schema
  · cases other with
    | array => exact harray
    | tuple => exact htuple
    | _ => exact says_other hslots rfl
  · cases other with
    | array => cases hother
    | tuple => cases hother
    | _ => rfl

variable [Pattern.Engine] {schema : Entries} {convert : Value → Except CompileError Validator}
  (hsub : ∀ s ∈ subSchemas schema, ∀ c, convert s = .ok c → Faithful sure s c) (hshapes : HasShapes schema)
  (hschema : sure → (Value.dict schema).isWritable = true)

/-- The slots after the first phase refuse the values of other kinds. -/
theorem answers_foreign (hschema : sure → (Value.dict schema).isWritable = true) :
    Answers False (KindRule.runAll (fun _ => .ok ()) convert schema KindRule.all .initial)
      (Admissibility.Keep (RefusesOthers sure)) :=
  slots_keep foreign_refused (.of_sub (fun _ hw hsure => isWritable_of_mem_literals (hschema hsure) hw) fun _ _ _ _ => trivial) _
    .initial

include hsub hshapes hschema

/-- **What the first phase decides**, for values of JSON. -/
theorem decides_firstPhase (hjson : v.IsJson) (hwritable : sure → v.isWritable = true) :
    Answers False (KindRule.runAll (fun _ => .ok ()) convert schema KindRule.all .initial) fun slots =>
      Decides sure (slots.assemble schema) v (firstPhase schema v) := by
  have hunconstrained : hasConstraints schema = false → firstPhase schema v = true :=
    fun h => firstPhase_of_not_hasConstraints h v
  have hforeign := (answers_foreign hschema : Answers False (KindRule.runAll (fun _ => .ok ()) convert schema KindRule.all
    .initial) _).meets
  cases hjson with
  | list each =>
    have hjson : (Value.list _).IsJson := .list each
    refine ((listSays_all hsub hshapes hschema hjson hwritable).and hforeign).mono ?_
    rintro slots ⟨⟨ofArray, ofTuple, harray, htuple, hor⟩, hslots⟩
    refine decides_of_unconstrained hunconstrained ?_
    rw [firstPhase, ← hor]
    exact decides_assemble_of_list hslots harray htuple schema
  | dict keys each =>
    have hjson : (Value.dict _).IsJson := .dict keys each
    refine ((says_object hsub hshapes hschema hjson hwritable).and hforeign).mono ?_
    rintro slots ⟨hsaid, hslots⟩
    exact decides_of_unconstrained hunconstrained
      (decides_assemble_of_kind hslots rfl (by decide) (by decide) hsaid schema)
  | leaf noItems noEntries here =>
    obtain ⟨kind, hkind, harray, htuple⟩ : ∃ kind, v.kind = some kind ∧ kind ≠ .array ∧ kind ≠ .tuple := by
      cases v <;> first | exact ⟨_, rfl, by decide, by decide⟩ | cases here
    have hfirst : firstPhase schema v = (typeSatisfied schema v && constSatisfied schema v && enumSatisfied schema v &&
        stringSatisfied schema v && numberSatisfied schema v) := by
      cases v <;> first | rfl | cases here
    refine ((says_scalar hshapes hschema hwritable ⟨here, hkind⟩).and hforeign).mono ?_
    rintro slots ⟨hsaid, hslots⟩
    rw [← hfirst] at hsaid
    exact decides_of_unconstrained hunconstrained
      (decides_assemble_of_kind hslots hkind harray htuple hsaid schema)

omit hsub hshapes in
/-- About the absent value the first phase decides something. -/
theorem decides_firstPhase_absent :
    Answers False (KindRule.runAll (fun _ => .ok ()) convert schema KindRule.all .initial) fun slots =>
      ∃ b, Decides sure (slots.assemble schema) .absent b := by
  refine (answers_foreign hschema).mono fun slots hslots => ?_
  rcases decides_assemble (v := .absent) (fun kind => says_other hslots rfl) (fun _ _ => rfl) schema with
    ⟨hany, _⟩ | hdecides
  · exact ⟨true, hany ▸ .accept fun path => rfl⟩
  · exact ⟨_, hdecides⟩

end

/-! ## Both phases -/

section

variable [Pattern.Engine] {schema : Entries} {v w : Value} {verdict : Value → Bool}

omit [Pattern.Engine] in
theorem isCompositeValue_iff : isCompositeValue v = true ↔ v.kind = some .array ∨ v.kind = some .object := by
  cases v with
  | file f =>
    simp only [isCompositeValue, Value.kind]
    split <;> simp
  | _ => simp [isCompositeValue, Value.kind]

omit [Pattern.Engine] in
/-- What equals a list or a mapping is one, of the same kind. -/
theorem composite_of_equal (hv : isCompositeValue v = true) (h : v.equal w = true) :
    w.literalKind = v.kind ∧ isCompositeValue w = true := by
  have hkind := Value.kind_eq_of_equal h
  refine ⟨?_, isCompositeValue_iff.mpr (hkind ▸ isCompositeValue_iff.mp hv)⟩
  rw [Value.literalKind, ← hkind]
  rcases isCompositeValue_iff.mp hv with h | h <;> rw [h]

omit [Pattern.Engine] in
theorem isCompositeValue_of_literalKind (hv : isCompositeValue v = true) (h : w.literalKind = v.kind) :
    isCompositeValue w = true := by
  rcases isCompositeValue_iff.mp hv with hkind | hkind
  · exact isCompositeValue_iff.mpr (.inl (kind_of_literalKind (h.trans hkind)))
  · exact isCompositeValue_iff.mpr (.inr (kind_of_literalKind (h.trans hkind)))

/-- The kind that `const` keeps and the comparison with a composite constant are `const`. -/
theorem const_of_phases (verdict : Value → Bool) (hv : isCompositeValue v = true) :
    (KindRule.const.keeps schema v && Refinement.compositeConst.clause satisfied verdict schema v) =
      constSatisfied schema v := by
  unfold KindRule.keeps Refinement.clause constSatisfied
  cases Entries.get? schema "const" with
  | none => rfl
  | some value =>
    dsimp only
    cases hequal : v.equal value with
    | true =>
      obtain ⟨hkind, hcomposite⟩ := composite_of_equal hv hequal
      rw [hkind, hcomposite]
      simp
    | false =>
      cases hkind : value.literalKind == v.kind with
      | false => rfl
      | true => rw [isCompositeValue_of_literalKind hv (eq_of_beq hkind)]; rfl

/-- The kinds that `enum` keeps and the comparison with composite members are `enum`. -/
theorem enum_of_phases (verdict : Value → Bool) (hv : isCompositeValue v = true) :
    (KindRule.enumeration.keeps schema v && Refinement.compositeEnumeration.clause satisfied verdict schema v) =
      enumSatisfied schema v := by
  unfold KindRule.keeps Refinement.clause enumSatisfied listedSchemas
  match (Entries.get? schema "enum").bind Value.items? with
  | none => rfl
  | some [] => exact Bool.and_true _
  | some (value :: values) =>
    dsimp only [Option.getD_some]
    generalize value :: values = literals
    rw [hv, Bool.not_true, Bool.or_false, Bool.eq_iff_iff, Bool.and_eq_true, Bool.or_eq_true]
    constructor
    · rintro ⟨hkept, hnone | hany⟩
      · obtain ⟨w, hw, hkind⟩ := List.any_eq_true.mp hkept
        have hcomposite := isCompositeValue_of_literalKind hv (eq_of_beq hkind)
        have hmem := List.mem_filter.mpr ⟨hw, hcomposite⟩
        rw [List.isEmpty_iff.mp hnone] at hmem
        cases hmem
      · obtain ⟨w, hw, hequal⟩ := List.any_eq_true.mp hany
        exact List.any_eq_true.mpr ⟨w, List.mem_of_mem_filter hw, hequal⟩
    · intro hany
      obtain ⟨w, hw, hequal⟩ := List.any_eq_true.mp hany
      obtain ⟨hkind, hcomposite⟩ := composite_of_equal hv hequal
      exact ⟨List.any_eq_true.mpr ⟨w, hw, beq_iff_eq.mpr hkind⟩,
        .inr (List.any_eq_true.mpr ⟨w, List.mem_filter.mpr ⟨hw, hcomposite⟩, hequal⟩)⟩

/-- What the two phases read of literals and types. -/
theorem literals_of_phases (verdict : Value → Bool) (hv : isCompositeValue v = true) :
    (kindKept schema v && (Refinement.compositeEnumeration.clause satisfied verdict schema v &&
      Refinement.compositeConst.clause satisfied verdict schema v)) =
        (typeSatisfied schema v && constSatisfied schema v && enumSatisfied schema v) := by
  have htype : KindRule.type.keeps schema v = typeSatisfied schema v := by
    have hstring : (v.kind == some .string) = false := by
      rcases isCompositeValue_iff.mp hv with h | h <;> rw [h] <;> rfl
    rw [← typeSatisfied_eq, show KindRule.clause schema v .file = true by simp [KindRule.clause, hstring], Bool.and_true]
    rfl
  rw [← const_of_phases verdict hv, ← enum_of_phases verdict hv, ← htype, kindKept]
  ac_rfl

/-- Constants of other kinds than lists and mappings are compared in the first phase already. -/
theorem const_of_first (verdict : Value → Bool) :
    (constSatisfied schema v && Refinement.compositeConst.clause satisfied verdict schema v) = constSatisfied schema v := by
  unfold Refinement.clause constSatisfied
  cases Entries.get? schema "const" with
  | none => rfl
  | some value =>
    dsimp only
    cases v.equal value with
    | true => exact Bool.or_true _
    | false => rfl

/-- A schema for what is left over says what it says anywhere. -/
theorem leftOverSatisfied_schema {keyword : String} {element : Value} (hget : Entries.get? schema keyword = some element)
    (helement : element.isSchema = true) : leftOverSatisfied satisfied schema keyword = satisfied element := by
  funext w
  rw [leftOverSatisfied, hget]
  cases element with
  | bool b => cases b <;> rfl
  | dict entries => rfl
  | _ => cases helement

theorem leftOverSatisfied_none {keyword : String} (hget : Entries.get? schema keyword = none) (w : Value) :
    leftOverSatisfied satisfied schema keyword w = true := by
  rw [leftOverSatisfied, hget]

theorem leftOverSatisfied_list {keyword : String} {schemas : List Value}
    (hget : Entries.get? schema keyword = some (.list schemas)) (w : Value) :
    leftOverSatisfied satisfied schema keyword w = true := by
  rw [leftOverSatisfied, hget]

/-- What the two phases read of `items` and `prefixItems`. -/
theorem items_of_phases (hshapes : HasShapes schema) (items : List Value) :
    (itemsRead schema items && prefixRead satisfied schema items) = (itemsSatisfied satisfied schema items &&
      positionsSatisfied satisfied (listedSchemas schema "prefixItems") items) := by
  unfold itemsRead prefixRead
  cases hhas : Entries.has schema "prefixItems" with
  | false =>
    have hlisted : listedSchemas schema "prefixItems" = [] := by
      rw [listedSchemas, Entries.has_eq_false_iff.mp hhas]
      rfl
    rw [hlisted]
    split <;> rfl
  | true =>
    rw [Bool.not_true, Bool.false_or, Bool.true_or]
    have hsame : ∀ element, Entries.get? schema "items" = some element → element.isSchema = true →
        itemsSatisfied satisfied schema items = (items.drop (listedSchemas schema "prefixItems").length).all
          (leftOverSatisfied satisfied schema "items") := by
      intro element hget helement
      rw [leftOverSatisfied_schema hget helement, itemsSatisfied, hget]
      cases element <;> first | rfl | cases helement
    cases hget : Entries.get? schema "items" with
    | none =>
      rw [List.all_eq_true.mpr fun w _ => leftOverSatisfied_none hget w, itemsSatisfied, hget, Bool.and_true]
    | some element =>
      cases element with
      | list schemas =>
        rw [List.all_eq_true.mpr fun w _ => leftOverSatisfied_list hget w, Bool.and_true]
      | bool b => rw [hsame _ hget rfl, Bool.true_and, Bool.and_comm]
      | dict entries => rw [hsame _ hget rfl, Bool.true_and, Bool.and_comm]
      | _ => cases hshapes.admits .schemaOrSchemas hget (by decide)

/-- What the two phases read of the keywords for a member. -/
theorem member_of_phases (hshapes : HasShapes schema) (key : String) (w : Value) :
    (memberRead schema key w && (!Entries.has schema "patternProperties" || patternRead satisfied schema key w)) =
      memberSatisfied satisfied schema key w := by
  have hleft : leftOverSatisfied satisfied schema "additionalProperties" w = additionalSatisfied satisfied schema w := by
    unfold additionalSatisfied
    cases hget : Entries.get? schema "additionalProperties" with
    | none => exact leftOverSatisfied_none hget w
    | some others => rw [leftOverSatisfied_schema hget (hshapes.admits .schema hget (by decide))]
  unfold memberRead patternRead memberSatisfied undeclaredRead
  rw [Entries.has, Entries.has]
  cases Entries.get? (mappedSchemas schema "properties") key with
  | some property => simp
  | none =>
    cases (Entries.get? schema "patternProperties").isSome with
    | false => simp
    | true =>
      rw [hleft]
      unfold fittingSatisfied matchingSchemas
      generalize List.filter _ _ = fitting
      cases fitting with
      | nil => simp
      | cons e es => simp [Function.comp_def]

/-- The refinements in groups. -/
theorem all_clauses (schema : Entries) (v : Value) :
    (Refinement.all.all fun refinement => refinement.clause satisfied verdict schema v) =
      (Refinement.compositeEnumeration.clause satisfied verdict schema v &&
        Refinement.compositeConst.clause satisfied verdict schema v && combinedSatisfied verdict schema &&
        (Refinement.prefixItems.clause satisfied verdict schema v && Refinement.contains.clause satisfied verdict schema v &&
        Refinement.uniqueItems.clause satisfied verdict schema v &&
        Refinement.patternProperties.clause satisfied verdict schema v)) := by
  have hsilent : ∀ refinement ∈ [Refinement.protoRequired, .default, .description],
      Refinement.clause satisfied verdict schema v refinement = true := by
    simp [Refinement.clause]
  simp only [List.forall_mem_cons] at hsilent
  obtain ⟨hproto, hdefault, hdescription, _⟩ := hsilent
  rw [show combinedSatisfied verdict schema = (Refinement.allOf.clause satisfied verdict schema v &&
    Refinement.anyOf.clause satisfied verdict schema v && Refinement.oneOf.clause satisfied verdict schema v &&
    Refinement.not.clause satisfied verdict schema v) from rfl]
  simp only [Refinement.all, List.all_cons, List.all_nil, hproto, hdefault, hdescription, Bool.true_and, Bool.and_true]
  ac_rfl

theorem refined_list (hshapes : HasShapes schema) (items : List Value) :
    (firstPhase schema (.list items) && Refinement.all.all fun r => r.clause satisfied verdict schema (.list items)) =
      (typeSatisfied schema (.list items) && constSatisfied schema (.list items) && enumSatisfied schema (.list items) &&
        arraySatisfied satisfied schema (.list items) && combinedSatisfied verdict schema) := by
  have harray : arraySatisfied satisfied schema (.list items) = (countWithin schema "minItems" "maxItems" items.length &&
      (itemsRead schema items && prefixRead satisfied schema items) && containsSatisfied satisfied schema items &&
        (!isSetTrue schema "uniqueItems" || (Value.list items).distinctItems)) := by
    rw [items_of_phases hshapes, ← Bool.and_assoc]
    rfl
  rw [all_clauses, firstPhase, harray, ← literals_of_phases verdict rfl]
  show (_ && (_ && _ && _ && (prefixRead satisfied schema items && containsSatisfied satisfied schema items &&
    (!isSetTrue schema "uniqueItems" || (Value.list items).distinctItems) && true))) = _
  rw [Bool.and_true]
  ac_rfl

theorem refined_dict (hshapes : HasShapes schema) (members : Entries) :
    (firstPhase schema (.dict members) && Refinement.all.all fun r => r.clause satisfied verdict schema (.dict members)) =
      (typeSatisfied schema (.dict members) && constSatisfied schema (.dict members) &&
        enumSatisfied schema (.dict members) && objectSatisfied satisfied schema (.dict members) &&
        combinedSatisfied verdict schema) := by
  have hmembers : ((members.all fun e => memberRead schema e.1.plain e.2) &&
      (!Entries.has schema "patternProperties" || members.all fun e => patternRead satisfied schema e.1.plain e.2)) =
        members.all fun e => memberSatisfied satisfied schema e.1.plain e.2 := by
    simp only [← member_of_phases hshapes]
    cases Entries.has schema "patternProperties" with
    | false => simp
    | true =>
      rw [Bool.eq_iff_iff]
      simp [forall_and]
  have hunique : Refinement.uniqueItems.clause satisfied verdict schema (.dict members) = true := Bool.or_true _
  rw [all_clauses, firstPhase, objectSatisfied, ← literals_of_phases verdict rfl, ← hmembers, hunique]
  show (_ && (_ && _ && _ && (true && true && true && (!Entries.has schema "patternProperties" ||
    members.all fun e => patternRead satisfied schema e.1.plain e.2)))) = _
  simp only [Bool.true_and]
  ac_rfl

theorem refined_other (hv : isCompositeValue v = false) :
    (firstPhase schema v && Refinement.all.all fun r => r.clause satisfied verdict schema v) =
      (typeSatisfied schema v && constSatisfied schema v && enumSatisfied schema v && stringSatisfied schema v &&
        numberSatisfied schema v && combinedSatisfied verdict schema) := by
  have hfirst : firstPhase schema v = (typeSatisfied schema v && constSatisfied schema v && enumSatisfied schema v &&
      stringSatisfied schema v && numberSatisfied schema v) := by
    cases v <;> first | rfl | cases hv
  have henum : Refinement.compositeEnumeration.clause satisfied verdict schema v = true := by
    simp [Refinement.clause, hv]
  -- Items and members are read in lists and mappings only.
  have hsilent : (Refinement.prefixItems.clause satisfied verdict schema v &&
      Refinement.contains.clause satisfied verdict schema v && Refinement.uniqueItems.clause satisfied verdict schema v &&
      Refinement.patternProperties.clause satisfied verdict schema v) = true := by
    cases v with
    | list => cases hv
    | dict => cases hv
    | _ => simp [Refinement.clause, distinctItems]
  rw [all_clauses, hfirst, henum, hsilent, Bool.true_and, Bool.and_true]
  conv_rhs => rw [← const_of_first verdict]
  ac_rfl

/-- **What is read in both phases is what the keywords say.** -/
theorem refined_eq_nodeSatisfied (hshapes : HasShapes schema) (v : Value) :
    (firstPhase schema v &&
      Refinement.all.all fun refinement => refinement.clause satisfied (fun s => satisfied s v) schema v) =
        nodeSatisfied satisfied schema v := by
  unfold nodeSatisfied
  cases v with
  | list items =>
    have hnumbers : numberSatisfied schema (.list items) = true := rfl
    rw [refined_list hshapes, hnumbers]
    simp only [stringSatisfied, objectSatisfied, Bool.and_true]
  | dict members =>
    have hnumbers : numberSatisfied schema (.dict members) = true := rfl
    rw [refined_dict hshapes, hnumbers]
    simp only [stringSatisfied, arraySatisfied, Bool.and_true]
  | _ =>
    rw [refined_other rfl]
    simp only [arraySatisfied, objectSatisfied, Bool.and_true]

end

/-! ## Mappings -/

/-- Whether a mapping of keywords with no `type` requires `__proto__`. -/
def requiresProto (schema : Entries) : Bool :=
  !Entries.has schema "type" && (requiredNames schema).contains "__proto__"

theorem protoRequired?_eq_none {schema : Entries} (h : requiresProto schema = false) : protoRequired? schema = none := by
  unfold requiresProto requiredNames at h
  unfold protoRequired?
  split
  next names hget =>
    rw [hget] at h
    refine if_neg fun hproto => ?_
    obtain ⟨hany, hnotype⟩ := Bool.and_eq_true_iff.mp hproto
    obtain ⟨name, hname, htext⟩ := List.any_eq_true.mp hany
    obtain rfl := isText_iff.mp htext
    have hmem : "__proto__" ∈ names.filterMap Value.text? := List.mem_filterMap.mpr ⟨_, hname, rfl⟩
    rw [hnotype, Bool.true_and, List.contains_iff_mem.mpr hmem] at h
    cases h
  next => rfl

section

variable [Pattern.Engine] {sure : Prop} {schema : Entries} {convert : Value → Except CompileError Validator}
  (hsub : ∀ s ∈ subSchemas schema, ∀ c, convert s = .ok c → Faithful sure s c) (hshapes : HasShapes schema)
  (hschema : sure → (Value.dict schema).isWritable = true)
include hsub hshapes

/-- Sub-schemas judge the absent value in some way. -/
theorem judged_absent : ∃ verdict, Judged satisfied sure schema convert .absent verdict := by
  have heach : ∀ s, ∃ b, s ∈ subSchemas schema → ∀ c, convert s = .ok c → Decides sure c .absent b := by
    intro s
    cases hc : convert s with
    | error e => exact ⟨false, fun _ c hc => by cases hc⟩
    | ok c =>
      by_cases hs : s ∈ subSchemas schema
      · obtain ⟨b, hb⟩ := (hsub s hs c hc).absent
        refine ⟨b, fun _ d hd => ?_⟩
        obtain rfl := Except.ok.inj hd
        exact hb
      · exact ⟨false, fun h => absurd h hs⟩
  choose verdict hverdict using heach
  exact ⟨verdict, {
    shapes := hshapes
    sub := fun s hs c hc => (hsub s hs c hc).decides
    judges := hverdict
    merged := rfl
    items := by simp
    members := by simp }⟩

include hschema

/-- **One mapping of keywords**, from what is known about its sub-schemas. -/
theorem faithful_node (hproto : requiresProto schema = false) (hdefault : Entries.has schema "default" = false) :
    Answers False (compileNode (fun _ => .ok ()) convert schema) (Faithful sure (.dict schema)) := by
  have hproto := protoRequired?_eq_none hproto
  have hdefault := Entries.has_eq_false_iff.mp hdefault
  refine .of_meets fun vd hvd => ⟨fun w hjson hwritable => ?_, ?_⟩
  · have hjudged : Judged satisfied sure schema convert w fun s => satisfied s w :=
      judged_json (fun s hs c hc => (hsub s hs c hc).decides) hshapes hjson hwritable
    rw [satisfied_dict, ← refined_eq_nodeSatisfied hshapes]
    have hnode : Answers False (compileNode (fun _ => .ok ()) convert schema) fun vd => Decides sure vd w
        (firstPhase schema w && Refinement.all.all fun r => r.clause satisfied (fun s => satisfied s w) schema w) :=
      .bind (decides_firstPhase hsub hshapes hschema hjson hwritable) fun slots hslots =>
        decides_refinements hjudged hdefault hslots Refinement.all fun _ => hproto
    exact hnode.meets vd hvd
  · obtain ⟨verdict, hjudged⟩ := judged_absent hsub hshapes
    have hnode : Answers False (compileNode (fun _ => .ok ()) convert schema) fun vd => ∃ b, Decides sure vd .absent b := by
      refine .bind (decides_firstPhase_absent hschema) ?_
      rintro slots ⟨b, hslots⟩
      exact (decides_refinements hjudged hdefault hslots Refinement.all fun _ => hproto).mono fun vd hvd => ⟨_, hvd⟩
    exact hnode.meets vd hvd

end

/-! ## Schemas -/

theorem faithful_bool [Pattern.Engine] (sure : Prop) (b : Bool) :
    Faithful sure (.bool b) (if b then .any else .never) := by
  cases b with
  | true => exact ⟨fun w _ _ => .accept fun path => rfl, ⟨true, .accept fun path => rfl⟩⟩
  | false => exact ⟨fun w _ _ => .reject fun path => ⟨_, rfl⟩, ⟨false, .reject fun path => ⟨_, rfl⟩⟩⟩

/-- **The validator of a schema decides what the schema says.** -/
theorem compile_faithful [Pattern.Engine] {sure : Prop} {schema : Value} {vd : Validator} (h : compile schema = .ok vd)
    (hshapes : Everywhere HasShapes schema) (hdefaults : NoDefaults schema)
    (hproto : Everywhere (fun entries => requiresProto entries = false) schema)
    (hschema : sure → schema.isWritable = true) : Faithful sure schema vd := by
  revert hshapes hdefaults hproto hschema
  refine compile_induction ?_ ?_ h
  · intro b _ _ _ _
    exact faithful_bool sure b
  · intro convert schema hsub vd hvd hshapes hdefaults hproto hschema
    have hsub' : ∀ s ∈ subSchemas schema, ∀ c, convert s = .ok c → Faithful sure s c := fun s hs c hc =>
      hsub s hs c hc (hshapes.inside hs) (hdefaults.inside hs) (hproto.inside hs) fun hsure =>
        isWritable_of_mem_subSchemas (hschema hsure) hs
    exact (faithful_node hsub' hshapes.here hschema hproto.here hdefaults.here).meets vd hvd

/-! ### A limit that cannot be written -/

/-- Lists with at least some number of items. -/
def longLists (limit : Int) : Entries := [(.string "type", .string "array"), (.string "minItems", .int limit)]

/-- Lists with fewer items. -/
def shortLists (limit : Int) : Entries := [(.string "type", .string "array"), (.string "not", .dict (longLists limit))]

section

variable {limit : Int}

theorem everywhere_shortLists {holds : Entries → Prop} (hshort : holds (shortLists limit)) (hlong : holds (longLists limit)) :
    Everywhere holds (.dict (shortLists limit)) := by
  have hinside : subSchemas (shortLists limit) = [.dict (longLists limit)] := by with_unfolding_all rfl
  have hnone : subSchemas (longLists limit) = [] := by with_unfolding_all rfl
  refine .mapping hshort ?_
  rw [hinside]
  refine List.forall_mem_singleton.mpr (.mapping hlong ?_)
  rw [hnone]
  exact List.forall_mem_nil _

theorem hasShapes_longLists (hlimit : 0 < limit) : HasShapes (longLists limit) := by
  rw [hasShapes_iff]
  simp [keywordShapes, longLists, Entries.get?, KeywordShape.admits, isString, text?, Int.le_of_lt hlimit]

/-- The empty list is short. -/
theorem satisfied_shortLists [Pattern.Engine] (hlimit : 0 < limit) :
    satisfied (.dict (shortLists limit)) (.list []) = true := by
  have hlong : satisfied (.dict (longLists limit)) (.list []) = false := by
    rw [satisfied_dict]
    simp [nodeSatisfied, longLists, arraySatisfied, countWithin, countSatisfied, Entries.get?, Int.not_le.mpr hlimit]
  rw [satisfied_dict]
  show (_ && (_ && _ && _ && !satisfied (.dict (longLists limit)) (.list []))) = true
  rw [hlong]
  rfl

theorem compile_shortLists [Pattern.Engine] (limit : Int) :
    compile (.dict (shortLists limit)) = .ok (.refined (.array .any {})
      (.rejectedBy (.array .any ⟨some (.int limit), none⟩)) "Value must not match the negated schema") := by
  with_unfolding_all rfl

/-- What a long list is missing cannot be said, so there is no answer about a short one. -/
theorem accepts_shortLists (hlimit : 0 < limit) (hlong : isWritableInt limit = false) (message : String) :
    (Validator.refined (.array .any {}) (.rejectedBy (.array .any ⟨some (.int limit), none⟩)) message).accepts (.list []) =
      .error .noValue := by
  have hplain : (Value.int limit).plain? = .error .noValue := by
    rw [plain?, isWritable, hlong]
    rfl
  have hissues : lengthIssues (m := Except Fault) 0 ⟨some (.int limit), none⟩ [] = .error .noValue := by
    unfold lengthIssues
    dsimp only
    rw [orFault_except, related_int, Relation.ofInts, decide_eq_true (show ((0 : Nat) : Int) < limit from hlimit)]
    have hshort : ∀ rest : Bool → Except Fault (List Issue), (Except.ok true >>= rest) = rest true := fun _ => rfl
    rw [hshort, if_pos rfl, Option.getD_some, orFault_except, hplain]
    rfl
  have hlong : (Validator.array .any ⟨some (.int limit), none⟩).check (.list []) [] = .error .noValue := by
    show (lengthIssues (m := Except Fault) 0 ⟨some (.int limit), none⟩ [] >>= _) = _
    rw [hissues]
    rfl
  have htest : (Test.rejectedBy (.array .any ⟨some (.int limit), none⟩)).holds (.list []) = .error .noValue := by
    show (Validator.check _ _ _ >>= _) = _
    rw [hlong]
    rfl
  have hcheck : (Validator.refined (.array .any {}) (.rejectedBy (.array .any ⟨some (.int limit), none⟩)) message).check
      (.list []) [] = .error .noValue := by
    show (Test.holds _ (.list []) >>= _) = _
    rw [htest]
    rfl
  rw [Validator.accepts, hcheck]
  rfl

end

/-! ### Correctness -/

/-- **Compilation is correct.** The validator of a well-formed schema accepts the values of JSON that satisfy it.
Numbers with very many digits can be compared but not written, so with them there may be no answer. -/
theorem compile_correct [Pattern.Engine] {schema v : Value} {vd : Validator} (hcompile : compile schema = .ok vd)
    (hschema : WellFormed schema) (hdefaults : NoDefaults schema)
    (hproto : Everywhere (fun entries => requiresProto entries = false) schema) (hv : v.IsJson) :
    (∀ b, vd.accepts v = .ok b → b = satisfied schema v) ∧
      (schema.isWritable = true → v.isWritable = true → vd.accepts v = .ok (satisfied schema v)) := by
  have hfaithful : Faithful (schema.isWritable = true ∧ v.isWritable = true) schema vd :=
    compile_faithful hcompile hschema.shapes hdefaults hproto And.left
  have haccepts : Answers (schema.isWritable = true ∧ v.isWritable = true) (vd.accepts v) (· = satisfied schema v) :=
    .map (hfaithful.decides v hv And.right []) fun r hr => hr.1
  refine ⟨haccepts.meets, fun hwritable hvwritable => ?_⟩
  obtain ⟨b, hb, rfl⟩ := haccepts.answer ⟨hwritable, hvwritable⟩
  exact hb

attribute [local instance] Pattern.engine

/-- An object with a required member of its own type. -/
theorem compile_correct_object :
    let schema := Value.dict [(.string "type", .string "object"), (.string "required", .list [.string "a"]),
      (.string "properties", .dict [(.string "a", .dict [(.string "type", .string "null")])])]
    let v := Value.dict [(.string "a", .null)]
    ∃ vd, compile schema = .ok vd ∧ satisfied schema v = true ∧ vd.accepts v = .ok true := by
  intro schema v
  have hinside : ∀ {holds : Entries → Prop}, holds [(.string "type", .string "null")] →
      ∀ s ∈ [Value.dict [(.string "type", .string "null")]], Everywhere holds s := fun h =>
    List.forall_mem_singleton.mpr (.mapping h (List.forall_mem_nil _))
  have hshapes : ∀ entries, (keywordShapes.all fun k => (Entries.get? entries k.1).all k.2.admits) = true → HasShapes entries :=
    fun _ => hasShapes_iff.mpr
  have hcompile : compile schema = .ok (.object [.mk (.string "a") true .null] .passthrough {}) := by
    with_unfolding_all rfl
  have hv : v.IsJson := .dict ⟨by simp, by simp⟩ (List.forall_mem_singleton.mpr (.leaf rfl rfl rfl))
  have hsatisfied : satisfied schema v = true := by with_unfolding_all rfl
  have hcorrect := compile_correct hcompile ⟨rfl, .mapping (hshapes _ rfl) (hinside (hshapes _ rfl))⟩
    (.mapping rfl (hinside rfl)) (.mapping rfl (hinside rfl)) hv
  exact ⟨_, hcompile, hsatisfied, hsatisfied ▸ hcorrect.2 rfl rfl⟩

/-- With a limit that cannot be written there is no answer about an empty list, which satisfies the schema. -/
theorem compile_unanswered :
    let schema := Value.dict (shortLists (10 ^ digitLimit))
    WellFormed schema ∧ NoDefaults schema ∧ Everywhere (fun entries => requiresProto entries = false) schema ∧
      (Value.list []).IsJson ∧ (Value.list []).isWritable = true ∧ satisfied schema (.list []) = true ∧
        ∃ vd, compile schema = .ok vd ∧ vd.accepts (.list []) = .error .noValue := by
  intro schema
  have hlimit : (0 : Int) < 10 ^ digitLimit := Int.pow_pos (by decide)
  have hshapes : HasShapes (shortLists (10 ^ digitLimit)) := hasShapes_iff.mpr (by with_unfolding_all rfl)
  refine ⟨⟨rfl, everywhere_shortLists hshapes (hasShapes_longLists hlimit)⟩, everywhere_shortLists rfl rfl,
    everywhere_shortLists rfl rfl, .list (List.forall_mem_nil _), rfl, satisfied_shortLists hlimit, _,
    compile_shortLists _, accepts_shortLists hlimit isWritableInt_pow _⟩

end Schemata
