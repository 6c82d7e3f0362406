import Schemata.Proofs.Schema.Composites

/-!
# `Schemata.Proofs.Schema.Arrays` — the first phase on lists

Lists have two slots. Positional items fill the slot of tuples and disable that of arrays; without them arrays take
their bounds and the validator of their elements, and tuples have none. So one of the two slots speaks, and it says
what the keywords of arrays say, except for those that the second phase reads.

## Contents
- **Tuples.** The slot of tuples before positional items are read.
- **Positional items.** `says_tupleSteps`.
- **Arrays.** `itemsRead`, `says_itemsSteps`, and `listSays_all` for both slots.
-/

namespace Schemata

open Value

/-! ## Tuples -/

section

variable {slots : Admissibility} {schema : Entries} {v : Value} {b : Bool}

theorem Value.literalKind_ne_tuple (w : Value) : w.literalKind ≠ some .tuple := by
  intro h
  have hkind := tagAdmits_of_kind (kind_of_literalKind h)
  rw [kind_of_literalKind h] at hkind
  cases hkind

/-- The slot of tuples is disabled, or left as it is. -/
def TupleLeft (slots slots' : Admissibility) (kept : Bool) : Prop :=
  match kept with
  | true => slots' .tuple = slots .tuple
  | false => slots' .tuple = .disabled

theorem tuple_const (hkind : v.kind = some .array) :
    Answers False (constSteps (m := Except CompileError) (fun _ => .ok ()) schema) fun steps =>
      TupleLeft .initial (Admissibility.initial.run steps) (KindRule.const.keeps schema v) := by
  unfold constSteps KindRule.keeps
  cases Entries.get? schema "const" with
  | none => exact .pure rfl
  | some value =>
    dsimp only
    rw [hkind]
    split
    next hliteral =>
      rw [hliteral]
      exact .bind (.trivial _) fun text _ => .bind (.trivial _) fun _ _ => .pure rfl
    next kind hliteral =>
      rw [hliteral]
      have hne : kind ≠ .tuple := fun h => value.literalKind_ne_tuple (h ▸ hliteral)
      -- arrays are pending or keep their literal; either way the second step is not about tuples
      have hrest : ∀ slots : Admissibility,
          slots.run [if isComposite kind then .markPending kind else .set kind (literalValidator kind [value])] .tuple
            = slots .tuple := by
        intro slots
        refine Admissibility.run_other (List.forall_mem_singleton.mpr ?_)
        split <;> exact beq_false_of_ne hne
      refine .pure ?_
      cases kind with
      | tuple => exact (hne rfl).elim
      | _ => exact hrest _

theorem tuple_enum (hkind : v.kind = some .array) :
    TupleLeft slots (slots.run (enumSteps slots schema)) (KindRule.enumeration.keeps schema v) := by
  unfold KindRule.keeps
  match hget : (Entries.get? schema "enum").bind Value.items? with
  | none =>
    rw [enumSteps_none hget]
    rfl
  | some [] =>
    rw [enumSteps_empty hget]
    dsimp only
    cases Entries.has schema "type" <;> rfl
  | some (value :: values) =>
    dsimp only
    rw [hkind]
    have hscalar : ∀ step ∈ [Kind.string, .number, .boolean, .null].map (scalarEnumStep slots (value :: values)),
        step.touches .tuple = false :=
      List.forall_mem_map.mpr fun kind hk => touches_scalarEnumStep (by rintro rfl; simp at hk)
    have hcomposite : ∀ step ∈ [Kind.array, .object].map (compositeEnumStep (value :: values)),
        step.touches .tuple = false :=
      List.forall_mem_map.mpr fun kind hk => touches_compositeEnumStep (by rintro rfl; simp at hk)
    unfold enumSteps
    rw [hget]
    dsimp only
    rw [isEmpty_membersOf]
    -- tuples are disabled with arrays, when no member is a list
    rcases Bool.eq_false_or_eq_true ((value :: values).any fun value => value.literalKind == some .array)
      with hany | hany
    · rw [hany]
      refine Admissibility.run_other (List.forall_mem_append.mpr ⟨?_, List.forall_mem_singleton.mpr rfl⟩)
      rw [if_neg (by decide), List.append_nil]
      exact List.forall_mem_append.mpr ⟨hscalar, hcomposite⟩
    · rw [hany, if_pos (by decide)]
      show Admissibility.run _ _ .tuple = .disabled
      rw [Admissibility.run, List.foldl_append, List.foldl_append]
      rfl

theorem contains_tuple (names : List String) :
    (names.flatMap typeKinds).contains .tuple = (names.flatMap typeKinds).contains .array := by
  have hname : ∀ name, Kind.tuple ∈ typeKinds name ↔ Kind.array ∈ typeKinds name := by
    intro name
    unfold typeKinds
    split <;> decide
  rw [Bool.eq_iff_iff]
  simp only [List.contains_iff_mem, List.mem_flatMap, hname]

theorem tuple_type (hkind : v.kind = some .array) :
    TupleLeft slots (slots.run (typeSteps schema)) (KindRule.type.keeps schema v) := by
  unfold typeSteps KindRule.keeps
  cases Entries.has schema "type" with
  | false => rfl
  | true =>
    rw [if_pos rfl, Bool.not_true, Bool.false_or, ← contains_flatMap_typeKinds rfl hkind (by decide), ← contains_tuple]
    dsimp only
    have hrest : ∀ step ∈ (if (declaredTypes schema).contains "integer" && !(declaredTypes schema).contains "number"
        then [Step.update .number fun vd => .refined vd .integral "Expected integer, received float"] else []),
        step.touches .tuple = false := by
      intro step hstep
      split at hstep
      · rw [List.mem_singleton.mp hstep]
        rfl
      · cases hstep
    have hkept : slots.apply (.disableAllExcept ((declaredTypes schema).flatMap typeKinds)) .tuple =
        if ((declaredTypes schema).flatMap typeKinds).contains .tuple then slots .tuple else .disabled := rfl
    have hrun := (Admissibility.run_other hrest).trans hkept
    rcases Bool.eq_false_or_eq_true (((declaredTypes schema).flatMap typeKinds).contains .tuple) with htuple | htuple
    · rw [htuple]
      exact hrun.trans (if_pos htuple)
    · rw [htuple]
      exact hrun.trans (if_neg (by rw [htuple]; decide))

/-- What is known of arrays and tuples before the keywords of arrays are read. -/
structure OpenedArray (slots : Admissibility) (b : Bool) : Prop where
  array : Opened slots .array b
  tuple : slots .tuple = if b then .unset else .disabled

theorem TupleLeft.and {slots' : Admissibility} {c : Bool} (h : TupleLeft slots slots' c)
    (hslots : slots .tuple = if b then .unset else .disabled) :
    slots' .tuple = if b && c then .unset else .disabled := by
  cases c with
  | true =>
    rw [Bool.and_true]
    exact Eq.trans h hslots
  | false =>
    rw [Bool.and_false]
    exact h

variable {convert : Value → Except CompileError Validator} (hkind : v.kind = some .array)
include hkind

theorem openedArray_rule [Pattern.Engine] (h : OpenedArray slots b) {rule : KindRule} (hrule : rule ∈ KindRule.opening) :
    Answers False (rule.steps (fun _ => .ok ()) convert slots schema) fun steps =>
      OpenedArray (slots.run steps) (b && rule.keeps schema v) := by
  have hother : ∀ rule : KindRule, Kind.tuple ∉ rule.kinds → rule.keeps schema v = true →
      ∀ steps, rule.steps (fun _ => .ok ()) convert slots schema = .ok steps →
      slots.run steps .tuple = if b && rule.keeps schema v then .unset else .disabled := by
    intro rule hkinds hkeeps steps hsteps
    rw [hkeeps, Bool.and_true, (steps_other rule hkinds).meets steps hsteps]
    exact h.tuple
  have harray : Answers False (rule.steps (fun _ => .ok ()) convert slots schema) fun steps =>
      Opened (slots.run steps) .array (b && rule.keeps schema v) := opened_rule rfl hkind rfl h.array hrule
  refine (harray.and fun steps hsteps => ?_).mono fun steps hsteps => ⟨hsteps.1, hsteps.2⟩
  -- only `enum` and `type` are about tuples
  cases rule with
  | enumeration =>
    obtain rfl := Except.ok.inj hsteps
    exact (tuple_enum hkind).and h.tuple
  | type =>
    obtain rfl := Except.ok.inj hsteps
    exact (tuple_type hkind).and h.tuple
  | const | tuple | minItems | maxItems | items | properties | maxProperties | minProperties =>
    simp [KindRule.opening] at hrule
  | _ => exact hother _ (by decide) rfl steps hsteps

/-- **Tuples follow arrays** up to the keywords of arrays. -/
theorem openedArray_opening [Pattern.Engine] :
    Answers False (KindRule.runAll (fun _ => .ok ()) convert schema (.const :: KindRule.opening) .initial) fun slots =>
      OpenedArray slots (kindKept schema v) := by
  rw [KindRule.runAll]
  have hconst : Answers False (constSteps (m := Except CompileError) (fun _ => .ok ()) schema) _ :=
    (opened_const rfl hkind rfl).and (tuple_const hkind).meets
  refine .bind hconst fun steps hsteps => ?_
  rw [kindKept_eq]
  refine KindRule.runAll_and OpenedArray (KindRule.keeps schema v)
    (fun rule hrule slots b h => openedArray_rule hkind h hrule) ⟨hsteps.1, ?_⟩
  have htuple := hsteps.2.and (b := true) rfl
  rwa [Bool.true_and] at htuple

end

/-! ## Positional items -/

section

variable {sure : Prop} {slots : Admissibility} {schema : Entries} {items : List Value} {b : Bool}
  {convert : Value → Except CompileError Validator}

/-- Whether a limit stands in a relation to a size. -/
def limitRelated (relation : Relation) (limit : Option Value) (size : Nat) : Except Fault Bool :=
  match limit with
  | some limit => Value.related relation limit (.int size)
  | none => pure false

theorem isImpossible_eq (size : Nat) (bounds : Bounds) :
    isImpossible size bounds = limitRelated .greater bounds.least size >>= fun short =>
      if short then pure true else limitRelated .less bounds.most size := by
  obtain ⟨least, most⟩ := bounds
  cases least <;> rfl

theorem answers_limitRelated {relation : Relation} {limit : Option Value} {size : Nat}
    (hlimit : ∀ w, limit = some w → ∃ n, w = .int n) :
    Answers False (limitRelated relation limit size) fun outside =>
      outside = !limitHolds limit fun n => !relation.ofInts n size := by
  cases limit with
  | none => exact .pure rfl
  | some limit =>
    obtain ⟨n, rfl⟩ := hlimit limit rfl
    rw [limitRelated, related_int]
    exact .ok (by simp [limitHolds])

/-- Whether a tuple of a fixed size lies outside its bounds. -/
theorem answers_isImpossible {bounds : Bounds} (hbounds : bounds.AreCounts sure) (size : Nat) :
    Answers False (isImpossible size bounds) fun impossible => impossible = !bounds.allow size := by
  rw [isImpossible_eq, Bounds.allow, Bool.not_and]
  refine .bind (answers_limitRelated fun w hw => (hbounds.least w hw).isInt) fun short hshort => ?_
  simp only [Relation.not_greater] at hshort
  rw [← hshort]
  cases short with
  | true => exact .pure rfl
  | false =>
    refine (answers_limitRelated fun w hw => (hbounds.most w hw).isInt).mono fun long hlong => ?_
    simp only [Relation.not_less] at hlong
    rw [hlong, Bool.false_or]

/-- The validator that is put into an open slot of tuples. -/
theorem admitted?_setTuple (h : slots .tuple = .unset) (vd : Validator) :
    (slots.run [.set .tuple vd, .disable .array]).admitted? .tuple = some vd := by
  have hslot : slots.run [.set .tuple vd, .disable .array] .tuple = .holds vd := by
    have hopen : (slots .tuple).isDisabled = false := by rw [h]; rfl
    rw [Admissibility.run, List.foldl_cons, List.foldl_cons, List.foldl_nil,
      Admissibility.apply_other (show Step.touches .tuple (.disable .array) = false from rfl), Admissibility.apply,
      if_neg (by rw [hopen]; decide)]
    exact Admissibility.fill_self _
  rw [Admissibility.admitted?, Admissibility.current?, hslot]
  rfl

variable [Pattern.Engine] (hsub : ∀ s ∈ subSchemas schema, ∀ c, convert s = .ok c → Faithful sure s c)

/-- What the validator for further items has to be for what a schema says about them. -/
structure RestReads (sure : Prop) (schema : Entries) (rest : Option Validator) (others : Value → Bool) : Prop where
  decides : ∀ c, rest = some c → ∀ w : Value, w.IsJson → (sure → w.isWritable = true) → Decides sure c w (others w)
  fits : ∀ size items, restSatisfied satisfied schema size items = Decides.sizeFits rest.isSome size others items

include hsub in
/-- What becomes of further items. -/
theorem answers_restValidator :
    Answers False (restValidator convert schema) fun rest => ∃ others, RestReads sure schema rest others := by
  unfold restValidator
  match hget : Entries.get? schema "additionalItems" with
  | some (.bool true) =>
    refine .pure ⟨fun _ => true, ?_, fun size items => ?_⟩
    · intro c hc w _ _
      obtain rfl := Option.some.inj hc
      exact .accept fun path => rfl
    · rw [restSatisfied, hget]
      simp [Decides.sizeFits]
  | some (.dict entries) =>
    have hmem : Value.dict entries ∈ subSchemas schema :=
      mem_subSchemas .schema hget (by decide) (List.mem_singleton.mpr rfl)
    refine .bind (.of_meets (hsub _ hmem)) fun c hc => .pure ⟨satisfied (.dict entries), ?_, fun size items => ?_⟩
    · intro d hd
      obtain rfl := Option.some.inj hd
      exact hc.decides
    · rw [restSatisfied, hget]
      rfl
  | none | some (.bool false) | some .absent | some .null | some (.int _) | some (.float _) | some (.string _)
  | some (.list _) | some (.tuple _) | some (.set _) | some (.file _) | some (.date _) | some (.timestamp _) =>
    refine .pure ⟨fun _ => true, fun c hc => (by cases hc), fun size items => ?_⟩
    rw [restSatisfied, hget]
    rfl

include hsub in
/-- What a list of positional items says while arrays are admitted: a tuple speaks instead, or nothing does because
no number of items is right. -/
theorem tupleSteps_cases (hbounds : (givenBounds schema "minItems" "maxItems").AreCounts sure) {schemas : List Value}
    (hitems : Entries.get? schema "items" = some (.list schemas)) (hopen : (slots .array).isDisabled = false) :
    Answers False (tupleSteps (fun _ => .ok ()) convert slots schema) fun steps =>
      ∃ done rest others, Visits schemas (Faithful sure) done ∧ RestReads sure schema rest others ∧
        (steps = [.set .tuple (.tuple (done.map Prod.snd) rest (givenBounds schema "minItems" "maxItems")),
            .disable .array] ∨
          rest = none ∧ (givenBounds schema "minItems" "maxItems").allow done.length = false ∧
            steps = [.disable .tuple, .disable .array]) := by
  have heach : ∀ s ∈ schemas, Answers False (convert s) (Faithful sure s) := fun s hs =>
    .of_meets (hsub s (mem_subSchemas .schemaOrSchemas hitems (by decide) hs))
  have hlisted : ∀ {items}, Entries.get? schema "items" = some (.list items) → items = schemas := fun hget =>
    Value.list.inj (Option.some.inj (hget.symm.trans hitems))
  refine answers_tupleSteps.mono fun steps hsteps => ?_
  cases hsteps with
  | single unlisted => exact (unlisted schemas hitems).elim
  | refused _ disabled => exact (Bool.false_ne_true (hopen.symm.trans disabled)).elim
  | @tuple _ _ rest listed _ each beyond =>
    obtain rfl := hlisted listed
    obtain ⟨done, hdone, rfl⟩ := (answers_mapM _ heach).meets _ each
    obtain ⟨others, hrest⟩ := (answers_restValidator hsub).meets rest beyond
    exact ⟨done, rest, others, hdone, hrest, .inl rfl⟩
  | impossible listed _ each beyond outside =>
    obtain rfl := hlisted listed
    obtain ⟨done, hdone, rfl⟩ := (answers_mapM _ heach).meets _ each
    obtain ⟨others, hrest⟩ := (answers_restValidator hsub).meets none beyond
    rw [List.length_map] at outside
    have himpossible := (answers_isImpossible hbounds done.length).meets true outside
    exact ⟨done, none, others, hdone, hrest, .inr ⟨rfl, by simpa using himpossible.symm, rfl⟩⟩

variable (hshapes : HasShapes schema) (hschema : sure → (Value.dict schema).isWritable = true)
  (hjson : (Value.list items).IsJson) (hwritable : sure → (Value.list items).isWritable = true)
include hsub hshapes hschema hjson hwritable

/-- **A list of positional items** makes tuples speak for lists, and arrays silent. -/
theorem says_tupleSteps (h : OpenedArray slots b) {schemas : List Value}
    (hitems : Entries.get? schema "items" = some (.list schemas)) :
    Answers False (tupleSteps (fun _ => .ok ()) convert slots schema) fun steps =>
      (slots.run steps .array).isDisabled = true ∧ Says sure (slots.run steps) (.list items) .tuple
        (b && (countWithin schema "minItems" "maxItems" items.length && itemsSatisfied satisfied schema items)) := by
  have hdisabled : (slots .array).isDisabled = !b := by
    rw [Admissibility.isDisabled_eq rfl, h.array]
    cases b <;> rfl
  cases b with
  | false =>
    -- lists have been refused before, and the rule does nothing
    have htuple : slots.admitted? .tuple = none := by rw [Admissibility.admitted?, h.tuple]; rfl
    have hsteps : tupleSteps (m := Except CompileError) (fun _ => .ok ()) convert slots schema = .ok [] := by
      unfold tupleSteps
      rw [hitems]
      exact if_pos hdisabled
    rw [hsteps]
    refine .ok ⟨hdisabled, ?_⟩
    show Speaks sure (slots.admitted? .tuple) _ _
    rw [htuple]
    exact Bool.false_and _
  | true =>
    have hbounds : (givenBounds schema "minItems" "maxItems").AreCounts sure :=
      givenBounds_areCounts hshapes (by decide) (by decide) hschema
    have hallow := givenBounds_allow hshapes (show ("minItems", _) ∈ keywordShapes by decide)
      (show ("maxItems", _) ∈ keywordShapes by decide)
    refine (tupleSteps_cases hsub hbounds hitems hdisabled).mono ?_
    rintro steps ⟨done, rest, others, hdone, hrest, hsteps⟩
    have hclause : itemsSatisfied satisfied schema items =
        (Decides.sizeFits rest.isSome done.length others items && positionsSatisfied satisfied schemas items) := by
      have hlength : done.length = schemas.length := by rw [← hdone.args, List.length_map]
      rw [itemsSatisfied, hitems, hlength, ← hrest.fits]
    rw [Bool.true_and, hclause, Bool.and_left_comm]
    rcases hsteps with rfl | ⟨rfl, himpossible, rfl⟩
    · have hitem : ∀ w ∈ items, w.IsJson ∧ (sure → w.isWritable = true) := fun w hw =>
        ⟨hjson.item hw, fun hsure => Value.isWritable_item (hwritable hsure) hw⟩
      have hdecides := Decides.tuple satisfied hbounds
        (fun p hp w hw => (hdone.fits p hp).decides w (hitem w hw).1 (hitem w hw).2)
        (fun c hc w hw => hrest.decides c hc w (hitem w hw).1 (hitem w hw).2)
      rw [hallow, hdone.args] at hdecides
      refine ⟨rfl, ?_⟩
      rw [Says, admitted?_setTuple h.tuple]
      exact hdecides
    · -- no number of items is right: a list of the right length for the schemas breaks the bounds
      refine ⟨rfl, ?_⟩
      have hslot : Admissibility.run slots [.disable .tuple, .disable .array] .tuple = .disabled := rfl
      rw [Says, Admissibility.admitted?, hslot]
      show ((items.length == done.length) && _) = false
      by_cases hlength : items.length = done.length
      · rw [hallow, ← hlength] at himpossible
        rw [himpossible, Bool.false_and, Bool.and_false]
      · rw [beq_false_of_ne hlength, Bool.false_and]

end

/-! ## Arrays -/

section

variable [Pattern.Engine] {sure : Prop} {slots : Admissibility} {schema : Entries} {items : List Value} {b : Bool}
  {convert : Value → Except CompileError Validator}

/-- An array, if lists are admitted. -/
def HoldsArray (slots : Admissibility) (element : Validator) (bounds : Bounds) (b : Bool) : Prop :=
  slots.admitted? .array = if b then some (.array element bounds) else none

omit [Pattern.Engine] in
theorem HoldsArray.update {element : Validator} {bounds : Bounds} (h : HoldsArray slots element bounds b)
    {build : Validator → Validator} {element' : Validator} {bounds' : Bounds}
    (hbuild : build (.array element bounds) = .array element' bounds') :
    HoldsArray (slots.run [.update .array build]) element' bounds' b := by
  unfold HoldsArray at h ⊢
  rw [Admissibility.admitted?_run rfl, List.foldl_cons, List.foldl_nil, Step.act, if_pos rfl, h, ← hbuild]
  cases b <;> rfl

/-- The bounds on the number of items, one keyword after the other. -/
theorem HoldsArray.itemBounds {element : Validator} (h : HoldsArray slots element {} b) :
    Answers False (KindRule.runAll (fun _ => .ok ()) convert schema [.minItems, .maxItems] slots) fun slots =>
      HoldsArray slots element (givenBounds schema "minItems" "maxItems") b := by
  have hleast : HoldsArray (slots.run (itemBoundSteps schema "minItems" fun limit => ⟨some limit, none⟩)) element
      ⟨Entries.given? schema "minItems", none⟩ b := by
    unfold itemBoundSteps
    cases Entries.given? schema "minItems" with
    | none => exact h
    | some limit => exact h.update rfl
  refine .ok ?_
  show HoldsArray (Admissibility.run _ (itemBoundSteps schema "maxItems" fun limit => ⟨none, some limit⟩)) _ _ _
  unfold itemBoundSteps givenBounds
  cases Entries.given? schema "maxItems" with
  | none => exact hleast
  | some limit => exact hleast.update (by cases Entries.given? schema "minItems" <;> rfl)

/-- What the first phase makes of `items`: beside `prefixItems`, only a list counts. -/
def itemsRead (schema : Entries) (items : List Value) : Bool :=
  match Entries.get? schema "items" with
  | some (.list _) => itemsSatisfied satisfied schema items
  | _ => Entries.has schema "prefixItems" || itemsSatisfied satisfied schema items

theorem itemsRead_none (hget : Entries.get? schema "items" = none) :
    itemsRead schema items = items.all fun _ => true := by
  rw [itemsRead, hget, itemsSatisfied, hget, List.all_eq_true.mpr fun _ _ => rfl]
  exact Bool.or_true _

section

variable {element : Value} (hget : Entries.get? schema "items" = some element)
  (hitems : ∀ schemas, Entries.get? schema "items" ≠ some (.list schemas))
include hget hitems

theorem itemsRead_beside (hhas : Entries.has schema "prefixItems" = true) :
    itemsRead schema items = items.all fun _ => true := by
  rw [itemsRead, hget, hhas, List.all_eq_true.mpr fun _ _ => rfl]
  cases element with
  | list schemas => exact (hitems schemas hget).elim
  | _ => rfl

theorem itemsRead_single (hhas : Entries.has schema "prefixItems" = false) :
    itemsRead schema items = items.all (satisfied element) := by
  have hlisted : listedSchemas schema "prefixItems" = [] := by
    rw [listedSchemas, Entries.has_eq_false_iff.mp hhas]
    rfl
  rw [itemsRead, hget, itemsSatisfied, hget, hhas, hlisted]
  cases element with
  | list schemas => exact (hitems schemas hget).elim
  | _ => rfl

end

omit [Pattern.Engine] in
theorem isCount_zero : IsCount sure (.int 0) where
  isInt := ⟨0, rfl⟩
  writable := fun _ => by
    rw [isWritable, isWritableInt]
    exact decide_eq_true (Nat.pow_pos (by decide))

/-- Where there may be no items, the greatest number of items does not matter. -/
theorem allow_zero (hshapes : HasShapes schema) (items : List Value) :
    (Bounds.allow ⟨Entries.given? schema "minItems", some (.int 0)⟩ items.length && items.all fun _ => true) =
      (countWithin schema "minItems" "maxItems" items.length && items.all (satisfied (.bool false))) := by
  unfold Bounds.allow countWithin
  dsimp only
  rw [limitHolds_given hshapes (by decide)]
  cases items with
  | nil =>
    have hmost : countSatisfied schema "maxItems" (fun limit => decide (((0 : Nat) : Int) ≤ limit)) = true := by
      unfold countSatisfied
      split
      next limit hget => exact hshapes.admits .count hget (by decide)
      next => rfl
    rw [List.length_nil, hmost]
    rfl
  | cons w ws =>
    have hpositive : limitHolds (some (.int 0)) (fun limit => decide (((w :: ws).length : Int) ≤ limit)) = false := by
      show decide (((w :: ws).length : Int) ≤ 0) = false
      exact decide_eq_false (by rw [List.length_cons]; omega)
    simp only [hpositive, List.all_cons, satisfied_bool, Bool.false_and, Bool.and_false]

variable (hsub : ∀ s ∈ subSchemas schema, ∀ c, convert s = .ok c → Faithful sure s c)
  (hshapes : HasShapes schema) (hschema : sure → (Value.dict schema).isWritable = true)
  (hjson : (Value.list items).IsJson) (hwritable : sure → (Value.list items).isWritable = true)
include hsub hshapes hschema hjson hwritable

omit hsub hjson hwritable [Pattern.Engine] in
/-- An array whose elements are decided, with the bounds of the keywords. -/
theorem says_holdsArray {element : Validator} {accepted : Value → Bool}
    (h : HoldsArray slots element (givenBounds schema "minItems" "maxItems") true)
    (haccepted : ∀ w ∈ items, Decides sure element w (accepted w)) :
    Says sure slots (.list items) .array
      (countWithin schema "minItems" "maxItems" items.length && items.all accepted) := by
  have hallow := givenBounds_allow hshapes (show ("minItems", _) ∈ keywordShapes by decide)
    (show ("maxItems", _) ∈ keywordShapes by decide)
  have hbounds : (givenBounds schema "minItems" "maxItems").AreCounts sure :=
    givenBounds_areCounts hshapes (by decide) (by decide) hschema
  rw [Says, show slots.admitted? .array = _ from h, ← hallow]
  exact Decides.array hbounds haccepted

omit hsub hjson hwritable in
/-- An array that has to be empty. -/
theorem says_emptyArray (h : HoldsArray slots .any ⟨Entries.given? schema "minItems", some (.int 0)⟩ true) :
    Says sure slots (.list items) .array
      (countWithin schema "minItems" "maxItems" items.length && items.all (satisfied (.bool false))) := by
  have hbounds : (givenBounds schema "minItems" "maxItems").AreCounts sure :=
    givenBounds_areCounts hshapes (by decide) (by decide) hschema
  have hempty : Bounds.AreCounts sure ⟨Entries.given? schema "minItems", some (.int 0)⟩ :=
    ⟨hbounds.least, fun limit hlimit => Option.some.inj hlimit ▸ isCount_zero⟩
  rw [Says, show slots.admitted? .array = _ from h, ← allow_zero hshapes items]
  exact Decides.array hempty fun w _ => .accept fun path => rfl

/-- **Arrays** say what the keywords for numbers of items and a single schema for items say. -/
theorem says_itemsSteps (h : HoldsArray slots .any (givenBounds schema "minItems" "maxItems") b)
    (hitems : ∀ schemas, Entries.get? schema "items" ≠ some (.list schemas)) :
    Answers False (itemsSteps convert slots schema) fun steps => Says sure (slots.run steps) (.list items) .array
      (b && (countWithin schema "minItems" "maxItems" items.length && itemsRead schema items)) := by
  have hdisabled : (slots .array).isDisabled = !b := by
    rw [Admissibility.isDisabled_eq rfl, h]
    cases b <;> rfl
  cases b with
  | false =>
    have hsteps : itemsSteps convert slots schema = .ok [] := by
      unfold itemsSteps
      exact if_pos hdisabled
    rw [hsteps, Bool.false_and]
    refine .ok ?_
    show Speaks sure (slots.admitted? .array) _ _
    rw [show slots.admitted? .array = none from h]
    rfl
  | true =>
    have hany : ∀ w ∈ items, Decides sure .any w true := fun w _ => .accept fun path => rfl
    have hsettled : HoldsArray (slots.run [.settle .array]) .any (givenBounds schema "minItems" "maxItems") true := by
      rw [HoldsArray, Admissibility.admitted?_run rfl]
      exact h
    rw [Bool.true_and]
    refine answers_itemsSteps.mono fun steps hsteps => ?_
    cases hsteps with
    | refused disabled => exact (Bool.false_ne_true (hdisabled.symm.trans disabled)).elim
    | nothing _ unread =>
      rcases unread with hget | ⟨schemas, hget⟩
      · rw [itemsRead_none hget]
        exact says_holdsArray hshapes hschema h hany
      · exact (hitems schemas hget).elim
    | @settled value _ hget beside =>
      -- with `prefixItems` beside it, a single schema is left to the second phase
      have hread : itemsRead schema items = items.all fun _ => true := by
        rcases beside with hhas | ⟨hnonempty, hsingle⟩
        · exact itemsRead_beside hget hitems hhas
        · have htrue : value = .bool true := by
            have hshape := hshapes.admits .schemaOrSchemas hget (by decide)
            cases value with
            | bool b =>
              cases b with
              | false => exact (hnonempty rfl).elim
              | true => rfl
            | dict entries => exact (hsingle entries rfl).elim
            | list schemas => exact (hitems schemas hget).elim
            | _ => cases hshape
          rw [htrue] at hget
          cases hhas : Entries.has schema "prefixItems" with
          | true => exact itemsRead_beside hget hitems hhas
          | false => exact itemsRead_single hget hitems hhas
      rw [hread]
      exact says_holdsArray hshapes hschema hsettled hany
    | none _ hget alone =>
      rw [itemsRead_single hget hitems alone]
      exact says_emptyArray hshapes hschema (HoldsArray.update h rfl)
    | @element entries c _ hget alone compiled =>
      have hmem : Value.dict entries ∈ subSchemas schema :=
        mem_subSchemas .schemaOrSchemas hget (by decide) (List.mem_singleton.mpr rfl)
      rw [itemsRead_single hget hitems alone]
      refine says_holdsArray hshapes hschema (h.update rfl) fun w hw => ?_
      exact (hsub _ hmem c compiled).decides w (hjson.item hw) fun hsure => Value.isWritable_item (hwritable hsure) hw

/-- The two kinds of lists together say what the first phase reads of a schema. -/
def ListSays (sure : Prop) (slots : Admissibility) (schema : Entries) (items : List Value) : Prop :=
  ∃ ofArray ofTuple, Says sure slots (.list items) .array ofArray ∧ Says sure slots (.list items) .tuple ofTuple ∧
    (ofArray || ofTuple) = (kindKept schema (.list items) &&
      (countWithin schema "minItems" "maxItems" items.length && itemsRead schema items))

theorem listSays_positional (h : OpenedArray slots (kindKept schema (.list items))) {schemas : List Value}
    (hitems : Entries.get? schema "items" = some (.list schemas)) :
    Answers False (KindRule.runAll (fun _ => .ok ()) convert schema KindRule.ofArrays slots) fun slots =>
      ListSays sure slots schema items := by
  rw [KindRule.ofArrays, KindRule.runAll]
  refine .bind (says_tupleSteps hsub hshapes hschema hjson hwritable h hitems) ?_
  rintro steps ⟨hdisabled, hsaid⟩
  have htuple : ∀ rule ∈ [KindRule.minItems, .maxItems, .items], Kind.tuple ∉ rule.kinds := by decide
  refine ((KindRule.runAll_other htuple _).and (KindRule.runAll_isDisabled hdisabled).meets).mono ?_
  rintro slots' ⟨hsame, hsilent⟩
  refine ⟨false, _, ?_, hsaid.of_eq (Admissibility.admitted?_congr hsame), ?_⟩
  · rw [Says, Admissibility.admitted?, hsilent]
    rfl
  · rw [Bool.false_or, itemsRead, hitems]

theorem listSays_single (h : OpenedArray slots (kindKept schema (.list items)))
    (hitems : ∀ schemas, Entries.get? schema "items" ≠ some (.list schemas)) :
    Answers False (KindRule.runAll (fun _ => .ok ()) convert schema KindRule.ofArrays slots) fun slots =>
      ListSays sure slots schema items := by
  have hnone : Answers False (tupleSteps (fun _ => .ok ()) convert slots schema) fun steps => steps = [] := by
    refine answers_tupleSteps.mono fun steps hsteps => ?_
    cases hsteps with
    | single | refused => rfl
    | tuple listed | impossible listed => exact (hitems _ listed).elim
  have harray : HoldsArray slots .any {} (kindKept schema (.list items)) := h.array
  have hrun : Answers False (KindRule.runAll (fun _ => .ok ()) convert schema [.minItems, .maxItems, .items] slots)
      fun slots => Says sure slots (.list items) .array (kindKept schema (.list items) &&
        (countWithin schema "minItems" "maxItems" items.length && itemsRead schema items)) := by
    rw [show [KindRule.minItems, .maxItems, .items] = [.minItems, .maxItems] ++ [.items] from rfl,
      KindRule.runAll_append]
    refine .bind harray.itemBounds fun slots hholds => ?_
    rw [KindRule.runAll]
    exact .bind (says_itemsSteps hsub hshapes hschema hjson hwritable hholds hitems) fun steps hsaid => .pure hsaid
  have htuple : ∀ rule ∈ [KindRule.minItems, .maxItems, .items], Kind.tuple ∉ rule.kinds := by decide
  rw [KindRule.ofArrays, KindRule.runAll]
  refine .bind hnone ?_
  rintro _ rfl
  refine (hrun.and (KindRule.runAll_other htuple slots).meets).mono ?_
  rintro slots' ⟨hsaid, hsame⟩
  refine ⟨_, false, hsaid, ?_, Bool.or_false _⟩
  rw [Says, Admissibility.admitted?_congr hsame, Admissibility.admitted?, Admissibility.current?, h.tuple]
  cases kindKept schema (.list items) <;> rfl

/-- **What the two kinds of lists say** after all rules. -/
theorem listSays_all :
    Answers False (KindRule.runAll (fun _ => .ok ()) convert schema KindRule.all .initial) fun slots =>
      ListSays sure slots schema items := by
  -- the rules before those of arrays, those of arrays, and those of objects
  rw [KindRule.all_eq, ← List.cons_append, KindRule.runAll_append]
  refine .bind (openedArray_opening (v := .list items) rfl) fun slots hopened => ?_
  have harrays : Answers False (KindRule.runAll (fun _ => .ok ()) convert schema KindRule.ofArrays slots) fun slots =>
      ListSays sure slots schema items := by
    by_cases hitems : ∃ schemas, Entries.get? schema "items" = some (.list schemas)
    · obtain ⟨schemas, hitems⟩ := hitems
      exact listSays_positional hsub hshapes hschema hjson hwritable hopened hitems
    · exact listSays_single hsub hshapes hschema hjson hwritable hopened fun schemas h => hitems ⟨schemas, h⟩
  rw [KindRule.runAll_append]
  refine .bind harrays ?_
  rintro slots ⟨ofArray, ofTuple, harray, htuple, hor⟩
  have hobjects : ∀ kind : Kind, kind ≠ .object → ∀ rule ∈ KindRule.ofObjects, kind ∉ rule.kinds := by
    intro kind hkind rule hrule
    cases rule with
    | properties | maxProperties | minProperties => simpa [KindRule.kinds] using hkind
    | _ => simp [KindRule.ofObjects] at hrule
  have hsame : Answers False (KindRule.runAll (fun _ => .ok ()) convert schema KindRule.ofObjects slots) fun slots' =>
      slots' .array = slots .array ∧ slots' .tuple = slots .tuple :=
    (KindRule.runAll_other (hobjects .array (by decide)) slots).and
      (KindRule.runAll_other (hobjects .tuple (by decide)) slots).meets
  refine hsame.mono ?_
  rintro slots' ⟨hsameArray, hsameTuple⟩
  exact ⟨ofArray, ofTuple, harray.of_eq (Admissibility.admitted?_congr hsameArray),
    htuple.of_eq (Admissibility.admitted?_congr hsameTuple), hor⟩

end

end Schemata
