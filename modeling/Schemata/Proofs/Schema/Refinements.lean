import Schemata.Proofs.Schema.Objects
import Schemata.Proofs.Validator.Conditions

/-!
# `Schemata.Proofs.Schema.Refinements` — what the second phase adds

Every refinement of the second phase adds its clause to what the joined validator decides about a value. A clause
may ask what the sub-schemas say about the value itself, which is a parameter here, or about its items and members.

## Contents
- **Clauses.** `Refinement.clause`, and `Judged`, what is known of a schema and a value.
- **Combinations.** Lists of sub-schemas that judge the value itself.
- **Structures.** Items beyond `prefixItems`, counted items, and members that fit patterns.
- **Refinements.** `decides_refinement`, one at a time, and `decides_refinements` for all of them.
-/

namespace Schemata

open Value

/-! ## Clauses -/

section

variable (sat : Value → Value → Bool)

/-- What a keyword says of everything that is left over. -/
def leftOverSatisfied (schema : Entries) (keyword : String) (w : Value) : Bool :=
  match Entries.get? schema keyword with
  | some (.bool false) => false
  | some (.dict entries) => sat (.dict entries) w
  | _ => true

/-- What the schemas under the patterns that fit a key say about a value, if any fits. -/
def fittingSatisfied [Pattern.Engine] (entries : Entries) (key : String) (w : Value) : Option Bool :=
  match entries.filter fun e => e.1.text?.any fun pattern => containsMatch pattern key with
  | [] => none
  | fitting => some (fitting.all fun e => sat e.2 w)

/-- What `patternProperties` says about a member. -/
def patternRead [Pattern.Engine] (schema : Entries) (key : String) (w : Value) : Bool :=
  Entries.has (mappedSchemas schema "properties") key ||
    (fittingSatisfied sat (mappedSchemas schema "patternProperties") key w).getD
      (leftOverSatisfied sat schema "additionalProperties" w)

/-- What `prefixItems` says, with `items` for those beyond. -/
def prefixRead (schema : Entries) (items : List Value) : Bool :=
  !Entries.has schema "prefixItems" ||
    (positionsSatisfied sat (listedSchemas schema "prefixItems") items &&
      (items.drop (listedSchemas schema "prefixItems").length).all (leftOverSatisfied sat schema "items"))

/-- What a refinement says about a value, given what the sub-schemas say about it and about its parts. -/
def Refinement.clause [Pattern.Engine] (verdict : Value → Bool) (schema : Entries) (v : Value)
    (refinement : Refinement) : Bool :=
  match refinement with
  | .compositeEnumeration =>
    let members := (listedSchemas schema "enum").filter isCompositeValue
    members.isEmpty || !isCompositeValue v || members.any fun member => v.equal member
  | .compositeConst =>
    match Entries.get? schema "const" with
    | some value => !isCompositeValue value || v.equal value
    | none => true
  | .allOf => (listedSchemas schema "allOf").all verdict
  | .anyOf => someSatisfied verdict schema "anyOf"
  | .oneOf => someSatisfied verdict schema "oneOf"
  | .prefixItems =>
    match v with
    | .list items => prefixRead sat schema items
    | _ => true
  | .contains =>
    match v with
    | .list items => containsSatisfied sat schema items
    | _ => true
  | .patternProperties =>
    match v with
    | .dict members =>
      !Entries.has schema "patternProperties" || members.all fun e => patternRead sat schema e.1.plain e.2
    | _ => true
  | .uniqueItems => !isSetTrue schema "uniqueItems" || v.distinctItems
  | .not => notSatisfied verdict schema
  | _ => true

/-- A validator decides about values of JSON what is said of a schema. -/
def DecidesJson (sure : Prop) (schema : Value) (vd : Validator) : Prop :=
  ∀ w : Value, w.IsJson → (sure → w.isWritable = true) → Decides sure vd w (sat schema w)

/-- What is known of a schema, of how its sub-schemas are compiled, and of a value that they judge. -/
structure Judged (sure : Prop) (schema : Entries) (convert : Value → Except CompileError Validator) (v : Value)
    (verdict : Value → Bool) : Prop where
  shapes : HasShapes schema
  sub : ∀ s ∈ subSchemas schema, ∀ c, convert s = .ok c → DecidesJson sat sure s c
  judges : ∀ s ∈ subSchemas schema, ∀ c, convert s = .ok c → Decides sure c v (verdict s)
  merged : mergeOutputs v v = v
  items : ∀ items, v = .list items → ∀ w ∈ items, w.IsJson ∧ (sure → w.isWritable = true)
  members : ∀ members, v = .dict members → ∀ e ∈ members,
    (∃ key, e.1 = .string key) ∧ e.2.IsJson ∧ (sure → e.2.isWritable = true)

variable {sat} in
/-- Sub-schemas judge the values of JSON as they say. -/
theorem judged_json {sure : Prop} {schema : Entries} {convert : Value → Except CompileError Validator}
    (hsub : ∀ s ∈ subSchemas schema, ∀ c, convert s = .ok c → DecidesJson sat sure s c) (hshapes : HasShapes schema)
    {v : Value} (hjson : v.IsJson) (hwritable : sure → v.isWritable = true) :
    Judged sat sure schema convert v fun s => sat s v where
  shapes := hshapes
  sub := hsub
  judges := fun s hs c hc => hsub s hs c hc v hjson hwritable
  merged := hjson.mergeOutputs_self
  items := by
    rintro items rfl w hw
    exact ⟨hjson.item hw, fun hsure => isWritable_item (hwritable hsure) hw⟩
  members := by
    rintro members rfl e he
    exact ⟨hjson.key he, hjson.member he, fun hsure => isWritable_member (hwritable hsure) he⟩

end

section

variable [Pattern.Engine] {sat : Value → Value → Bool} {sure : Prop} {schema : Entries}
  {convert : Value → Except CompileError Validator} {v : Value} {verdict : Value → Bool} (h : Judged sat sure schema convert v verdict)
include h

/-! ## Combinations -/

omit [Pattern.Engine] in
/-- The validators of a list of sub-schemas, each beside its schema. -/
theorem answers_branches {keyword : String} (hkeyword : (keyword, KeywordShape.schemas) ∈ keywordShapes) :
    Answers False (branches convert schema keyword) fun all => ∃ done,
      Visits (listedSchemas schema keyword) (fun s c => Decides sure c v (verdict s)) done ∧ all = done.map Prod.snd := by
  have heach : ∀ s ∈ listedSchemas schema keyword, Answers False (convert s) fun c => Decides sure c v (verdict s) :=
    fun s hs => .of_meets (h.judges s (mem_of_mem_listedSchemas hkeyword hs))
  unfold branches
  unfold listedSchemas at heach ⊢
  cases hitems : (Entries.get? schema keyword).bind Value.items? with
  | none => exact .pure ⟨[], .nil, rfl⟩
  | some items =>
    rw [hitems] at heach
    exact answers_mapM items heach

variable {vd : Validator} {b : Bool}

omit [Pattern.Engine] in
theorem decides_foldl_both (hvd : Decides sure vd v b) {done : List (Value × Validator)}
    (hdone : ∀ d ∈ done, Decides sure d.2 v (verdict d.1)) :
    Decides sure ((done.map Prod.snd).foldl .both vd) v (b && (done.map Prod.fst).all verdict) := by
  induction done generalizing vd b with
  | nil =>
    show Decides sure vd v (b && true)
    rwa [Bool.and_true]
  | cons d ds ih =>
    obtain ⟨hd, hds⟩ := List.forall_mem_cons.mp hdone
    rw [List.map_cons, List.map_cons, List.all_cons, List.foldl_cons, ← Bool.and_assoc]
    exact ih (hvd.both (fun _ => h.merged) hd) hds

theorem decides_allOf (hvd : Decides sure vd v b) :
    Answers False (allOf? convert vd schema) fun w =>
      Decides sure (w.getD vd) v (b && Refinement.allOf.clause sat verdict schema v) := by
  refine .bind (answers_branches h (by decide)) ?_
  rintro _ ⟨done, hdone, rfl⟩
  refine .pure ?_
  have hall := decides_foldl_both h hvd hdone.fits
  rw [hdone.args] at hall
  cases done with
  | nil => exact hall
  | cons d ds => exact hall

omit [Pattern.Engine] in
theorem decides_someOf (hvd : Decides sure vd v b) {keyword : String}
    (hkeyword : (keyword, KeywordShape.schemas) ∈ keywordShapes) :
    Answers False (someOf? convert vd schema keyword) fun w =>
      Decides sure (w.getD vd) v (b && someSatisfied verdict schema keyword) := by
  refine .bind (answers_branches h hkeyword) ?_
  rintro _ ⟨done, hdone, rfl⟩
  refine .pure ?_
  unfold someSatisfied
  rw [← hdone.args]
  have hfits := hdone.fits
  match done with
  | [] =>
    show Decides sure vd v (b && true)
    rwa [Bool.and_true]
  | [d] =>
    show Decides sure (.both vd d.2) v (b && (verdict d.1 || false))
    rw [Bool.or_false]
    exact hvd.both (fun _ => h.merged) (hfits d List.mem_cons_self)
  | d :: d' :: ds =>
    have hunion := Decides.union_untagged hfits
    have hany : ((d :: d' :: ds).map Prod.fst).any verdict = (d :: d' :: ds).any fun o => verdict o.1 := List.any_map
    rw [← hany] at hunion
    exact hvd.both (fun _ => h.merged) hunion

theorem decides_not (hvd : Decides sure vd v b) :
    Answers False (not? convert vd schema) fun w =>
      Decides sure (w.getD vd) v (b && Refinement.not.clause sat verdict schema v) := by
  unfold not?
  rw [show Refinement.not.clause sat verdict schema v = notSatisfied verdict schema from rfl, notSatisfied]
  cases hget : Entries.get? schema "not" with
  | none =>
    refine .pure ?_
    rwa [Bool.and_true]
  | some negated =>
    have hmem : negated ∈ subSchemas schema := mem_subSchemas .schema hget (by decide) (List.mem_singleton.mpr rfl)
    refine .bind (.of_meets (h.judges negated hmem)) fun c hc => .pure ?_
    exact hvd.refined (fun _ => Decides.answers_rejectedBy hc) _

/-! ## Structures -/

omit h [Pattern.Engine] in
theorem getD_none (hvd : Decides sure vd v b) {c : Bool} (hc : c = true) :
    Decides sure ((none : Option Validator).getD vd) v (b && c) := by
  rwa [hc, Bool.and_true]

omit [Pattern.Engine] in
/-- What a keyword says of everything that is left over, as a policy. -/
theorem answers_leftOver {keyword : String}
    (hkeyword : ∀ entries, Entries.get? schema keyword = some (.dict entries) → Value.dict entries ∈ subSchemas schema) :
    Answers False (leftOver convert schema keyword) fun extra => ∀ w : Value, w.IsJson →
      (sure → w.isWritable = true) → Decides.ofAdditional sure extra w (leftOverSatisfied sat schema keyword w) := by
  unfold leftOver leftOverSatisfied
  match hget : Entries.get? schema keyword with
  | some (.bool false) => exact .pure fun w _ _ => rfl
  | some (.dict entries) =>
    refine .bind (.of_meets (h.sub _ (hkeyword entries hget))) fun c hc => .pure fun w hw hwritable => ?_
    exact hc w hw hwritable
  | none | some (.bool true) | some .absent | some .null | some (.int _) | some (.float _) | some (.string _)
  | some (.list _) | some (.tuple _) | some (.set _) | some (.file _) | some (.date _) | some (.timestamp _) =>
    exact .pure fun w _ _ => rfl

theorem decides_prefixItems (hvd : Decides sure vd v b) :
    Answers False (prefixItems? convert vd schema) fun w =>
      Decides sure (w.getD vd) v (b && Refinement.prefixItems.clause sat verdict schema v) := by
  unfold prefixItems?
  cases hitems : (Entries.get? schema "prefixItems").bind Value.items? with
  | none =>
    have hnone : Entries.has schema "prefixItems" = false := h.shapes.has_eq_false_of_items (by decide) hitems
    refine .pure (getD_none hvd ?_)
    cases v with
    | list items => show prefixRead sat schema items = true; rw [prefixRead, hnone]; rfl
    | _ => rfl
  | some schemas =>
    have hlisted : listedSchemas schema "prefixItems" = schemas := listedSchemas_eq hitems
    have heach : ∀ s ∈ schemas, Answers False (convert s) (DecidesJson sat sure s) := fun s hs =>
      .of_meets (h.sub s (mem_of_mem_listedSchemas (by decide) (hlisted ▸ hs)))
    refine .bind (answers_mapM schemas heach) ?_
    rintro _ ⟨done, hdone, rfl⟩
    have hleft : ∀ entries, Entries.get? schema "items" = some (.dict entries) → Value.dict entries ∈ subSchemas schema :=
      fun entries hget => mem_subSchemas .schemaOrSchemas hget (by decide) (List.mem_singleton.mpr rfl)
    refine .bind (answers_leftOver h hleft) fun extra hextra => .pure ?_
    refine hvd.refined (fun _ => ?_) _
    cases v with
    | list items =>
      have hitem := h.items items rfl
      have hpositions := Decides.answers_positions sat
        (fun p hp w hw => hdone.fits p hp w (hitem w hw).1 (hitem w hw).2)
        (fun w hw => hextra w (hitem w hw).1 (hitem w hw).2)
      have hlength : done.length = schemas.length := by rw [← hdone.args, List.length_map]
      rw [hdone.args, hlength, ← hlisted] at hpositions
      show Answers sure _ (· = prefixRead sat schema items)
      rw [prefixRead, Entries.has_of_bind hitems, Bool.not_true, Bool.false_or]
      exact hpositions
    | _ => exact .pure rfl

omit h [Pattern.Engine] in
/-- The number of items that are asked for at least, which is one if nothing is said. -/
theorem least_contained (hshapes : HasShapes schema) :
    ∃ least : Int, (Entries.get? schema "minContains").getD (.int 1) = .int least ∧
      ∀ count : Nat, (if Entries.has schema "minContains" then
        countSatisfied schema "minContains" (fun limit => decide (limit ≤ count)) else decide (1 ≤ count)) =
          decide (least ≤ (count : Int)) := by
  cases hmin : Entries.get? schema "minContains" with
  | none =>
    refine ⟨1, rfl, fun count => ?_⟩
    rw [Entries.has, hmin]
    exact decide_eq_decide.mpr (by omega)
  | some limit =>
    obtain ⟨n, rfl⟩ := hshapes.count hmin (by decide)
    refine ⟨n, rfl, fun count => ?_⟩
    rw [Entries.has, countSatisfied, hmin]
    rfl

theorem decides_contains (hvd : Decides sure vd v b) :
    Answers False (contains? convert vd schema) fun w =>
      Decides sure (w.getD vd) v (b && Refinement.contains.clause sat verdict schema v) := by
  unfold contains?
  cases hget : Entries.get? schema "contains" with
  | none =>
    refine .pure (getD_none hvd ?_)
    cases v with
    | list items => show containsSatisfied sat schema items = true; rw [containsSatisfied, hget]
    | _ => rfl
  | some item =>
    have hmem : item ∈ subSchemas schema := mem_subSchemas .schema hget (by decide) (List.mem_singleton.mpr rfl)
    refine .bind (.of_meets (h.sub item hmem)) fun c hc => .pure ?_
    refine hvd.refined (fun _ => ?_) _
    cases v with
    | list items =>
      have hitem := h.items items rfl
      have hmost : ∀ limit, Entries.given? schema "maxContains" = some limit → ∃ n, limit = .int n :=
        fun limit hlimit => exists_int_of_given h.shapes (by decide) hlimit
      obtain ⟨least, hleast, hclause⟩ := least_contained h.shapes
      have hcounted := Decides.answers_counted least (fun w hw => hc w (hitem w hw).1 (hitem w hw).2) hmost
      rw [limitHolds_given h.shapes (by decide), ← hclause, ← hleast] at hcounted
      show Answers sure _ (· = containsSatisfied sat schema items)
      rw [containsSatisfied, hget]
      exact hcounted
    | _ => exact .pure rfl

/-- The rules of `patternProperties`: those that fit a key say what the schemas under the fitting patterns say. -/
theorem answers_patternRules {entries : Entries} (hentries : ∀ e ∈ entries, e.2 ∈ subSchemas schema)
    (hkeys : ∀ e ∈ entries, e.1.isString = true) :
    Answers False (patternRules (fun _ => .ok ()) convert entries) fun rules => ∀ (key : String) (w : Value), w.IsJson →
      (sure → w.isWritable = true) →
        Answers sure (PatternRule.acceptMember (m := Except Fault) (fun f => .ok f.size?) rules key w)
          (· = fittingSatisfied sat entries key w) := by
  induction entries with
  | nil =>
    refine .pure fun key w _ _ => ?_
    exact .pure rfl
  | cons e es ih =>
    obtain ⟨k, s⟩ := e
    obtain ⟨hfirst, hrest⟩ := List.forall_mem_cons.mp hentries
    obtain ⟨hkey, hrestKeys⟩ := List.forall_mem_cons.mp hkeys
    obtain ⟨text, rfl⟩ : ∃ text, k = .string text := by
      cases k with
      | string text => exact ⟨text, rfl⟩
      | _ => cases hkey
    rw [patternRules, compilePattern]
    cases hread : Pattern.Engine.read text with
    | error refusal =>
      cases refusal with
      | malformed =>
        -- A pattern that is no regular expression is skipped here, and it fits no key there.
        refine .bind (.trivial _) fun _ _ => (ih hrest hrestKeys).mono fun rules hrules key w hw hwritable => ?_
        have hskip : (Value.string text).text?.any (fun pattern => containsMatch pattern key) = false := by
          rw [text?, Option.any_some, containsMatch, hread]
          rfl
        rw [fittingSatisfied, List.filter_cons_of_neg (by rw [hskip]; decide)]
        exact hrules key w hw hwritable
      | fault f => exact .error not_false
    | ok pattern =>
      refine .bind (.of_meets (h.sub s hfirst)) fun c hc => .bind (ih hrest hrestKeys) fun rules hrules => .pure ?_
      intro key w hw hwritable
      have hfits : (Value.string text).text?.any (fun pattern => containsMatch pattern key) = pattern.search key := by
        rw [text?, Option.any_some, containsMatch, hread]
        rfl
      rw [fittingSatisfied, List.filter_cons, hfits]
      show Answers sure (if pattern.search key then _ else _) _
      cases pattern.search key with
      | false => exact hrules key w hw hwritable
      | true =>
        refine .bind (hc w hw hwritable []) ?_
        rintro r ⟨hok, _⟩
        rw [hok]
        cases hsat : sat s w with
        | false => exact .pure (by simp [hsat])
        | true =>
          refine .bind (hrules key w hw hwritable) ?_
          rintro _ rfl
          refine .pure ?_
          rw [fittingSatisfied]
          generalize List.filter _ es = fitting
          show _ = some (sat s w && fitting.all fun e => sat e.2 w)
          rw [hsat, Bool.true_and]
          cases fitting <;> rfl

theorem decides_patternProperties (hvd : Decides sure vd v b) :
    Answers False (patternProperties? (fun _ => .ok ()) convert vd schema) fun w =>
      Decides sure (w.getD vd) v (b && Refinement.patternProperties.clause sat verdict schema v) := by
  unfold patternProperties?
  cases hentries : (Entries.get? schema "patternProperties").bind Value.entries? with
  | none =>
    have hnone : Entries.has schema "patternProperties" = false := h.shapes.has_eq_false_of_entries (by decide) hentries
    refine .pure (getD_none hvd ?_)
    cases v with
    | dict members => show (!Entries.has schema "patternProperties" || _) = true; rw [hnone]; rfl
    | _ => rfl
  | some entries =>
    obtain ⟨w, hget, hdict⟩ := Option.bind_eq_some_iff.mp hentries
    have hmapped : mappedSchemas schema "patternProperties" = entries := mappedSchemas_eq hentries
    have hhas : Entries.has schema "patternProperties" = true := Entries.has_of_get? hget
    have hkeys : ∀ e ∈ entries, e.1.isString = true := by
      have hshape := h.shapes.admits .schemaMap hget (by decide)
      cases w with
      | dict es =>
        obtain rfl : es = entries := Option.some.inj hdict
        exact fun e he => (Bool.and_eq_true_iff.mp (List.all_eq_true.mp hshape e he)).1
      | _ => cases hdict
    have heach : ∀ e ∈ entries, e.2 ∈ subSchemas schema := fun e he =>
      mem_of_mem_mappedSchemas (by decide) (hmapped ▸ he)
    refine .bind (answers_patternRules h heach hkeys) fun rules hrules => ?_
    have hleft : ∀ entries, Entries.get? schema "additionalProperties" = some (.dict entries) →
        Value.dict entries ∈ subSchemas schema :=
      fun entries hget => mem_subSchemas .schema hget (by decide) (List.mem_singleton.mpr rfl)
    refine .bind (answers_leftOver h hleft) fun extra hextra => .pure ?_
    refine hvd.refined (fun _ => ?_) _
    cases v with
    | dict members =>
      have hmember := h.members members rfl
      let declared := (mappedSchemas schema "properties").map Prod.fst
      have hpatterns : Answers sure ((Test.patterns rules declared extra).holds (.dict members)) _ := Decides.answers_patterns
        (fun e he => hrules e.1.plain e.2 (hmember e he).2.1 (hmember e he).2.2)
        (fun e he => hextra e.2 (hmember e he).2.1 (hmember e he).2.2)
      refine hpatterns.mono ?_
      rintro _ rfl
      show _ = (!Entries.has schema "patternProperties" || members.all fun e => patternRead sat schema e.1.plain e.2)
      rw [hhas, Bool.not_true, Bool.false_or]
      -- the clause asks the same of each member, under its key as a text
      refine all_congr_of_mem ?_
      rintro ⟨k, w⟩ he
      obtain ⟨⟨key, rfl⟩, _⟩ := hmember _ he
      have hdeclared : (((mappedSchemas schema "properties").map Prod.fst).any fun name => name.alike (.string key)) =
          Entries.has (mappedSchemas schema "properties") key := by
        rw [List.any_map, ← Entries.hasAlike_string]
        rfl
      rw [hdeclared, patternRead, hmapped]
      rfl
    | _ => exact .pure rfl

/-! ## Refinements -/

omit h in
theorem decides_compositeEnumeration (hvd : Decides sure vd v b) :
    Decides sure ((compositeEnumeration? vd schema).getD vd) v
      (b && Refinement.compositeEnumeration.clause sat verdict schema v) := by
  unfold compositeEnumeration? Refinement.clause listedSchemas
  cases (Entries.get? schema "enum").bind Value.items? with
  | none => exact getD_none hvd rfl
  | some values =>
    dsimp only [Option.getD_some]
    by_cases hempty : (values.filter isCompositeValue).isEmpty = true
    · rw [if_pos hempty, hempty]
      exact getD_none hvd rfl
    · rw [if_neg hempty, Bool.eq_false_iff.mpr hempty, Bool.false_or]
      refine hvd.refined (fun _ => ?_) _
      cases v <;> exact .pure rfl

omit h in
theorem decides_compositeConst (hvd : Decides sure vd v b) :
    Decides sure ((compositeConst? vd schema).getD vd) v (b && Refinement.compositeConst.clause sat verdict schema v) := by
  unfold compositeConst? Refinement.clause
  cases Entries.get? schema "const" with
  | none => exact getD_none hvd rfl
  | some value =>
    dsimp only
    by_cases hcomposite : isCompositeValue value = true
    · rw [if_pos hcomposite, hcomposite]
      refine hvd.refined (fun _ => ?_) _
      exact .ok rfl
    · rw [if_neg hcomposite, Bool.eq_false_iff.mpr hcomposite]
      exact getD_none hvd rfl

omit h in
theorem decides_uniqueItems (hvd : Decides sure vd v b) :
    Decides sure ((uniqueItems? vd schema).getD vd) v (b && Refinement.uniqueItems.clause sat verdict schema v) := by
  unfold uniqueItems? Refinement.clause
  by_cases hunique : isSetTrue schema "uniqueItems" = true
  · rw [if_pos hunique, hunique]
    refine hvd.refined (fun _ => ?_) _
    exact .ok rfl
  · rw [if_neg hunique, Bool.eq_false_iff.mpr hunique]
    exact getD_none hvd rfl

omit h in
theorem decides_description (hvd : Decides sure vd v b) :
    Decides sure ((description? vd schema).getD vd) v (b && Refinement.description.clause sat verdict schema v) := by
  unfold description? Refinement.clause
  rw [Bool.and_true]
  split
  · exact hvd.described _
  · exact hvd

variable (hdefault : Entries.get? schema "default" = none)
include hdefault

/-- What one refinement adds, unless it turns required names into plain keys. -/
theorem decides_refinement (hvd : Decides sure vd v b) {refinement : Refinement}
    (hproto : refinement = .protoRequired → protoRequired? schema = none) :
    Answers False ( refinement.apply? (fun _ => .ok ()) convert vd schema) fun w =>
      Decides sure (w.getD vd) v (b && refinement.clause sat verdict schema v) := by
  cases refinement with
  | protoRequired =>
    refine .pure ?_
    rw [hproto rfl]
    exact getD_none hvd rfl
  | compositeEnumeration => exact .pure (decides_compositeEnumeration hvd)
  | compositeConst => exact .pure (decides_compositeConst hvd)
  | allOf => exact decides_allOf h hvd
  | anyOf => exact decides_someOf h hvd (by decide)
  | oneOf => exact decides_someOf h hvd (by decide)
  | prefixItems => exact decides_prefixItems h hvd
  | contains => exact decides_contains h hvd
  | patternProperties => exact decides_patternProperties h hvd
  | uniqueItems => exact .pure (decides_uniqueItems hvd)
  | not => exact decides_not h hvd
  | default =>
    unfold Refinement.apply? default?
    rw [hdefault]
    exact .pure (getD_none hvd rfl)
  | description => exact .pure (decides_description hvd)

/-- **What the second phase adds**, by induction on the refinements that are left. -/
theorem decides_refinements (hvd : Decides sure vd v b) (refinements : List Refinement)
    (hproto : .protoRequired ∈ refinements → protoRequired? schema = none) :
    Answers False (Refinement.runAll (fun _ => .ok ()) convert schema refinements vd) fun w =>
      Decides sure w v (b && refinements.all fun refinement => refinement.clause sat verdict schema v) := by
  induction refinements generalizing vd b with
  | nil =>
    refine .pure ?_
    rwa [List.all_nil, Bool.and_true]
  | cons refinement refinements ih =>
    rw [Refinement.runAll, List.all_cons, ← Bool.and_assoc]
    refine .bind (decides_refinement h hdefault hvd fun heq => hproto (heq ▸ List.mem_cons_self)) fun w hw => ?_
    exact ih hw fun hmem => hproto (List.mem_cons_of_mem _ hmem)

end

end Schemata
