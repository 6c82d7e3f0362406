import Schemata.Proofs.Schema.SubSchema
import Schemata.Proofs.Value.Keys

/-!
# `Schemata.Proofs.Schema.Satisfaction` — what a schema says

Whether a value satisfies a schema, said without validators. True satisfies everything and false nothing; a
mapping is the conjunction of its keywords, each of which speaks about values of some kind and lets all others
pass. Values fit together with the sub-schemas of a mapping (`satisfied_dict`).

## Contents
- **Keywords.** One definition for each group of keywords, given what the sub-schemas say.
- **Schemas.** `nodeSatisfied`, `satisfied`, and `satisfied_dict`.
-/

namespace Schemata

/-! ## Any kind -/

/-- Whether an operation answers, and answers yes. -/
def isTrue (x : Except Fault Bool) : Bool :=
  match x with
  | .ok b => b
  | .error _ => false

/-- Whether a value is of the type with a name. Integers are the whole numbers. -/
def typeFits (v : Value) (name : String) : Bool :=
  if name = "integer" then v.kind == some .number && isTrue (isIntegral v)
  else v.kind.any fun kind => kind.name == name

/-- `type`: some listed name fits. Binary content is no value of JSON. -/
def typeSatisfied (schema : Entries) (v : Value) : Bool :=
  !isBinary schema &&
    (!Entries.has schema "type" || (declaredTypes schema).any (typeFits v))

/-- `const`: the value equals the literal. -/
def constSatisfied (schema : Entries) (v : Value) : Bool :=
  match Entries.get? schema "const" with
  | some literal => v.equal literal
  | none => true

/-- `enum`: the value equals some literal. An empty enumeration counts only without a `type`. -/
def enumSatisfied (schema : Entries) (v : Value) : Bool :=
  match (Entries.get? schema "enum").bind Value.items? with
  | none => true
  | some [] => Entries.has schema "type"
  | some literals => literals.any fun literal => v.equal literal

/-- A keyword that is an integer, and what it says if it is there. -/
def countSatisfied (schema : Entries) (keyword : String) (holds : Int → Bool) : Bool :=
  match Entries.get? schema keyword with
  | some (.int limit) => holds limit
  | _ => true

/-- Keywords for a least and a greatest number of elements. -/
def countWithin (schema : Entries) (least most : String) (count : Nat) : Bool :=
  countSatisfied schema least (fun limit => decide (limit ≤ count)) &&
    countSatisfied schema most fun limit => decide ((count : Int) ≤ limit)

/-! ## Texts and numbers -/

/-- Whether a text contains a match of a pattern; none contains a match of what is no pattern. -/
def containsMatch [Pattern.Engine] (pattern s : String) : Bool :=
    (Pattern.Engine.read pattern).toOption.any fun p => p.search s

/-- `pattern`: the text contains a match. -/
def patternSatisfied [Pattern.Engine] (schema : Entries) (s : String) : Bool :=
  match Entries.get? schema "pattern" with
  | some (.string pattern) => containsMatch pattern s
  | _ => true

/-- The keywords of texts. Lengths are counted in characters as a reader sees them. -/
def stringSatisfied [Pattern.Engine] (schema : Entries) (v : Value) : Bool :=
  match v with
  | .string s =>
    countWithin schema "minLength" "maxLength" (Unicode.clusterCount s) && patternSatisfied schema s
  | _ => true

/-- `minimum` or `maximum`, which a true exclusive keyword beside it makes strict. -/
def rangeSatisfied (schema : Entries) (keyword exclusive : String) (inclusive strict : Relation) (v : Value) :
    Bool :=
  match Entries.get? schema keyword with
  | some limit => isTrue (Value.related (if isSetTrue schema exclusive then strict else inclusive) v limit)
  | none => true

/-- An exclusive bound that is a number. -/
def exclusiveSatisfied (schema : Entries) (keyword : String) (relation : Relation) (v : Value) : Bool :=
  match Entries.get? schema keyword with
  | some limit => !isBound limit || isTrue (Value.related relation v limit)
  | none => true

/-- `multipleOf`: the value is an exact multiple. -/
def multipleSatisfied (schema : Entries) (v : Value) : Bool :=
  match Entries.get? schema "multipleOf" with
  | some divisor => isTrue (v.isMultipleOf divisor)
  | none => true

/-- The keywords of numbers. -/
def numberSatisfied (schema : Entries) (v : Value) : Bool :=
  v.kind != some .number ||
    (rangeSatisfied schema "minimum" "exclusiveMinimum" .atLeast .greater v &&
      rangeSatisfied schema "maximum" "exclusiveMaximum" .atMost .less v &&
      exclusiveSatisfied schema "exclusiveMinimum" .greater v &&
      exclusiveSatisfied schema "exclusiveMaximum" .less v && multipleSatisfied schema v)

section

variable (sat : Value → Value → Bool)

/-! ## Arrays -/

/-- The schemas under a keyword that lists them. -/
def listedSchemas (schema : Entries) (keyword : String) : List Value :=
  ((Entries.get? schema keyword).bind Value.items?).getD []

theorem listedSchemas_eq {schema : Entries} {keyword : String} {items : List Value}
    (h : (Entries.get? schema keyword).bind Value.items? = some items) : listedSchemas schema keyword = items := by
  rw [listedSchemas, h]
  rfl

/-- Items that have a schema of their own satisfy it, as far as schemas and items go. -/
def positionsSatisfied (schemas items : List Value) : Bool :=
  (schemas.zip items).all fun p => sat p.1 p.2

/-- What `additionalItems` says about the number of items and those beyond the listed ones. Unless further items
are allowed there are exactly as many as listed. -/
def restSatisfied (schema : Entries) (size : Nat) (items : List Value) : Bool :=
  match Entries.get? schema "additionalItems" with
  | some (.bool true) => decide (size ≤ items.length)
  | some (.dict rest) => decide (size ≤ items.length) && (items.drop size).all (sat (.dict rest))
  | _ => items.length == size

/-- `items`: a list speaks about positions, and a single schema about every item beyond `prefixItems`. -/
def itemsSatisfied (schema : Entries) (items : List Value) : Bool :=
  match Entries.get? schema "items" with
  | none => true
  | some (.list schemas) =>
    restSatisfied sat schema schemas.length items && positionsSatisfied sat schemas items
  | some element => (items.drop (listedSchemas schema "prefixItems").length).all (sat element)

/-- `contains`: the number of items that satisfy a schema lies within limits, with one as the least number. -/
def containsSatisfied (schema : Entries) (items : List Value) : Bool :=
  match Entries.get? schema "contains" with
  | none => true
  | some element =>
    let count := items.countP (sat element)
    (if Entries.has schema "minContains" then
      countSatisfied schema "minContains" (fun limit => decide (limit ≤ count)) else decide (1 ≤ count)) &&
    countSatisfied schema "maxContains" fun limit => decide ((count : Int) ≤ limit)

/-- The keywords of arrays. -/
def arraySatisfied (schema : Entries) (v : Value) : Bool :=
  match v with
  | .list items =>
    countWithin schema "minItems" "maxItems" items.length && itemsSatisfied sat schema items &&
      positionsSatisfied sat (listedSchemas schema "prefixItems") items && containsSatisfied sat schema items &&
      (!isSetTrue schema "uniqueItems" || v.distinctItems)
  | _ => true

/-! ## Objects -/

/-- The entries under a keyword that is a mapping. -/
def mappedSchemas (schema : Entries) (keyword : String) : Entries :=
  ((Entries.get? schema keyword).bind Value.entries?).getD []

theorem mappedSchemas_eq {schema : Entries} {keyword : String} {entries : Entries}
    (h : (Entries.get? schema keyword).bind Value.entries? = some entries) : mappedSchemas schema keyword = entries := by
  rw [mappedSchemas, h]
  rfl

/-- What `additionalProperties` says about a member. -/
def additionalSatisfied (schema : Entries) (w : Value) : Bool :=
  match Entries.get? schema "additionalProperties" with
  | some others => sat others w
  | none => true

/-- The schemas of `patternProperties` whose pattern fits a key. -/
def matchingSchemas [Pattern.Engine] (schema : Entries) (key : String) : List Value :=
  ((mappedSchemas schema "patternProperties").filter fun e =>
    e.1.text?.any fun pattern => containsMatch pattern key).map Prod.snd

/-- What is said about a member: by its property, or else by every pattern that fits its key, or else by
`additionalProperties`. Without `patternProperties`, a required key counts as a property. -/
def memberSatisfied [Pattern.Engine] (schema : Entries) (key : String) (w : Value) : Bool :=
  match Entries.get? (mappedSchemas schema "properties") key with
  | some property => sat property w
  | none =>
    if Entries.has schema "patternProperties" then
      match matchingSchemas schema key with
      | [] => additionalSatisfied sat schema w
      | schemas => schemas.all fun s => sat s w
    else (requiredNames schema).contains key || additionalSatisfied sat schema w

/-- The keywords of objects. -/
def objectSatisfied [Pattern.Engine] (schema : Entries) (v : Value) : Bool :=
  match v with
  | .dict members =>
    countWithin schema "minProperties" "maxProperties" members.length &&
      (requiredNames schema).all (Entries.has members) &&
      members.all fun e => memberSatisfied sat schema e.1.plain e.2
  | _ => true

end

/-! ## Combinations -/

/-- Some listed schema says yes, if any are listed. -/
def someSatisfied (verdict : Value → Bool) (schema : Entries) (keyword : String) : Bool :=
  (listedSchemas schema keyword).isEmpty || (listedSchemas schema keyword).any verdict

/-- `not`: the schema says no. -/
def notSatisfied (verdict : Value → Bool) (schema : Entries) : Bool :=
  match Entries.get? schema "not" with
  | some negated => !verdict negated
  | none => true

/-- `allOf`, `anyOf`, `oneOf` and `not`, given what the sub-schemas say about the value. `oneOf` does not ask for
exactly one. -/
def combinedSatisfied (verdict : Value → Bool) (schema : Entries) : Bool :=
  (listedSchemas schema "allOf").all verdict && someSatisfied verdict schema "anyOf" &&
    someSatisfied verdict schema "oneOf" && notSatisfied verdict schema

/-! ## Schemas -/

/-- Whether a value satisfies a mapping of keywords, given what sub-schemas say. -/
def nodeSatisfied [Pattern.Engine] (sat : Value → Value → Bool) (schema : Entries) (v : Value) : Bool :=
  typeSatisfied schema v && constSatisfied schema v && enumSatisfied schema v && stringSatisfied schema v &&
    numberSatisfied schema v && arraySatisfied sat schema v && objectSatisfied sat schema v &&
    combinedSatisfied (fun s => sat s v) schema

/-- Whether a value satisfies a schema that is nested less deep than a number. -/
def satisfiedWithin [Pattern.Engine] : Nat → Value → Value → Bool
  | _, .bool b, _ => b
  | depth + 1, .dict schema, v => nodeSatisfied (satisfiedWithin depth) schema v
  | _, _, _ => false

/-- Whether a value satisfies a schema. -/
def satisfied [Pattern.Engine] (schema v : Value) : Bool := satisfiedWithin (schema.depth + 1) schema v

section

variable {schema : Entries}

theorem mem_of_mem_listedSchemas {keyword : String} (hkeyword : (keyword, KeywordShape.schemas) ∈ keywordShapes)
    {s : Value} (h : s ∈ listedSchemas schema keyword) : s ∈ subSchemas schema := by
  unfold listedSchemas at h
  cases hget : Entries.get? schema keyword with
  | none => rw [hget] at h; cases h
  | some v =>
    rw [hget] at h
    exact mem_subSchemas .schemas hget hkeyword h

theorem mem_of_mem_mappedSchemas {keyword : String} (hkeyword : (keyword, KeywordShape.schemaMap) ∈ keywordShapes)
    {e : Value × Value} (h : e ∈ mappedSchemas schema keyword) : e.2 ∈ subSchemas schema := by
  unfold mappedSchemas at h
  cases hget : Entries.get? schema keyword with
  | none => rw [hget] at h; cases h
  | some v =>
    rw [hget] at h
    exact mem_subSchemas .schemaMap hget hkeyword (List.mem_map_of_mem h)

theorem mem_of_mem_matchingSchemas [Pattern.Engine] {key : String} {s : Value} (h : s ∈ matchingSchemas schema key) :
    s ∈ subSchemas schema := by
  obtain ⟨e, he, rfl⟩ := List.mem_map.mp h
  exact mem_of_mem_mappedSchemas (by decide) (List.mem_of_mem_filter he)

theorem all_congr_of_mem {α : Type} {l : List α} {p q : α → Bool} (h : ∀ a ∈ l, p a = q a) : l.all p = l.all q := by
  induction l with
  | nil => rfl
  | cons a as ih =>
    obtain ⟨ha, has⟩ := List.forall_mem_cons.mp h
    rw [List.all_cons, List.all_cons, ha, ih has]

variable {f g : Value → Value → Bool} (h : ∀ s ∈ subSchemas schema, ∀ w, f s w = g s w)
include h

omit h in
theorem positionsSatisfied_congr {schemas : List Value} (h : ∀ s ∈ schemas, ∀ w, f s w = g s w) (items : List Value) :
    positionsSatisfied f schemas items = positionsSatisfied g schemas items :=
  all_congr_of_mem fun p hp => h p.1 (List.of_mem_zip hp).1 p.2

theorem restSatisfied_congr (size : Nat) (items : List Value) :
    restSatisfied f schema size items = restSatisfied g schema size items := by
  unfold restSatisfied
  split
  · rfl
  next rest hget =>
    have hmem : Value.dict rest ∈ subSchemas schema :=
      mem_subSchemas .schema hget (by decide) (List.mem_singleton.mpr rfl)
    rw [all_congr_of_mem fun w _ => h _ hmem w]
  · rfl

theorem itemsSatisfied_congr (items : List Value) : itemsSatisfied f schema items = itemsSatisfied g schema items := by
  unfold itemsSatisfied
  split
  · rfl
  next schemas hget =>
    have hmem : ∀ s ∈ schemas, s ∈ subSchemas schema := fun s hs =>
      mem_subSchemas .schemaOrSchemas hget (by decide) hs
    rw [restSatisfied_congr h, positionsSatisfied_congr fun s hs => h s (hmem s hs)]
  next element hother hget =>
    have hmem : element ∈ subSchemas schema := by
      refine mem_subSchemas .schemaOrSchemas hget (by decide) ?_
      cases element with
      | list schemas => exact (hother schemas rfl).elim
      | _ => exact List.mem_singleton.mpr rfl
    exact all_congr_of_mem fun w _ => h _ hmem w

theorem containsSatisfied_congr (items : List Value) :
    containsSatisfied f schema items = containsSatisfied g schema items := by
  unfold containsSatisfied
  split
  · rfl
  next element hget =>
    have hmem : element ∈ subSchemas schema :=
      mem_subSchemas .schema hget (by decide) (List.mem_singleton.mpr rfl)
    rw [List.countP_congr fun w _ => by rw [h element hmem w]]

theorem arraySatisfied_congr (v : Value) : arraySatisfied f schema v = arraySatisfied g schema v := by
  unfold arraySatisfied
  cases v with
  | list items =>
    dsimp only
    rw [itemsSatisfied_congr h, containsSatisfied_congr h,
      positionsSatisfied_congr fun s hs => h s (mem_of_mem_listedSchemas (by decide) hs)]
  | _ => rfl

theorem additionalSatisfied_congr (w : Value) :
    additionalSatisfied f schema w = additionalSatisfied g schema w := by
  unfold additionalSatisfied
  split
  next others hget => exact h _ (mem_subSchemas .schema hget (by decide) (List.mem_singleton.mpr rfl)) w
  · rfl

theorem memberSatisfied_congr [Pattern.Engine] (key : String) (w : Value) :
    memberSatisfied f schema key w = memberSatisfied g schema key w := by
  unfold memberSatisfied
  split
  next property hget =>
    exact h property (mem_of_mem_mappedSchemas (by decide) (Entries.mem_of_get? hget)) w
  · rw [additionalSatisfied_congr h]
    have hall : (matchingSchemas schema key).all (fun s => f s w) = (matchingSchemas schema key).all fun s => g s w :=
      all_congr_of_mem fun s hs => h s (mem_of_mem_matchingSchemas hs) w
    cases hmatching : matchingSchemas schema key with
    | nil => rfl
    | cons s ss => rw [hmatching] at hall; simp only [hall]

theorem objectSatisfied_congr [Pattern.Engine] (v : Value) :
    objectSatisfied f schema v = objectSatisfied g schema v := by
  unfold objectSatisfied
  cases v with
  | dict members =>
    dsimp only
    have hall : (members.all fun e => memberSatisfied f schema e.1.plain e.2)
        = members.all fun e => memberSatisfied g schema e.1.plain e.2 :=
      all_congr_of_mem fun e _ => memberSatisfied_congr h e.1.plain e.2
    rw [hall]
  | _ => rfl

theorem combinedSatisfied_congr (v : Value) :
    combinedSatisfied (fun s => f s v) schema = combinedSatisfied (fun s => g s v) schema := by
  have hsome : ∀ {keyword}, (keyword, KeywordShape.schemas) ∈ keywordShapes →
      someSatisfied (fun s => f s v) schema keyword = someSatisfied (fun s => g s v) schema keyword := by
    intro keyword hkeyword
    unfold someSatisfied
    rw [List.any_eq_not_all_not, List.any_eq_not_all_not,
      all_congr_of_mem fun s hs => congrArg (!·) (h s (mem_of_mem_listedSchemas hkeyword hs) v)]
  have hnot : notSatisfied (fun s => f s v) schema = notSatisfied (fun s => g s v) schema := by
    unfold notSatisfied
    split
    next negated hget =>
      exact congrArg (!·) (h _ (mem_subSchemas .schema hget (by decide) (List.mem_singleton.mpr rfl)) v)
    · rfl
  unfold combinedSatisfied
  rw [hsome (by decide), hsome (by decide), hnot,
    all_congr_of_mem fun s hs => h s (mem_of_mem_listedSchemas (by decide) hs) v]

/-- What a mapping says depends on what its sub-schemas say. -/
theorem nodeSatisfied_congr [Pattern.Engine] (v : Value) : nodeSatisfied f schema v = nodeSatisfied g schema v := by
  unfold nodeSatisfied
  rw [arraySatisfied_congr h, objectSatisfied_congr h, combinedSatisfied_congr h]

end

theorem satisfiedWithin_eq [Pattern.Engine] {depth depth' : Nat} {schema : Value} (h : schema.depth < depth)
    (h' : schema.depth < depth') (v : Value) : satisfiedWithin depth schema v = satisfiedWithin depth' schema v := by
  induction depth generalizing depth' schema v with
  | zero => omega
  | succ depth ih =>
    obtain ⟨depth', rfl⟩ : ∃ n, depth' = n + 1 := ⟨depth' - 1, by omega⟩
    cases schema with
    | dict entries =>
      refine nodeSatisfied_congr (fun s hs w => ?_) v
      have hlt := depth_lt_of_mem_subSchemas hs
      exact ih (by omega) (by omega) w
    | _ => rfl

@[simp] theorem satisfied_bool [Pattern.Engine] (b : Bool) (v : Value) : satisfied (.bool b) v = b := rfl

/-- **What a mapping of keywords says**, in terms of what its sub-schemas say. -/
theorem satisfied_dict [Pattern.Engine] (schema : Entries) (v : Value) :
    satisfied (.dict schema) v = nodeSatisfied satisfied schema v :=
  nodeSatisfied_congr (fun _ hs w => satisfiedWithin_eq (depth_lt_of_mem_subSchemas hs) (Nat.lt_succ_self _) w) v

end Schemata
